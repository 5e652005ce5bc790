import Restyle.Syntax.Concrete

/-!
Cursors: places in a concrete tree, from which one moves to the first child, to the next sibling or
to the parent, and never out of the tree that one started with.

`walk` visits the nodes of a tree by these moves until it is told to stop. It ends because every
step leaves one node less that is still to be met (`Cursor.ahead_eq`).
-/

namespace Restyle.Syntax

/-- A node of a tree with its surroundings. -/
structure Cursor where
  focus : Cst
  /-- The siblings after the node. -/
  later : List Cst
  /-- The ancestors, the nearest first, each with the siblings after it. -/
  above : List (Cst × List Cst)

namespace Cursor

/-- The root of a tree. -/
def ofTree (t : Cst) : Cursor := ⟨t, [], []⟩

def firstChild? (c : Cursor) : Option Cursor :=
  match c.focus.children with
  | [] => none
  | child :: later => some ⟨child, later, (c.focus, c.later) :: c.above⟩

def nextSibling? (c : Cursor) : Option Cursor :=
  match c.later with
  | [] => none
  | sibling :: later => some ⟨sibling, later, c.above⟩

def parent? (c : Cursor) : Option Cursor :=
  match c.above with
  | [] => none
  | (focus, later) :: above => some ⟨focus, later, above⟩

/-! ### What the moves do -/

variable {c d : Cursor}

theorem firstChild?_eq_none_iff : c.firstChild? = none ↔ c.focus.children = [] := by
  grind [firstChild?]

theorem firstChild?_eq_some_iff :
    c.firstChild? = some d
      ↔ c.focus.children = d.focus :: d.later ∧ d.above = (c.focus, c.later) :: c.above := by
  cases d
  grind [firstChild?]

theorem nextSibling?_eq_none_iff : c.nextSibling? = none ↔ c.later = [] := by
  grind [nextSibling?]

theorem nextSibling?_eq_some_iff :
    c.nextSibling? = some d ↔ c.later = d.focus :: d.later ∧ d.above = c.above := by
  cases d
  grind [nextSibling?]

theorem parent?_eq_none_iff : c.parent? = none ↔ c.above = [] := by
  grind [parent?]

theorem parent?_eq_some_iff : c.parent? = some d ↔ c.above = (d.focus, d.later) :: d.above := by
  cases d
  grind [parent?]

/-! ### The order of a text -/

/-- The next sibling of a node, or else of the nearest ancestor that has one. Every step up leaves
one ancestor less. -/
def nextBeside? (c : Cursor) : Option Cursor :=
  match c.nextSibling? with
  | some next => some next
  | none =>
    match _h : c.parent? with
    | some p => nextBeside? p
    | none => none
termination_by c.above.length
decreasing_by
  rw [parent?_eq_some_iff.mp _h]
  exact Nat.lt_succ_self _

/-- The node that a reader meets next. -/
def next? (c : Cursor) : Option Cursor :=
  match c.firstChild? with
  | some child => some child
  | none => c.nextBeside?

/-- The nodes behind that of the cursor and behind what is below it, in the order of the text. -/
def behind (c : Cursor) : List Cst :=
  Cst.preorderAll c.later ++ c.above.flatMap fun (_, later) => Cst.preorderAll later

/-- The nodes from that of the cursor on, in the order of the text. -/
def ahead (c : Cursor) : List Cst :=
  c.focus.preorder ++ c.behind

theorem ahead_ofTree (t : Cst) : (ofTree t).ahead = t.preorder := by
  simp [ahead, behind, ofTree, Cst.preorderAll]

/-- What is behind a node begins with its next sibling, or with that of an ancestor. -/
theorem behind_eq (c : Cursor) : c.behind = (c.nextBeside?.map ahead).getD [] := by
  fun_induction nextBeside? c with
  | case1 c next hnext =>
    obtain ⟨hlater, habove⟩ := nextSibling?_eq_some_iff.mp hnext
    simp [behind, ahead, hlater, habove, Cst.preorderAll]
  | case2 c hnext p hparent ih =>
    rw [← ih, behind, nextSibling?_eq_none_iff.mp hnext, parent?_eq_some_iff.mp hparent]
    rfl
  | case3 c hnext hparent =>
    rw [behind, nextSibling?_eq_none_iff.mp hnext, parent?_eq_none_iff.mp hparent]
    rfl

/-- A reader who has met a node has the others still to meet. -/
theorem ahead_eq (c : Cursor) : c.ahead = c.focus :: (c.next?.map ahead).getD [] := by
  have hfocus : c.focus.preorder = c.focus :: Cst.preorderAll c.focus.children := by
    cases c.focus
    rfl
  rw [ahead, hfocus, next?, List.cons_append]
  cases hchild : c.firstChild? with
  | none =>
    rw [firstChild?_eq_none_iff.mp hchild, behind_eq c]
    rfl
  | some child =>
    obtain ⟨hchildren, habove⟩ := firstChild?_eq_some_iff.mp hchild
    simp [behind, ahead, hchildren, habove, Cst.preorderAll]

theorem length_ahead_lt (h : c.next? = some d) : d.ahead.length < c.ahead.length := by
  rw [ahead_eq c, h]
  exact Nat.lt_succ_self _

/-! ### Visits -/

/-- Visits the nodes from that of the cursor on, until a visit says to stop. -/
def walkFrom {σ : Type} (visit : σ → Cst → σ × Bool) (s : σ) (c : Cursor) : σ :=
  match visit s c.focus with
  | (s, false) => s
  | (s, true) =>
    match _h : c.next? with
    | some next => walkFrom visit s next
    | none => s
termination_by c.ahead.length
decreasing_by exact length_ahead_lt _h

end Cursor

namespace Cst

/-- Visits the nodes of a tree until a visit says to stop. -/
def walk {σ : Type} (t : Cst) (visit : σ → Cst → σ × Bool) (s : σ) : σ :=
  Cursor.walkFrom visit s (.ofTree t)

/-- Whether a node tells of an error. -/
def isFault (t : Cst) : Bool :=
  t.isError || t.isMissing

/-- How many nodes of a tree tell of errors. -/
def countFaults (t : Cst) : Nat :=
  t.walk (fun n node => (if node.isFault then n + 1 else n, true)) 0

/-- The first node of a tree that tells of an error. -/
def firstFault? (t : Cst) : Option Cst :=
  t.walk (fun _ node => if node.isFault then (some node, false) else (none, true)) none

end Cst

end Restyle.Syntax
