import Restyle.Proofs.Tree.Marking
import Restyle.Search.Tag

/-!
Walks over trees whose nodes may be listed in several places and may have outdated parents.

* `Reaches`, `Acyclic`: the ways down from a node, none of which comes back to it;
* `spread_lt`: a node reaches more nodes than any of its children, which is what walks along
  children run out of;
* `mem_descendants_iff_reaches`: the descendants of a node are what it reaches;
* `textWithin?`, `visit?`, `markChangedWithin?`, `isInsideWithin?`, `wrapsWithin?`: the walks, with
  an answer only where they end within some steps;
* `Acyclic.walkable`: all of them end, at every node, with the answers of the walks.
-/

namespace Restyle.SyntaxTree

variable {t t' : SyntaxTree}

/-! ### Ways down -/

/-- A node lists another one among its children. -/
def Lists (t : SyntaxTree) (p c : NodeId) : Prop :=
  c ∈ t.children p

/-- A node is on a way down from another one, or is that one. -/
def Reaches (t : SyntaxTree) : NodeId → NodeId → Prop :=
  Relation.ReflTransGen t.Lists

/-- A tree of nodes that are there, in which no node is below itself. Nodes may be listed by several
others, and by others than their parents. -/
structure Acyclic (t : SyntaxTree) : Prop where
  size_pos : 0 < t.size
  lt_of_lists : ∀ {p c : NodeId}, t.Lists p c → c < t.size
  parent_lt : ∀ {c p : NodeId}, t.parent c = some p → p < t.size
  not_below : ∀ x, ¬ Relation.TransGen t.Lists x x

/-- Adding one edge to a relation adds only the ways through it. -/
lemma reflTransGen_of_added {α : Type*} {r r' : α → α → Prop} {p c : α}
    (hsub : ∀ x y, r' x y → r x y ∨ x = p ∧ y = c) {a b : α} (h : Relation.ReflTransGen r' a b) :
    Relation.ReflTransGen r a b ∨ Relation.ReflTransGen r a p ∧ Relation.ReflTransGen r c b := by
  induction h with
  | refl => exact .inl .refl
  | tail _ hbd ih =>
      rcases hsub _ _ hbd with hbd | ⟨rfl, rfl⟩
      · exact ih.imp (·.tail hbd) fun ⟨hap, hcb⟩ => ⟨hap, hcb.tail hbd⟩
      · exact .inr ⟨ih.elim id (·.1), .refl⟩

/-- An edge closes no circle unless there is a way back. -/
lemma not_transGen_of_added {α : Type*} {r r' : α → α → Prop} {p c : α}
    (hr : ∀ x, ¬ Relation.TransGen r x x) (hsub : ∀ x y, r' x y → r x y ∨ x = p ∧ y = c)
    (hback : ¬ Relation.ReflTransGen r c p) (x : α) : ¬ Relation.TransGen r' x x := by
  intro hx
  obtain ⟨y, hxy, hyx⟩ := Relation.TransGen.head'_iff.mp hx
  rcases hsub _ _ hxy with hxy | ⟨rfl, rfl⟩
  · rcases reflTransGen_of_added hsub hyx with hyx | ⟨hyp, hcx⟩
    · exact hr x (.head' hxy hyx)
    · exact hback ((hcx.tail hxy).trans hyp)
  · rcases reflTransGen_of_added hsub hyx with hyx | ⟨hyp, -⟩
    · exact hback hyx
    · exact hback hyp

/-! ### How far a node reaches -/

open scoped Classical in
/-- The nodes that a node reaches. -/
noncomputable def reached (t : SyntaxTree) (x : NodeId) : Finset NodeId :=
  (Finset.range t.size).filter (t.Reaches x)

lemma mem_reached {x y : NodeId} : y ∈ t.reached x ↔ y < t.size ∧ t.Reaches x y := by
  simp only [reached, Finset.mem_filter, Finset.mem_range]

/-- How many nodes a node reaches. -/
noncomputable def spread (t : SyntaxTree) (x : NodeId) : Nat :=
  (t.reached x).card

lemma spread_le_size (t : SyntaxTree) (x : NodeId) : t.spread x ≤ t.size := by
  calc t.spread x ≤ (Finset.range t.size).card :=
        Finset.card_le_card fun y hy => Finset.mem_range.mpr (mem_reached.mp hy).1
    _ = t.size := Finset.card_range t.size

lemma spread_pos {x : NodeId} (hx : x < t.size) : 0 < t.spread x :=
  Finset.card_pos.mpr ⟨x, mem_reached.mpr ⟨hx, .refl⟩⟩

namespace Acyclic

lemma root_lt (h : t.Acyclic) : root < t.size :=
  h.size_pos

/-- No way leads back from a child. -/
lemma not_reaches (h : t.Acyclic) {p c : NodeId} (hc : t.Lists p c) : ¬ t.Reaches c p :=
  fun hback => h.not_below p (.head' hc hback)

/-- A child reaches less than the node that lists it. -/
theorem spread_lt (h : t.Acyclic) {p c : NodeId} (hc : t.Lists p c) : t.spread c < t.spread p := by
  refine Finset.card_lt_card ⟨fun x hx => ?_, fun hsub => ?_⟩
  · obtain ⟨hlt, hx⟩ := mem_reached.mp hx
    exact mem_reached.mpr ⟨hlt, .head hc hx⟩
  · -- the node itself is not reached from the child
    have hp : p ∈ t.reached p := mem_reached.mpr ⟨lt_size_of_mem hc, .refl⟩
    exact h.not_reaches hc (mem_reached.mp (hsub hp)).2

/-! ### What a node reaches -/

/-- How far down a walk may go does not matter, if it may go as far as the node reaches. -/
lemma descendantsWithin_eq (h : t.Acyclic) {n m : Nat} {x : NodeId} (hx : x < t.size)
    (hn : t.spread x ≤ n) (hm : t.spread x ≤ m) :
    t.descendantsWithin n x = t.descendantsWithin m x := by
  induction n generalizing m x with
  | zero => exact absurd (spread_pos hx) (Nat.not_lt.mpr hn)
  | succ n ih =>
      obtain ⟨m, rfl⟩ : ∃ k, m = k + 1 :=
        Nat.exists_eq_succ_of_ne_zero ((spread_pos hx).trans_le hm).ne'
      rw [descendantsWithin, descendantsWithin]
      congr 1
      refine List.flatMap_congr fun c hc => ?_
      have hlt := h.spread_lt hc
      exact ih (h.lt_of_lists hc) (by omega) (by omega)

/-- The descendants of a node are itself and those of its children. -/
theorem descendants_eq (h : t.Acyclic) (x : NodeId) :
    t.descendants x = x :: (t.children x).flatMap t.descendants := by
  obtain ⟨n, hn⟩ : ∃ n, t.size = n + 1 := Nat.exists_eq_succ_of_ne_zero h.size_pos.ne'
  have hle := t.spread_le_size x
  rw [descendants, hn, descendantsWithin]
  congr 1
  refine List.flatMap_congr fun c hc => ?_
  have hlt := h.spread_lt hc
  exact h.descendantsWithin_eq (h.lt_of_lists hc) (by omega) (t.spread_le_size c)

/-- Whatever holds of a node as soon as it holds of its children, holds of all nodes. -/
lemma inductDown (h : t.Acyclic) {P : NodeId → Prop} (hP : ∀ x, (∀ c, t.Lists x c → P c) → P x)
    (x : NodeId) : P x := by
  induction hn : t.spread x using Nat.strong_induction_on generalizing x with
  | _ n ih => exact hP x fun c hc => ih _ (hn ▸ h.spread_lt hc) c rfl

theorem mem_descendants_iff_reaches (h : t.Acyclic) {x d : NodeId} :
    d ∈ t.descendants x ↔ t.Reaches x d := by
  induction x using h.inductDown with
  | hP x ih =>
      rw [h.descendants_eq x, List.mem_cons, List.mem_flatMap, Reaches,
        Relation.ReflTransGen.cases_head_iff, eq_comm]
      exact or_congr_right (exists_congr fun c => and_congr_right fun hc => ih c hc)

end Acyclic

/-! ### Walks that may not end -/

/-- The text of a node, if at most `depth` nodes lie on a path down from it. -/
def textWithin? (t : SyntaxTree) : Nat → NodeId → Option String
  | 0, _ => none
  | depth + 1, id =>
    let n := t.node id
    match n.literal, n.asRead, n.changed with
    | some s, _, _ => some s
    | none, some s, false => some s
    | none, _, _ =>
      (n.slots.mapM fun slot => (textWithin? t depth slot.child).map (slot.gap ++ ·)).map
        fun texts => String.join texts ++ n.ending

/-- The nodes that are met when each node on the stack is replaced by its children, if there are at
most `steps`. -/
def visit? (t : SyntaxTree) : Nat → List NodeId → Option (List NodeId)
  | _, [] => some []
  | 0, _ :: _ => none
  | steps + 1, id :: stack => (visit? t steps (t.children id ++ stack)).map (id :: ·)

/-- Marks a node and those above it, if the walk up ends within some steps. -/
def markChangedWithin? : Nat → SyntaxTree → NodeId → Option SyntaxTree
  | 0, _, _ => none
  | steps + 1, t, id =>
    if (t.node id).changed then some t
    else
      match t.parent id with
      | some p => markChangedWithin? steps (t.markOne id) p
      | none => some (t.markOne id)

/-- Whether a wrapper lies above a node, if the walk up ends within some steps. -/
def isInsideWithin? (t : SyntaxTree) (wrapper : String) : Nat → NodeId → Option Bool
  | 0, _ => none
  | steps + 1, id =>
    match t.parent id with
    | none => some false
    | some parent =>
      if t.onlyElement? parent = some id then
        if t.nameOfElement? parent = some wrapper then some true
        else isInsideWithin? t wrapper steps parent
      else some false

/-- Whether an element with such a name lies below an element, if the walk down ends within some
steps. -/
def wrapsWithin? (t : SyntaxTree) (needle : String) : Nat → NodeId → Option Bool
  | 0, _ => none
  | steps + 1, id =>
    match t.onlyElement? id with
    | none => some false
    | some child =>
      if (t.nameOfElement? child).any (nameContains · needle) then some true
      else wrapsWithin? t needle steps child

/-- Every walk ends, wherever it starts. -/
structure Walkable (t : SyntaxTree) : Prop where
  render : t.textWithin? t.size root = some t.render
  text : ∀ id < t.size, t.textWithin? t.size id = some (t.text id)
  descendants : ∀ id, t.visit? (t.descendants id).length [id] = some (t.descendants id)
  markChanged : ∀ id < t.size, markChangedWithin? (t.size + 1) t id = some (t.markChanged id)
  isInside : ∀ id < t.size, ∀ wrapper,
    t.isInsideWithin? wrapper t.size id = some (t.isInside id wrapper)
  wrapsWithin : ∀ id < t.size, ∀ needle,
    t.wrapsWithin? needle t.size id = some (t.wrapsWithin needle t.size id)

/-! ### They end -/

lemma mapM_eq_some_map {α β : Type} {f : α → Option β} {g : α → β} {l : List α}
    (h : ∀ a ∈ l, f a = some (g a)) : l.mapM f = some (l.map g) := by
  induction l with
  | nil => rfl
  | cons a l ih =>
      rw [List.mapM_cons, h a List.mem_cons_self, ih fun b hb => h b (List.mem_cons_of_mem _ hb)]
      rfl

lemma onlyElement?_lists {p c : NodeId} (h : t.onlyElement? p = some c) : t.Lists p c :=
  onlyElement?_mem h

namespace Acyclic

/-- A text is put together after as many steps down as the node reaches nodes. -/
lemma textWithin?_eq (h : t.Acyclic) {n : Nat} {x : NodeId} (hx : x < t.size)
    (hn : t.spread x ≤ n) : t.textWithin? n x = some (t.textWithin n x) := by
  induction n generalizing x with
  | zero => exact absurd (spread_pos hx) (Nat.not_lt.mpr hn)
  | succ n ih =>
      have hslots : ∀ slot ∈ (t.node x).slots, (t.textWithin? n slot.child).map (slot.gap ++ ·)
          = some (slot.gap ++ t.textWithin n slot.child) := fun slot hslot => by
        have hc : t.Lists x slot.child := List.mem_map_of_mem hslot
        have hlt := h.spread_lt hc
        rw [ih (h.lt_of_lists hc) (by omega), Option.map_some]
      rw [textWithin?, textWithin, mapM_eq_some_map hslots]
      cases (t.node x).literal with
      | some s => rfl
      | none =>
          cases (t.node x).asRead with
          | none => rfl
          | some s => cases (t.node x).changed <;> rfl

/-- The stack is empty after one step for each node that is met. -/
lemma visit?_eq (h : t.Acyclic) {n : Nat} {stack : List NodeId}
    (hn : (stack.flatMap t.descendants).length = n) :
    t.visit? n stack = some (stack.flatMap t.descendants) := by
  induction n generalizing stack with
  | zero =>
      cases stack with
      | nil => rfl
      | cons x stack =>
          rw [List.flatMap_cons, h.descendants_eq x] at hn
          cases hn
  | succ n ih =>
      cases stack with
      | nil => cases hn
      | cons x stack =>
          have hmet : (x :: stack).flatMap t.descendants
              = x :: (t.children x ++ stack).flatMap t.descendants := by
            rw [List.flatMap_cons, h.descendants_eq x, List.flatMap_append, List.cons_append]
          rw [hmet, List.length_cons, Nat.add_right_cancel_iff] at hn
          rw [visit?, ih hn, hmet, Option.map_some]

/-- The walk up goes along nodes that list the one before, so that it gets to nodes that reach more
and more. -/
lemma isInsideWithin?_eq (h : t.Acyclic) (wrapper : String) {n : Nat} {x : NodeId}
    (hn : t.size < n + t.spread x) :
    t.isInsideWithin? wrapper n x = some (t.isInsideWithin wrapper n x) := by
  induction n generalizing x with
  | zero => exact absurd (t.spread_le_size x) (by omega)
  | succ n ih =>
      rw [isInsideWithin?, isInsideWithin]
      cases t.parent x with
      | none => rfl
      | some p =>
          dsimp only
          by_cases honly : t.onlyElement? p = some x
          · have hlt := h.spread_lt (onlyElement?_lists honly)
            rw [if_pos honly, ih (by omega), decide_eq_true honly, Bool.true_and]
            by_cases hname : t.nameOfElement? p = some wrapper
            · rw [if_pos hname, decide_eq_true hname, Bool.true_or]
            · rw [if_neg hname, decide_eq_false hname, Bool.false_or]
          · rw [if_neg honly, decide_eq_false honly, Bool.false_and]

lemma wrapsWithin?_eq (h : t.Acyclic) (needle : String) {n : Nat} {x : NodeId} (hx : x < t.size)
    (hn : t.spread x ≤ n) :
    t.wrapsWithin? needle n x = some (t.wrapsWithin needle n x) := by
  induction n generalizing x with
  | zero => exact absurd (spread_pos hx) (Nat.not_lt.mpr hn)
  | succ n ih =>
      rw [wrapsWithin?, wrapsWithin]
      cases honly : t.onlyElement? x with
      | none => rfl
      | some c =>
          have hc := onlyElement?_lists honly
          have hlt := h.spread_lt hc
          dsimp only
          rw [ih (h.lt_of_lists hc) (by omega)]
          cases (t.nameOfElement? c).any (nameContains · needle) <;> rfl

end Acyclic

/-- How many nodes are not marked. -/
def unmarked (t : SyntaxTree) : Nat :=
  ((Finset.range t.size).filter fun x => (t.node x).changed = false).card

lemma unmarked_le_size (t : SyntaxTree) : t.unmarked ≤ t.size := by
  calc t.unmarked ≤ (Finset.range t.size).card := Finset.card_filter_le _ _
    _ = t.size := Finset.card_range t.size

lemma unmarked_markOne_lt {x : NodeId} (hx : x < t.size) (hch : (t.node x).changed = false) :
    (t.markOne x).unmarked < t.unmarked := by
  refine Finset.card_lt_card ⟨fun y hy => ?_, fun hsub => ?_⟩
  · rw [Finset.mem_filter, markOne, size_update] at hy
    refine Finset.mem_filter.mpr ⟨hy.1, ?_⟩
    by_contra hy'
    have := changed_markOne_of_changed x (Bool.eq_true_of_not_eq_false hy')
    rw [markOne, hy.2] at this
    cases this
  · have hmem := hsub (Finset.mem_filter.mpr ⟨Finset.mem_range.mpr hx, hch⟩)
    rw [Finset.mem_filter, changed_markOne_self hx] at hmem
    cases hmem.2

/-- The walk up ends at a marked node at the latest when all are marked, whatever the parents
are. -/
lemma markChangedWithin?_eq (hparent : ∀ {c p : NodeId}, t.parent c = some p → p < t.size) {n : Nat}
    {x : NodeId} (hx : x < t.size) (hn : t.unmarked ≤ n) :
    markChangedWithin? (n + 1) t x = some (markChangedWithin n t x) := by
  induction n generalizing t x with
  | zero =>
      have hch : (t.node x).changed = true := by
        by_contra hch
        have := unmarked_markOne_lt hx (Bool.eq_false_of_not_eq_true hch)
        omega
      rw [markChangedWithin?, if_pos hch, markChangedWithin]
  | succ n ih =>
      rw [markChangedWithin?, markChangedWithin_succ, parent_markOne hx]
      by_cases hch : (t.node x).changed = true
      · rw [if_pos hch, if_pos hch]
      -- Each step upwards marks a node that was not marked, so a cycle of parents ends the walk as
      -- well.
      · have hlt := unmarked_markOne_lt hx (Bool.eq_false_of_not_eq_true hch)
        rw [if_neg hch, if_neg hch]
        cases hp : t.parent x with
        | none => rfl
        | some p =>
            have hsize : (t.markOne x).size = t.size := size_update t x _
            refine ih (fun {c q} hq => ?_) (hsize ▸ hparent hp) (by omega)
            rw [parent_markOne hx] at hq
            exact hsize ▸ hparent hq

/-- Where no node is below itself, every walk ends. -/
theorem Acyclic.walkable (h : t.Acyclic) : t.Walkable where
  render := h.textWithin?_eq h.root_lt (t.spread_le_size root)
  text := fun id hid => h.textWithin?_eq hid (t.spread_le_size id)
  descendants := fun id => by
    have hid : [id].flatMap t.descendants = t.descendants id := List.flatMap_singleton _ id
    exact hid ▸ h.visit?_eq rfl
  markChanged := fun id hid => markChangedWithin?_eq h.parent_lt hid t.unmarked_le_size
  isInside := fun id hid wrapper => h.isInsideWithin?_eq wrapper (by
    have := spread_pos hid
    omega)
  wrapsWithin := fun id hid needle => h.wrapsWithin?_eq needle hid (t.spread_le_size id)

end Restyle.SyntaxTree
