import Mathlib.Data.List.TakeWhile
import Restyle.Proofs.Change.Amending

/-!
The directives that a module begins with, when it gets an import.

* `isStringStatement`, `opening`, `prologue`: directives, comments in them or not, and those that a
  module begins with;
* `isDirective_eq`: only a directive without a comment in it is taken for one;
* `prologueEnd_spec`: where the search for the place of an import ends;
* `Reachable.prologue_requireImport`: an import goes behind the directives that a module begins
  with, up to the first one with a comment in it, so that it leaves them all in their place exactly
  if none of them has one.
-/

namespace Restyle.SyntaxTree

variable {t t' : SyntaxTree}

/-! ### Directives -/

/-- Whether a statement is nothing but a string literal, punctuation and comments aside. -/
def isStringStatement (t : SyntaxTree) (id : NodeId) : Bool :=
  t.kind id = .expressionStatement
    && match (t.children id).filter fun c => t.kind c != .token && t.kind c != .comment with
      | [literal] => t.kind literal = .stringLiteral
      | _ => false

/-- Whether a comment stands between the parts of a node. -/
def holdsComment (t : SyntaxTree) (id : NodeId) : Bool :=
  (t.children id).any fun c => t.kind c = .comment

/-- Whether a statement is a directive, a comment or a hash-bang line. -/
def opens (t : SyntaxTree) (id : NodeId) : Bool :=
  t.kind id = .hashBang || t.kind id = .comment || t.isStringStatement id

/-- What stands before the first statement that is none of these. -/
def opening (t : SyntaxTree) : List NodeId :=
  (t.children root).takeWhile t.opens

/-- The directives that a module begins with. -/
def prologue (t : SyntaxTree) : List NodeId :=
  t.opening.filter t.isStringStatement

lemma kind_of_isStringStatement {id : NodeId} (h : t.isStringStatement id = true) :
    t.kind id = .expressionStatement := by
  rw [isStringStatement, Bool.and_eq_true, decide_eq_true_eq] at h
  exact h.1

/-- A directive is found to be one if there is no comment in it. -/
theorem isDirective_eq {id : NodeId} (hk : t.kind id = .expressionStatement) :
    t.isDirective id = (t.isStringStatement id && !t.holdsComment id) := by
  rw [isDirective, isStringStatement, decide_eq_true hk, Bool.true_and]
  -- Without comments both tests see the same children; with one the test for directives sees it as
  -- a further child.
  cases hc : t.holdsComment id with
  | false =>
      have hquiet : ∀ c ∈ t.children id, t.kind c ≠ .comment := by
        simpa [holdsComment] using hc
      have hsame : ((t.children id).filter fun c => t.kind c != .token && t.kind c != .comment)
          = (t.children id).filter fun c => t.kind c != .token :=
        List.filter_congr fun c hmem => by simp [hquiet c hmem]
      rewrite [hsame, Bool.not_false, Bool.and_true]
      rcases (t.children id).filter fun c => t.kind c != .token with
        - | ⟨literal, - | ⟨c, cs⟩⟩ <;> rfl
  | true =>
      obtain ⟨c, hmem, hcomment⟩ : ∃ c ∈ t.children id, t.kind c = .comment := by
        simpa [holdsComment] using hc
      have hshown : c ∈ (t.children id).filter fun c => t.kind c != .token :=
        List.mem_filter.mpr ⟨hmem, by simp [hcomment]⟩
      rw [Bool.not_true, Bool.and_false]
      split
      · next literal heq =>
          rw [heq, List.mem_singleton] at hshown
          subst hshown
          rw [hcomment]
          rfl
      · rfl

/-! ### The place of an import -/

/-- Whether the search for the place of an import goes on behind a statement. -/
def isPassed (t : SyntaxTree) (id : NodeId) : Bool :=
  t.kind id = .hashBang || t.kind id = .comment
    || (t.kind id = .expressionStatement && t.isDirective id)

/-- What opens a module is passed unless it is a string with a comment in it. -/
lemma isPassed_eq (t : SyntaxTree) (id : NodeId) :
    t.isPassed id = (t.opens id && !(t.isStringStatement id && t.holdsComment id)) := by
  by_cases hk : t.kind id = .expressionStatement
  · rw [isPassed, opens, isDirective_eq hk, hk]
    cases t.isStringStatement id <;> cases t.holdsComment id <;> rfl
  · have hno : t.isStringStatement id = false := by
      rw [isStringStatement, decide_eq_false hk, Bool.false_and]
    rw [isPassed, opens, hno, decide_eq_false hk, Bool.false_and, Bool.false_and, Bool.or_false,
      Bool.not_false, Bool.and_true]

/-- The end moves behind what is passed, and comments move it only with what follows. -/
lemma prologueEnd_cons (t : SyntaxTree) (index last : Nat) (id : NodeId) (ids : List NodeId) :
    t.prologueEnd index last (id :: ids)
      = if t.kind id = .comment then t.prologueEnd (index + 1) last ids
        else if t.isPassed id then t.prologueEnd (index + 1) (index + 1) ids
        else last := by
  rw [prologueEnd, isPassed]
  cases t.kind id <;> simp

/-- How the search divides statements: those up to the last one that an import must stand behind,
comments, and those that it does not pass. -/
structure Divides (t : SyntaxTree) (front comments back : List NodeId) : Prop where
  passed : ∀ c ∈ front, t.isPassed c = true
  last : ∀ c, front.getLast? = some c → t.kind c ≠ .comment
  comments : ∀ c ∈ comments, t.kind c = .comment
  stops : ∀ c, back.head? = some c → t.isPassed c = false

/-- The search ends behind the last statement that an import must stand behind. -/
theorem prologueEnd_spec (t : SyntaxTree) (index last : Nat) (ids : List NodeId) :
    ∃ front comments back, ids = front ++ (comments ++ back) ∧ t.Divides front comments back
      ∧ t.prologueEnd index last ids = if front = [] then last else index + front.length := by
  induction ids generalizing index last with
  | nil => exact ⟨[], [], [], rfl, ⟨by simp, by simp, by simp, by simp⟩, rfl⟩
  | cons id ids ih =>
      rw [prologueEnd_cons]
      -- a comment belongs to the front only if a statement that is passed stands behind it
      by_cases hcomment : t.kind id = .comment
      · obtain ⟨front, comments, back, rfl, hd, hend⟩ := ih (index + 1) last
        rw [if_pos hcomment, hend]
        cases front with
        | nil =>
            refine ⟨[], id :: comments, back, rfl, ⟨hd.passed, hd.last, ?_, hd.stops⟩, rfl⟩
            intro c hc
            rcases List.mem_cons.mp hc with rfl | hc
            · exact hcomment
            · exact hd.comments c hc
        | cons c front =>
            have hpassed : t.isPassed id = true := by simp [isPassed, hcomment]
            refine ⟨id :: c :: front, comments, back, rfl,
              ⟨List.forall_mem_cons.mpr ⟨hpassed, hd.passed⟩, ?_, hd.comments, hd.stops⟩, ?_⟩
            · rw [List.getLast?_cons_cons]
              exact hd.last
            · simp only [List.cons_ne_nil, if_false, List.length_cons]
              omega
      · rw [if_neg hcomment]
        by_cases hpassed : t.isPassed id = true
        · obtain ⟨front, comments, back, rfl, hd, hend⟩ := ih (index + 1) (index + 1)
          rw [if_pos hpassed, hend]
          refine ⟨id :: front, comments, back, rfl,
            ⟨List.forall_mem_cons.mpr ⟨hpassed, hd.passed⟩, ?_, hd.comments, hd.stops⟩, ?_⟩
          · cases front with
            | nil => simpa using hcomment
            | cons c front =>
                rw [List.getLast?_cons_cons]
                exact hd.last
          · cases front with
            | nil => rfl
            | cons c front =>
                simp only [List.cons_ne_nil, if_false, List.length_cons]
                omega
        · rw [if_neg hpassed]
          exact ⟨[], [], id :: ids, rfl, ⟨by simp, by simp, by simp, by simpa using hpassed⟩, rfl⟩

/-- Where directives are respected, an import goes behind the last statement that it must stand
behind. -/
theorem importPlace_spec (t : SyntaxTree) :
    ∃ front comments back, t.children root = front ++ (comments ++ back)
      ∧ t.Divides front comments back ∧ t.importPlace true = front.length := by
  obtain ⟨front, comments, back, hroot, hd, hend⟩ := t.prologueEnd_spec 0 0 (t.children root)
  refine ⟨front, comments, back, hroot, hd, ?_⟩
  rw [importPlace, if_pos rfl, hend]
  cases front with
  | nil => rfl
  | cons c front => simp

/-! ### What an import leaves of the prologue -/

namespace Grafted

variable {row : List Node} {l r r' : List Slot} {gap : String}

/-- The statements of a module are directives as before. -/
lemma isStringStatement_old (hg : Grafted t t' row root l r r' gap) (h : t.Document) {id : NodeId}
    (hid : id ∈ t.children root) : t'.isStringStatement id = t.isStringStatement id := by
  have hchildren := hg.children_old (h.lt_of_mem hid) (h.ne_root_of_mem hid)
  have hkind : ∀ c ∈ t.children id, t'.kind c = t.kind c := fun c hc => hg.kind_old (h.lt_of_mem hc)
  have hfilter : ((t'.children id).filter fun c => t'.kind c != .token && t'.kind c != .comment)
      = (t.children id).filter fun c => t.kind c != .token && t.kind c != .comment := by
    rw [hchildren]
    exact List.filter_congr fun c hc => by rw [hkind c hc]
  rw [isStringStatement, isStringStatement, hfilter, hg.kind_old (h.lt_of_mem hid)]
  congr 1
  split
  · next literal heq =>
      have hmem : literal ∈ t.children id :=
        (List.mem_filter.mp (heq ▸ List.mem_singleton_self literal)).1
      rw [hkind literal hmem]
  · rfl

lemma opens_old (hg : Grafted t t' row root l r r' gap) (h : t.Document) {id : NodeId}
    (hid : id ∈ t.children root) : t'.opens id = t.opens id := by
  rw [opens, opens, hg.kind_old (h.lt_of_mem hid), hg.isStringStatement_old h hid]

end Grafted

/-- The last of a list is the last of those that pass, if it passes. -/
lemma getLast?_filter {α : Type} {test : α → Bool} {l : List α}
    (h : ∀ x, l.getLast? = some x → test x = true) : (l.filter test).getLast? = l.getLast? := by
  cases hl : l.getLast? with
  | none =>
      rw [List.getLast?_eq_none_iff] at hl
      rw [hl]
      rfl
  | some x =>
      obtain ⟨init, rfl⟩ := List.getLast?_eq_some_iff.mp hl
      rw [List.filter_append, List.filter_cons_of_pos (h x hl), List.filter_nil,
        List.getLast?_concat]

namespace Divides

variable {front comments back : List NodeId}

lemma opens_front (hd : t.Divides front comments back) : ∀ c ∈ front, t.opens c = true := by
  intro c hc
  have hpassed := hd.passed c hc
  rw [isPassed_eq, Bool.and_eq_true] at hpassed
  exact hpassed.1

/-- The statements that are passed stand in the opening, and the next one does if it is a directive
with a comment in it. -/
lemma opening_eq (hd : t.Divides front comments back)
    (hroot : t.children root = front ++ (comments ++ back)) :
    ∃ rest, t.opening = front ++ (comments ++ rest)
      ∧ ∀ c, rest.head? = some c → t.isStringStatement c = true ∧ t.holdsComment c = true := by
  refine ⟨back.takeWhile t.opens, ?_, ?_⟩
  · rw [opening, hroot, List.takeWhile_append_of_pos hd.opens_front,
      List.takeWhile_append_of_pos fun c hc => by simp [opens, hd.comments c hc]]
  · intro c hc
    cases back with
    | nil => cases hc
    | cons b back =>
        rw [List.takeWhile_cons] at hc
        split at hc
        · next hopens =>
            rw [List.head?_cons, Option.some.injEq] at hc
            subst hc
            have hstops := hd.stops b rfl
            rw [isPassed_eq, hopens, Bool.true_and, Bool.not_eq_false', Bool.and_eq_true] at hstops
            exact hstops
        · cases hc

/-- The directives that are passed are those before the first one with a comment in it. -/
lemma filter_front (hd : t.Divides front comments back)
    (hroot : t.children root = front ++ (comments ++ back)) :
    front.filter t.isStringStatement = t.prologue.takeWhile fun d => !t.holdsComment d := by
  obtain ⟨rest, hopening, hrest⟩ := hd.opening_eq hroot
  have hcomments : comments.filter t.isStringStatement = [] := by
    refine List.filter_eq_nil_iff.mpr fun c hc hs => ?_
    have hk := kind_of_isStringStatement hs
    rw [hd.comments c hc] at hk
    cases hk
  have hquiet : ∀ d ∈ front.filter t.isStringStatement, (!t.holdsComment d) = true := by
    intro d hmem
    obtain ⟨hfront, hs⟩ := List.mem_filter.mp hmem
    have hpassed := hd.passed d hfront
    rw [isPassed_eq, hs, Bool.true_and, Bool.and_eq_true] at hpassed
    exact hpassed.2
  -- The first directive behind the place holds a comment, so nothing is taken there.
  have hstop : (rest.filter t.isStringStatement).takeWhile (fun d => !t.holdsComment d) = [] := by
    cases rest with
    | nil => rfl
    | cons c rest =>
        obtain ⟨hs, hc⟩ := hrest c rfl
        rw [List.filter_cons_of_pos hs, List.takeWhile_cons_of_neg (by simp [hc])]
  rw [prologue, hopening, List.filter_append, List.filter_append, hcomments, List.nil_append,
    List.takeWhile_append_of_pos hquiet, hstop, List.append_nil]

/-- If no directive has a comment in it, all that an import must stand behind is passed. -/
lemma getLast?_front (hd : t.Divides front comments back)
    (hroot : t.children root = front ++ (comments ++ back))
    (hquiet : ∀ d ∈ t.prologue, t.holdsComment d = false) :
    front.getLast? = (t.opening.filter fun c => t.kind c != .comment).getLast? := by
  obtain ⟨rest, hopening, hrest⟩ := hd.opening_eq hroot
  have hnil : rest = [] := by
    cases rest with
    | nil => rfl
    | cons c rest =>
        obtain ⟨hs, hc⟩ := hrest c rfl
        have hmem : c ∈ t.prologue := List.mem_filter.mpr ⟨by rw [hopening]; simp, hs⟩
        rw [hquiet c hmem] at hc
        cases hc
  have hcomments : (comments.filter fun c => t.kind c != .comment) = [] :=
    List.filter_eq_nil_iff.mpr fun c hc => by simp [hd.comments c hc]
  rw [hopening, hnil, List.append_nil, List.filter_append, hcomments, List.append_nil]
  exact (getLast?_filter fun c hc => by simp [hd.last c hc]).symm

end Divides

/-- Where directives are respected, a new import goes behind those that the module begins with, up
to the first one with a comment in it. So all of them stay what the module begins with exactly if
none has a comment in it, and then the import stands directly behind the last of them and the
hash-bang line. -/
theorem Reachable.prologue_requireImport {source : List Char} {tree : Syntax.Cst}
    (h : Reachable source tree t) {settings : TransformSettings}
    (hrespect : settings.actualRespectDirectives = true) {result : ImportResult}
    (hadd : t.requireImport settings = (result, t')) :
    (result = .alreadyPresent ∧ t' = t)
      ∨ (result = .inserted ∧ ∃ front back, t.children root = front ++ back
        ∧ t'.children root = front ++ t.size :: back ∧ t'.kind t.size = .importStatement
        ∧ (∀ c ∈ t.children root, t'.text c = t.text c)
        ∧ t'.prologue = (t.prologue.takeWhile fun d => !t.holdsComment d)
        ∧ (t'.prologue = t.prologue ↔ ∀ d ∈ t.prologue, t.holdsComment d = false)
        ∧ ((∀ d ∈ t.prologue, t.holdsComment d = false) →
          front.getLast? = (t.opening.filter fun c => t.kind c != .comment).getLast?)) := by
  have hdoc := h.document
  rcases requireImport_place hdoc settings with ⟨heq, -⟩ | ⟨hout, r', gap, hs, hg⟩
  · rw [hadd, Prod.mk.injEq] at heq
    exact .inl heq
  rw [hadd] at hout hg
  refine .inr ⟨hout, ?_⟩
  obtain ⟨front, comments, back, hroot, hd, hplace⟩ := t.importPlace_spec
  rw [hrespect, hplace] at hs hg
  have hl : ((t.node root).slots.take front.length).map Slot.child = front := by
    rw [List.map_take]
    exact (congrArg (List.take front.length) hroot).trans List.take_left
  have hr : ((t.node root).slots.drop front.length).map Slot.child = comments ++ back := by
    rw [List.map_drop]
    exact (congrArg (List.drop front.length) hroot).trans List.drop_left
  obtain ⟨-, hroot'⟩ := hg.children_place hdoc.root_lt hs.map_child
  rw [hl, hr] at hroot'
  have hkind : t'.kind t.size = .importStatement := by
    rw [kind, hg.node_top]
    rfl
  have hmem : ∀ c ∈ front, c ∈ t.children root := fun c hc => hroot ▸ List.mem_append_left _ hc
  -- The import opens nothing, so the opening ends with what is in front of it.
  have hopening' : t'.opening = front := by
    have hnew : t'.opens t.size = false := by
      rw [opens, isStringStatement, hkind]
      rfl
    rw [opening, hroot', List.takeWhile_append_of_pos, List.takeWhile_cons_of_neg (by simp [hnew]),
      List.append_nil]
    intro c hc
    rw [hg.opens_old hdoc (hmem c hc)]
    exact hd.opens_front c hc
  have hprologue' : t'.prologue = t.prologue.takeWhile fun d => !t.holdsComment d := by
    rw [prologue, hopening', ← hd.filter_front hroot]
    exact List.filter_congr fun c hc => hg.isStringStatement_old hdoc (hmem c hc)
  refine ⟨front, comments ++ back, hroot, hroot', hkind, fun c hc => ?_, hprologue', ?_,
    hd.getLast?_front hroot⟩
  · exact hg.onlyAt.text_child hdoc.toWellFormed hg.wellFormed hc
  · rw [hprologue', List.takeWhile_eq_self_iff]
    simp

/-- The concrete tree of a module that begins with a hash-bang line, a comment and a directive. -/
def directedModule : Syntax.Cst :=
  .node (.named .program) none 0 14
    [.node (.named .hashBang) none 0 3 [], .node (.named .comment) none 4 8 [],
      .node (.named .expressionStatement) none 8 12
        [.node (.named .string) none 8 11
          [.node (.token "'") none 8 9 [], .node (.named .stringFragment) none 9 10 [],
            .node (.token "'") none 10 11 []],
          .node (.token ";") none 11 12 []],
      .node (.named .expressionStatement) none 13 14 [.node (.named .identifier) none 13 14 []]]

/-- An import goes behind the directive, on its line, and the statement that stood there moves to
the next one. -/
theorem prologue_requireImport_directedModule :
    let t := ofConcrete "#!x\n/**/'a'; b".toList directedModule
    let t' := (t.requireImport {}).2
    TransformSettings.actualRespectDirectives {} = true
      ∧ t.requireImport {} = (.inserted, t') ∧ t.prologue = [3]
      ∧ t'.render = "#!x\n/**/'a'; import \x7b motion \x7d from \"framer-motion\";\nb"
      ∧ ∃ front back, t.children root = front ++ back
        ∧ t'.children root = front ++ t.size :: back ∧ t'.kind t.size = .importStatement
        ∧ (∀ c ∈ t.children root, t'.text c = t.text c)
        ∧ t'.prologue = (t.prologue.takeWhile fun d => !t.holdsComment d)
        ∧ (t'.prologue = t.prologue ↔ ∀ d ∈ t.prologue, t.holdsComment d = false)
        ∧ ((∀ d ∈ t.prologue, t.holdsComment d = false) →
          front.getLast? = (t.opening.filter fun c => t.kind c != .comment).getLast?) := by
  intro t t'
  have hread : Reachable _ directedModule t := .read
  have hinserted : (t.requireImport {}).1 = .inserted := by decide +kernel
  have hadd : t.requireImport {} = (.inserted, t') := hinserted ▸ (Prod.eta _).symm
  have hrespect : TransformSettings.actualRespectDirectives {} = true := by decide
  refine ⟨hrespect, hadd, by decide +kernel, by decide +kernel, ?_⟩
  rcases hread.prologue_requireImport hrespect hadd with ⟨habsurd, -⟩ | ⟨-, hplaced⟩
  · cases habsurd
  · exact hplaced

/-- The concrete tree of a module that begins with a directive with a comment in it. -/
def commentedDirective : Syntax.Cst :=
  .node (.named .program) none 0 9
    [.node (.named .expressionStatement) none 0 8
        [.node (.named .string) none 0 3
          [.node (.token "'") none 0 1 [], .node (.named .stringFragment) none 1 2 [],
            .node (.token "'") none 2 3 []],
          .node (.named .comment) none 3 7 [], .node (.token ";") none 7 8 []],
      .node (.named .expressionStatement) none 8 9 [.node (.named .identifier) none 8 9 []]]

/-- An import goes in front of a directive with a comment in it, and the module begins with no
directive any more. -/
theorem prologue_lost_commentedDirective :
    let t := ofConcrete "'a'/**/;b".toList commentedDirective
    let r := t.requireImport {}
    TransformSettings.actualRespectDirectives {} = true ∧ r.1 = .inserted
      ∧ t.children root = [1, 8] ∧ r.2.children root = [10, 1, 8] ∧ t.isStringStatement 1 = true
      ∧ t.prologue = [1] ∧ r.2.prologue = []
      ∧ r.2.render = "import \x7b motion \x7d from \"framer-motion\";\n'a'/**/;b" := by
  decide +kernel

end Restyle.SyntaxTree
