import Mathlib.Tactic
import Restyle.Syntax.Module

/-!
Walks over the nodes of a concrete tree, and the errors that they find.

* `Visits`: visits to the nodes of a list, in order, until one of them says to stop;
* `Cursor.visits_walkFrom`: a walk visits the nodes that are ahead of its cursor;
* `Told`: what is told of a node that is at fault;
* `Cst.walk_preorder`: a walk visits all nodes of a tree, each before those below it, so that errors
  are counted, and the first of them is told, in this order.
-/

namespace Restyle.Syntax

/-! ### Visits -/

section Visits

variable {σ : Type} {visit : σ → Cst → σ × Bool} {s s' : σ} {nodes : List Cst}

/-- Visits to the nodes of a list, one after the other, lead from a state to another. They end with
the list, or before that with the visit that says so. -/
inductive Visits (visit : σ → Cst → σ × Bool) : σ → List Cst → σ → Prop
  | done {s : σ} : Visits visit s [] s
  | stop {s s' : σ} {node : Cst} {rest : List Cst} (hvisit : visit s node = (s', false)) :
      Visits visit s (node :: rest) s'
  | goOn {s s' s'' : σ} {node : Cst} {rest : List Cst} (hvisit : visit s node = (s', true))
      (hrest : Visits visit s' rest s'') : Visits visit s (node :: rest) s''

/-- A visit stops at the first node or goes on to the rest. -/
lemma visits_cons_iff {node : Cst} {rest : List Cst} :
    Visits visit s (node :: rest) s'
      ↔ visit s node = (s', false) ∨ ∃ s₁, visit s node = (s₁, true) ∧ Visits visit s₁ rest s' := by
  constructor
  · rintro (_ | hvisit | ⟨hvisit, hrest⟩)
    · exact .inl hvisit
    · exact .inr ⟨_, hvisit, hrest⟩
  · rintro (hvisit | ⟨_, hvisit, hrest⟩)
    · exact .stop hvisit
    · exact .goOn hvisit hrest

/-- The nodes and the first state decide where visits lead. -/
lemma Visits.unique {s₁ s₂ : σ} (h₁ : Visits visit s nodes s₁) (h₂ : Visits visit s nodes s₂) :
    s₁ = s₂ := by
  induction h₁ with
  | done =>
    cases h₂
    rfl
  | stop hvisit =>
    rw [visits_cons_iff, hvisit] at h₂
    simpa using h₂
  | goOn hvisit _ ih =>
    rw [visits_cons_iff, hvisit] at h₂
    exact ih (by simpa using h₂)

/-- A walk visits the nodes ahead of its cursor. -/
lemma Cursor.visits_walkFrom (visit : σ → Cst → σ × Bool) (s : σ) (c : Cursor) :
    Visits visit s c.ahead (walkFrom visit s c) := by
  fun_induction walkFrom visit s c with
  | case1 s c s' hvisit =>
    rw [ahead_eq c]
    exact .stop hvisit
  | case2 s c s' hvisit next hnext ih =>
    rw [ahead_eq c, hnext]
    exact .goOn hvisit ih
  | case3 s c s' hvisit hnext =>
    rw [ahead_eq c, hnext]
    exact .goOn hvisit .done

lemma Cst.visits_walk (t : Cst) (visit : σ → Cst → σ × Bool) (s : σ) :
    Visits visit s t.preorder (t.walk visit s) := by
  rw [← Cursor.ahead_ofTree]
  exact Cursor.visits_walkFrom visit s (.ofTree t)

/-- Visits that count nodes and never stop count them all. -/
lemma Visits.eq_countP {isCounted : Cst → Bool} {n m : Nat}
    (h : Visits (fun n node => (if isCounted node then n + 1 else n, true)) n nodes m) :
    m = n + nodes.countP isCounted := by
  induction h with
  | done => rfl
  | stop hvisit => cases hvisit
  | goOn hvisit _ ih =>
    cases hvisit
    rw [ih, List.countP_cons]
    split <;> omega

/-- Visits that stop at a node of some kind find the first one. -/
lemma Visits.eq_find? {isSought : Cst → Bool} {found : Option Cst}
    (h : Visits (fun _ node => if isSought node then (some node, false) else (none, true)) none
      nodes found) : found = nodes.find? isSought := by
  induction nodes with
  | nil =>
    cases h
    rfl
  | cons node rest ih =>
    rw [visits_cons_iff] at h
    cases hsought : isSought node with
    | true =>
      rw [List.find?_cons_of_pos hsought]
      have hfound : some node = found := by simpa [hsought] using h
      exact hfound.symm
    | false =>
      rw [List.find?_cons_of_neg (Bool.eq_false_iff.mp hsought)]
      exact ih (by simpa [hsought] using h)

end Visits

/-! ### Faults -/

section Faults

variable {text : List Char} {t node : Cst} {e : ParseError}

/-- What is told of a node that is at fault: which token is missing, or how the text begins that the
grammar does not admit. -/
inductive Told (text : List Char) (node : Cst) : ParseError → Prop
  | missing {spelling : String} (hlabel : node.label = .missing spelling) :
      Told text node
        (.syntaxError (Position.ofOffset text node.start) ("missing `" ++ spelling ++ "`"))
  | unexpected (hlabel : node.label = .named .error) :
      Told text node
        (.syntaxError (Position.ofOffset text node.start)
          ("unexpected `"
            ++ Text.trim (String.ofList
              (((text.drop node.start).take (node.stop - node.start)).take 24))
            ++ "`"))

/-- The error told about a node is the one of its fault. -/
lemma told_iff : Told text node e ↔ node.isFault = true ∧ node.parseError text = e := by
  rw [Cst.isFault, Cst.isError, Cst.isMissing, Cst.parseError]
  constructor
  · rintro (hlabel | hlabel)
    all_goals
      rw [hlabel]
      exact ⟨rfl, rfl⟩
  · rintro ⟨hfault, rfl⟩
    cases hlabel : node.label with
    | missing spelling => exact .missing hlabel
    | token spelling =>
      rw [hlabel] at hfault
      cases hfault
    | named construct =>
      rw [hlabel, Bool.or_false, beq_iff_eq] at hfault
      exact .unexpected (hlabel.trans hfault)

lemma Cst.countFaults_eq (t : Cst) : t.countFaults = t.preorder.countP isFault := by
  rw [countFaults, (t.visits_walk _ 0).eq_countP, Nat.zero_add]

lemma Cst.firstFault?_eq (t : Cst) : t.firstFault? = t.preorder.find? isFault :=
  (t.visits_walk _ none).eq_find?

/-- The error of a tree is that of the first node that is at fault. -/
lemma Cst.firstFault?_told :
    t.firstFault?.map (parseError text) = some e
      ↔ ∃ before node behind, t.preorder = before ++ node :: behind
        ∧ (∀ other ∈ before, other.isFault = false) ∧ Told text node e := by
  rw [firstFault?_eq, Option.map_eq_some_iff]
  simp only [List.find?_eq_some_iff_append, told_iff, Bool.not_eq_true']
  constructor
  · rintro ⟨node, ⟨hfault, before, behind, hnodes, hbefore⟩, htold⟩
    exact ⟨before, node, behind, hnodes, hbefore, hfault, htold⟩
  · rintro ⟨before, node, behind, hnodes, hbefore, hfault, htold⟩
    exact ⟨node, ⟨hfault, before, behind, hnodes, hbefore⟩, htold⟩

end Faults

/-- A walk visits the nodes of a tree, each before those below it and these before the nodes behind
it, until it is told to stop. So the nodes that are at fault are counted, and the first of them in
this order is told, if there are any. -/
theorem Cst.walk_preorder (t : Cst) (text : List Char) :
    (∀ {σ : Type} (visit : σ → Cst → σ × Bool) (s s' : σ),
        t.walk visit s = s' ↔ Visits visit s t.preorder s')
      ∧ t.countFaults = t.preorder.countP isFault
      ∧ (∀ e, t.firstFault?.map (parseError text) = some e
        ↔ ∃ before node behind, t.preorder = before ++ node :: behind
          ∧ (∀ other ∈ before, other.isFault = false) ∧ Told text node e)
      ∧ (t.firstFault?.map (parseError text) = none ↔ t.countFaults = 0) := by
  refine ⟨fun visit s s' => ⟨?_, (t.visits_walk visit s).unique⟩, t.countFaults_eq,
    fun e => firstFault?_told, ?_⟩
  · rintro rfl
    exact t.visits_walk visit s
  · rw [Option.map_eq_none_iff, firstFault?_eq, List.find?_eq_none,
      countFaults_eq, List.countP_eq_zero]

end Restyle.Syntax
