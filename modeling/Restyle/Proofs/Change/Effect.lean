import Restyle.Change.Apply
import Restyle.Change.ImportStatement
import Restyle.Proofs.Tree.Planting

/-!
What the changes of a module do to the nodes of its tree.

* `Document`: a well-formed tree whose root is the module and holds no text of its own;
* `insertAttribute_cases`, `requireImport_cases`, `wrapElement_cases`, `addClass_cases`,
  `changeValue_cases`: what a change does, with the nodes that it makes, and when it does nothing;
* `Document.requireImport`, `Document.applyAt`: every change, at whatever point, leads from one
  document to another.
-/

namespace Restyle.SyntaxTree

/-- A well-formed tree of a module. -/
structure Document (t : SyntaxTree) : Prop extends WellFormed t where
  kind_root : t.kind root = .program
  literal_root : (t.node root).literal = none

variable {t t' : SyntaxTree}

/-! ### Planted rows -/

lemma row_zero_lt {row : List Node} {n : Node} (h : row[0]? = some n) :
    t.size < (t.plant row).size := by
  rw [size_plant]
  exact Nat.lt_add_of_pos_right (List.getElem?_eq_some_iff.mp h).1

lemma node_plant_size {row : List Node} {n : Node} (h : row[0]? = some n) :
    (t.plant row).node t.size = n :=
  node_plant_getElem? (i := 0) h

/-- No old node lies under a planted one. -/
lemma not_under_plant (hl : t.Linked) {row : List Node} {x y : NodeId} (hx : x < t.size)
    (hy : t.size ≤ y) : ¬ (t.plant row).Under y x := by
  intro h
  induction h with
  | refl => exact absurd hx (Nat.not_lt.mpr hy)
  | step hp _ ih =>
      rw [parent, node_plant_of_lt hx] at hp
      exact ih (hl.parent_lt hp)

/-- What a tree is after a planted row was put below `p`, between the slots `l` and `r`, where the
slots behind it are then `r'`. -/
structure Grafted (t t' : SyntaxTree) (row : List Node) (p : NodeId) (l r r' : List Slot)
    (gap : String) : Prop where
  slots_eq : (t.node p).slots = l ++ r
  size_eq : t'.size = t.size + row.length
  node_old : ∀ x < t.size, t'.node x
    = { (if x = p then { t.node x with slots := l ++ ⟨gap, t.size⟩ :: r' } else t.node x) with
        changed := (t'.node x).changed }
  node_top : t'.node t.size
    = { row.headD default with parent := some p, changed := (t'.node t.size).changed }
  node_row : ∀ i, i ≠ 0 → t'.node (t.size + i)
    = { row.getD i default with changed := (t'.node (t.size + i)).changed }
  wellFormed : t'.WellFormed

/-- A row that is planted can be put below an old node. -/
theorem WellFormed.grafted (h : t.WellFormed) {n : Node} {row : List Node}
    (hr : StandsAlone t.size (n :: row)) (hn : n.parent = none) {p : NodeId} (hps : p < t.size)
    (hlit : (t.node p).literal = none) (i : Nat) (gap : String) :
    Grafted t ((t.plant (n :: row)).insertAt p i t.size gap) (n :: row) p
      ((t.node p).slots.take i) ((t.node p).slots.drop i) ((t.node p).slots.drop i) gap := by
  have htop : (t.plant (n :: row)).node t.size = n := node_plant_size rfl
  have hsize : (t.plant (n :: row)).size = t.size + (row.length + 1) := size_plant t _
  have hlt : t.size < (t.plant (n :: row)).size := row_zero_lt rfl
  have hpu : p < (t.plant (n :: row)).size := hps.trans hlt
  have hnode := node_insertAt hpu hlt (Nat.ne_of_gt hps) i gap
  -- Old nodes first, then the top of the row, which alone gets a parent, then the rest of it.
  refine ⟨(List.take_append_drop i _).symm, by rw [size_insertAt, hsize]; rfl, fun x hx => ?_, ?_,
    fun i hi => ?_, ?_⟩
  · refine (hnode x).trans ?_
    rw [node_plant_of_lt hx, if_neg (Nat.ne_of_lt hx)]
    split
    · next hx => rw [hx]
    · rfl
  · refine (hnode t.size).trans ?_
    rw [if_neg (Nat.ne_of_gt hps), if_pos rfl, htop]
    rfl
  · have hlt : t.size < t.size + i := Nat.lt_add_of_pos_right (Nat.pos_of_ne_zero hi)
    rw [hnode, if_neg (hps.trans hlt).ne', if_neg hlt.ne', node_plant_add]
  · refine (h.plant hr).insertAt hpu hlt h.size_pos.ne' ?_
      (not_under_plant h.toLinked hps le_rfl) ?_ i gap
    · rw [parent, htop, hn]
    · rw [node_plant_of_lt hps, hlit]

/-- The layout behind a grafted row can be changed. -/
lemma Grafted.changeGap {row : List Node} {p : NodeId} {l r rest : List Slot} {slot : Slot}
    {gap : String} (h : Grafted t t' row p l r (slot :: rest) gap) (hp : p < t.size)
    (gap' : String) :
    Grafted t (t'.changeGap p (l.length + 1) gap') row p l r (⟨gap', slot.child⟩ :: rest) gap := by
  have hnode := node_changeGap t' p (l.length + 1) gap'
  have hslots : (t'.node p).slots = l ++ ⟨gap, t.size⟩ :: slot :: rest := by
    rw [h.node_old p hp, if_pos rfl]
  have hmodify : (t'.node p).slots.modify (l.length + 1) (fun slot => { slot with gap := gap' })
      = l ++ ⟨gap, t.size⟩ :: ⟨gap', slot.child⟩ :: rest := by
    rw [hslots]
    exact modify_append_right _ l _ 1
  refine ⟨h.slots_eq, by rw [size_changeGap, h.size_eq], fun x hx => ?_, ?_, fun i hi => ?_,
    h.wellFormed.changeGap p _ gap'⟩
  · rw [hnode]
    by_cases hxp : x = p
    · subst hxp
      rw [if_pos rfl, if_pos rfl, hmodify, h.node_old x hx, if_pos rfl]
    · rw [if_neg hxp, if_neg hxp, h.node_old x hx, if_neg hxp]
  · rw [hnode, if_neg (Nat.ne_of_gt hp), h.node_top]
  · have hlt : t.size < t.size + i := Nat.lt_add_of_pos_right (Nat.pos_of_ne_zero hi)
    rw [hnode, if_neg (hp.trans hlt).ne', h.node_row i hi]

/-! ### New attributes -/

/-- A node with children has no text of its own. -/
lemma literal_of_mem (hl : t.Linked) {p c : NodeId} (hc : c ∈ t.children p) :
    (t.node p).literal = none := by
  cases h : (t.node p).literal with
  | none => rfl
  | some s =>
      rw [children, Node.children, hl.slots_of_literal h] at hc
      cases hc

/-- The index found splits the list at the first element that passes the test. -/
lemma exists_of_findIdx?_map {α β : Type} {f : α → β} {test : β → Bool} {l : List α} {i : Nat}
    (h : (l.map f).findIdx? test = some i) :
    ∃ front x back, l = front ++ x :: back ∧ front.length = i ∧ test (f x) = true
      ∧ ∀ y ∈ front, test (f y) = false := by
  induction l generalizing i with
  | nil => cases h
  | cons a l ih =>
      rw [List.map_cons, List.findIdx?_cons] at h
      split at h
      · next ha =>
          cases h
          exact ⟨[], a, l, rfl, rfl, ha, fun y hy => nomatch hy⟩
      · next ha =>
          obtain ⟨k, hk, rfl⟩ := Option.map_eq_some_iff.mp h
          obtain ⟨front, x, back, rfl, rfl, hx, hfront⟩ := ih hk
          refine ⟨a :: front, x, back, rfl, rfl, hx, fun y hy => ?_⟩
          rcases List.mem_cons.mp hy with rfl | hy
          · exact Bool.not_eq_true _ ▸ ha
          · exact hfront y hy

/-- The token that ends the attributes stands behind the first name, and is the first such token
there. -/
lemma exists_of_attributesEnd? {tag : NodeId} {i : Nat} (h : t.attributesEnd? tag = some i) :
    ∃ front name between stop back,
      (t.node tag).slots = (front ++ name :: between) ++ stop :: back
      ∧ (front ++ name :: between).length = i
      ∧ (∀ s ∈ front, t.role s.child ≠ some .name) ∧ t.role name.child = some .name
      ∧ (∀ s ∈ between, t.endsAttributes s.child = false)
      ∧ t.endsAttributes stop.child = true := by
  rw [attributesEnd?] at h
  split at h
  · cases h
  · next hname =>
      -- First the name is looked for, then the closing token among the slots behind it.
      obtain ⟨front, name, rest, hslots, rfl, hrole, hfront⟩ := exists_of_findIdx?_map hname
      obtain ⟨k, hk, rfl⟩ := Option.map_eq_some_iff.mp h
      have hrest : (t.children tag).drop (front.length + 1) = rest.map Slot.child := by
        rw [children, Node.children, hslots, ← List.map_drop, List.drop_length_add_append]
        rfl
      rw [hrest] at hk
      obtain ⟨between, stop, back, rfl, rfl, hstop, hbetween⟩ := exists_of_findIdx?_map hk
      refine ⟨front, name, between, stop, back, ?_, ?_, fun s hs => ?_, of_decide_eq_true hrole,
        hbetween, hstop⟩
      · rw [hslots, List.append_assoc, List.cons_append]
      · rw [List.length_append, List.length_cons]
        omega
      · exact of_decide_eq_false (hfront s hs)

/-- An attribute is put in front of the token that ends the attributes, or nothing changes. -/
theorem insertAttribute_cases (h : t.WellFormed) (tag : NodeId) (a : Assignment) :
    (t.attributesEnd? tag = none ∧ t.insertAttribute tag a = (.notApplicable, t))
      ∨ ∃ i, t.attributesEnd? tag = some i ∧ (t.insertAttribute tag a).1 = .applied
        ∧ Grafted t (t.insertAttribute tag a).2 (attributeRow t.size a.name a.value) tag
          ((t.node tag).slots.take i) ((t.node tag).slots.drop i) ((t.node tag).slots.drop i)
          (t.attributeGap tag) := by
  rw [insertAttribute]
  cases hend : t.attributesEnd? tag with
  | none => exact .inl ⟨rfl, rfl⟩
  | some i =>
      refine .inr ⟨i, rfl, rfl, ?_⟩
      obtain ⟨front, name, between, stop, back, hslots, -⟩ := exists_of_attributesEnd? hend
      have hmem : stop.child ∈ t.children tag :=
        mem_children_iff.mpr ⟨stop.gap, by rw [hslots]; simp⟩
      simp only [newAttribute_eq]
      exact h.grafted (standsAlone_attributeRow t.size a.name a.value) rfl (lt_size_of_mem hmem)
        (literal_of_mem h.toLinked hmem) i _

/-! ### New imports -/

/-- Where the layout of a grafted statement comes from: it takes that of the statement it stands in
front of, which moves to the next line, or it goes behind all others. -/
def Seam (l r r' : List Slot) (gap : String) : Prop :=
  (∃ slot rest, r = slot :: rest ∧ gap = slot.gap ∧ r' = ⟨"\n", slot.child⟩ :: rest)
    ∨ (r = [] ∧ r' = [] ∧ gap = if l.isEmpty then "" else "\n")

/-- A statement is put at an index of the module, or behind all others. -/
lemma Document.insertStatement_spec (h : t.Document) {n : Node} {row : List Node}
    (hr : StandsAlone t.size (n :: row)) (hn : n.parent = none) (i : Nat) :
    ∃ r' gap, Seam ((t.node root).slots.take i) ((t.node root).slots.drop i) r' gap
      ∧ Grafted t ((t.plant (n :: row)).insertStatement i t.size) (n :: row) root
        ((t.node root).slots.take i) ((t.node root).slots.drop i) r' gap := by
  have hgraft := h.grafted hr hn h.root_lt h.literal_root i
  have hroot : (t.plant (n :: row)).node root = t.node root := node_plant_of_lt h.root_lt
  rw [insertStatement, gap?, hroot, children, hroot, Node.gaps, List.getElem?_map]
  rcases Nat.lt_or_ge i (t.node root).slots.length with hi | hi
  · rw [List.getElem?_eq_getElem hi, Option.map_some]
    have hg := hgraft (t.node root).slots[i].gap
    rw [List.drop_eq_getElem_cons hi] at hg ⊢
    have hlen : ((t.node root).slots.take i).length = i := List.length_take_of_le hi.le
    have hgap := hg.changeGap h.root_lt "\n"
    rw [hlen] at hgap
    exact ⟨_, _, .inl ⟨_, _, rfl, rfl, rfl⟩, hgap⟩
  · rw [List.getElem?_eq_none hi, Option.map_none]
    have hg := hgraft (if (t.node root).children.isEmpty then "" else "\n")
    rw [List.drop_eq_nil_of_le hi, List.take_of_length_le hi] at hg ⊢
    refine ⟨_, _, .inr ⟨rfl, rfl, ?_⟩, hg⟩
    rw [Node.children, List.isEmpty_map]

/-- An import is put at its place among the statements of the module, or is there. -/
theorem requireImport_place (h : t.Document) (settings : TransformSettings) :
    (t.requireImport settings = (.alreadyPresent, t)
        ∧ (t.importOf? settings.actualAnimationLibrary).isSome = true)
      ∨ (t.requireImport settings).1 = .inserted
        ∧ ∃ r' gap, Seam
          ((t.node root).slots.take (t.importPlace settings.actualRespectDirectives))
          ((t.node root).slots.drop (t.importPlace settings.actualRespectDirectives)) r' gap
          ∧ Grafted t (t.requireImport settings).2
            (importRow t.size settings.actualMotionBinding settings.actualAnimationLibrary) root
            ((t.node root).slots.take (t.importPlace settings.actualRespectDirectives))
            ((t.node root).slots.drop (t.importPlace settings.actualRespectDirectives)) r' gap := by
  rw [requireImport]
  dsimp only
  split
  · next hthere => exact .inl ⟨rfl, hthere⟩
  · refine .inr ⟨rfl, ?_⟩
    simp only [newImport_eq]
    exact h.insertStatement_spec (standsAlone_importRow t.size settings.actualMotionBinding
      settings.actualAnimationLibrary) rfl _

/-- An import is put among the statements of the module, or is there. -/
theorem requireImport_cases (h : t.Document) (settings : TransformSettings) :
    (t.requireImport settings = (.alreadyPresent, t)
        ∧ (t.importOf? settings.actualAnimationLibrary).isSome = true)
      ∨ (t.requireImport settings).1 = .inserted ∧ ∃ l r r' gap, Seam l r r' gap
        ∧ Grafted t (t.requireImport settings).2
          (importRow t.size settings.actualMotionBinding settings.actualAnimationLibrary) root
          l r r' gap :=
  (requireImport_place h settings).imp_right fun ⟨hout, r', gap, hs, hg⟩ =>
    ⟨hout, _, _, r', gap, hs, hg⟩

/-! ### Wrappers -/

/-- What a tree is after a new element named `name` was put around `e`, a child of `p`. -/
structure Wrapped (t t' : SyntaxTree) (name : String) (e p : NodeId) (l r : List Slot)
    (gap : String) : Prop where
  parent_eq : t.parent e = some p
  slots_eq : (t.node p).slots = l ++ ⟨gap, e⟩ :: r
  size_eq : t'.size = t.size + 9
  node_old : ∀ x < t.size, t'.node x
    = { (if x = e then { t.node x with parent := some t.size, role := none }
          else if x = p then { t.node x with slots := l ++ ⟨gap, t.size⟩ :: r }
          else t.node x) with changed := (t'.node x).changed }
  node_outer : t'.node t.size
    = { Node.made .element with
        role := t.role e
        slots := [⟨"", t.size + 1⟩, ⟨"", e⟩, ⟨"", t.size + 5⟩]
        parent := some p
        changed := (t'.node t.size).changed }
  node_row : ∀ i, i ≠ 0 → t'.node (t.size + i)
    = { (elementRow t.size name).getD i default with
        changed := (t'.node (t.size + i)).changed }
  wellFormed : t'.WellFormed

lemma elementRow_zero (b : NodeId) (name : String) :
    (elementRow b name)[0]? = some { Node.made .element with
      slots := [⟨"", b + 1⟩, ⟨"", b + 5⟩] } := rfl

lemma size_plant_elementRow (t : SyntaxTree) (name : String) :
    (t.plant (elementRow t.size name)).size = t.size + 9 :=
  size_plant t _

section Wrapping

variable {name : String} {e p : NodeId} {l r : List Slot} {gap : String} {u : SyntaxTree}
  (hu : Exchanged (t.plant (elementRow t.size name)) u p e t.size l r gap)

include hu

/-- Once a new element stands in the place of `e`, this one stands alone, and nothing else
changed. -/
lemma Exchanged.node_before {x : NodeId} (hx : x < t.size) : u.node x
    = { (if x = e then { t.node x with parent := none, role := none }
          else if x = p then { t.node x with slots := l ++ ⟨gap, t.size⟩ :: r }
          else t.node x) with changed := (u.node x).changed } := by
  rw [hu.node_eq, node_plant_of_lt hx, if_neg (Nat.ne_of_lt hx)]

variable (he : e < t.size)

include he

lemma Exchanged.parent_before : t.parent e = some p := by
  have := hu.parent_old
  rwa [parent, node_plant_of_lt he] at this

/-- After the exchange the wrapper has the role and the parent of the element. -/
lemma Exchanged.node_outer : u.node t.size
    = { Node.made .element with
        role := t.role e
        slots := [⟨"", t.size + 1⟩, ⟨"", t.size + 5⟩]
        parent := some p
        changed := (u.node t.size).changed } := by
  rw [hu.node_eq, if_neg he.ne', if_pos rfl, node_plant_size (elementRow_zero t.size name), role,
    node_plant_of_lt he]
  rfl

/-- The exchange leaves the rest of the wrapper's row as it was planted. -/
lemma Exchanged.node_behind (hp : p < t.size) {i : Nat} (hi : i ≠ 0) : u.node (t.size + i)
    = { (elementRow t.size name).getD i default with
        changed := (u.node (t.size + i)).changed } := by
  have hlt : t.size < t.size + i := Nat.lt_add_of_pos_right (Nat.pos_of_ne_zero hi)
  rw [hu.node_eq, if_neg (he.trans hlt).ne', if_neg hlt.ne', if_neg (hp.trans hlt).ne',
    node_plant_add]

/-- What lies under `e` was there before. -/
lemma Exchanged.under_before (h : t.Linked) {x : NodeId} (hx : u.Under e x) (hlt : x < t.size) :
    t.Under e x := by
  have halone : u.parent e = none := by rw [parent, hu.node_before he, if_pos rfl]
  induction hx with
  | refl => exact .refl
  | @step d q hq _ ih =>
      have hde : d ≠ e := fun heq => by
        rw [heq, halone] at hq
        cases hq
      have hq' : t.parent d = some q := by
        rw [parent, hu.node_before hlt, if_neg hde] at hq
        split at hq <;> exact hq
      exact .step hq' (ih (h.parent_lt hq'))

/-- The new element does not lie under `e`. -/
lemma Exchanged.outer_not_under (h : t.Linked) : ¬ u.Under e t.size := fun hunder => by
  have hpe := hu.parent_before he
  cases hunder with
  | refl => exact Nat.lt_irrefl _ he
  | step hq hunder =>
      rw [parent, hu.node_outer he] at hq
      cases hq
      exact Under.not_parent h hpe (hu.under_before he h hunder (h.parent_lt hpe))

/-- Putting `e` below the new element completes the wrapper. -/
theorem WellFormed.wrapped (h : t.WellFormed) :
    Wrapped t (u.insertAt t.size 1 e "") name e p l r gap := by
  have hpe := hu.parent_before he
  have hp : p < t.size := h.parent_lt hpe
  have hsize := hu.size_eq.trans (size_plant_elementRow t name)
  have hus : t.size < u.size := by
    rw [hsize]
    exact Nat.lt_add_of_pos_right (by decide)
  have heu : e < u.size := he.trans hus
  -- The exchange is done; what is left is to put the element between the two tags.
  have hnode := node_insertAt hus heu (Nat.ne_of_lt he) 1 ""
  refine ⟨hpe, ?_, ?_, fun x hx => ?_, ?_, fun i hi => ?_, ?_⟩
  · have := hu.slots_eq
    rwa [node_plant_of_lt hp] at this
  · rw [size_insertAt, hsize]
  · rw [hnode, if_neg (Nat.ne_of_lt hx), hu.node_before hx]
    split
    · rfl
    · rfl
  · rw [hnode, if_pos rfl, hu.node_outer he]
    rfl
  · have hlt : t.size < t.size + i := Nat.lt_add_of_pos_right (Nat.pos_of_ne_zero hi)
    rw [hnode, if_neg hlt.ne', hu.node_behind he hp hi, if_neg (he.trans hlt).ne']
  · refine hu.wellFormed.insertAt hus heu ?_ ?_ (hu.outer_not_under he h.toLinked) ?_ 1 ""
    · rintro rfl
      rw [h.parent_root] at hpe
      cases hpe
    · rw [parent, hu.node_before he, if_pos rfl]
    · rw [hu.node_outer he]
      rfl

end Wrapping

/-- Why no wrapper of that name is put around the element of a tag: it is no name, the element has
it or is inside such a wrapper, or the element stands alone, or it has no place below its parent. In
the last case the new element stays behind, where nothing leads to it. -/
inductive Unwrapped (t : SyntaxTree) (tag : Tag) (name : String) : Outcome × SyntaxTree → Prop where
  | nameless : isDottedName name = false → Unwrapped t tag name (.invalidValue, t)
  | present : tag.name = name ∨ t.isInside tag.element name = true →
      Unwrapped t tag name (.alreadyPresent, t)
  | alone : t.parent tag.element = none → Unwrapped t tag name (.notApplicable, t)
  | placeless {p : NodeId} : t.parent tag.element = some p →
      (t.plant (elementRow t.size name)).substitute? tag.element t.size = none →
      Unwrapped t tag name (.notApplicable, t.plant (elementRow t.size name))

lemma Unwrapped.outcome_ne {tag : Tag} {name : String} {r : Outcome × SyntaxTree}
    (h : Unwrapped t tag name r) : r.1 ≠ .applied := by
  cases h <;> simp

/-- A wrapper is put around an element, or there is a reason why not. -/
theorem wrapElement_cases (h : t.WellFormed) (tag : Tag) (wrapper : String) :
    Unwrapped t tag (Text.trim wrapper) (t.wrapElement tag wrapper)
      ∨ (t.wrapElement tag wrapper).1 = .applied
        ∧ isDottedName (Text.trim wrapper) = true
        ∧ tag.name ≠ Text.trim wrapper ∧ t.isInside tag.element (Text.trim wrapper) = false
        ∧ ∃ p l r gap,
          Wrapped t (t.wrapElement tag wrapper).2 (Text.trim wrapper) tag.element p l r gap := by
  rw [wrapElement]
  dsimp only
  split
  -- The guards in the order they are asked, and behind them the exchange.
  · next hname => exact .inl (.nameless (by simpa using hname))
  · next hname =>
      split
      · next hthere => exact .inl (.present (by simpa using hthere))
      · next hthere =>
          cases hp : t.parent tag.element with
          | none => exact .inl (.alone hp)
          | some p =>
              rw [Option.isNone_some, if_neg Bool.false_ne_true, newElement_eq]
              dsimp only
              split
              · next hnone => exact .inl (.placeless hp hnone)
              · next u hu =>
                  have he := lt_size_of_parent hp
                  have hrow := elementRow_zero t.size (Text.trim wrapper)
                  obtain ⟨p, l, r, gap, hx⟩ :=
                    (h.plant (standsAlone_elementRow t.size (Text.trim wrapper))).exchanged
                      (row_zero_lt hrow) h.size_pos.ne' (by rw [parent, node_plant_size hrow]; rfl)
                      (fun {p} hp => by
                        rw [parent, node_plant_of_lt he] at hp
                        exact not_under_plant h.toLinked (h.parent_lt hp) le_rfl) hu
                  rw [Bool.or_eq_true, not_or, decide_eq_true_eq, Bool.not_eq_true] at hthere
                  exact .inr ⟨rfl, by simpa using hname, hthere.1, hthere.2, p, l, r, gap,
                    h.wrapped hx he⟩

/-! ### Values of attributes -/

/-- The literal of an attribute is a string below it. -/
lemma stringValue?_spec {a literal : NodeId} {q : Char} {v : String}
    (h : t.stringValue? a = some (literal, q, v)) :
    literal ∈ t.children a ∧ t.childIn? a .value = some literal
      ∧ t.kind literal = .stringLiteral ∧ quotationOf? (t.text literal) = some (q, v) := by
  rw [stringValue?] at h
  split at h
  · cases h
  · next id hid =>
      rw [Option.map_eq_some_iff] at h
      obtain ⟨⟨q', v'⟩, hquote, heq⟩ := h
      cases heq
      rw [quotation?] at hquote
      split at hquote
      · next hkind =>
          exact ⟨List.mem_of_find?_eq_some hid, hid, hkind, hquote⟩
      · cases hquote

/-- A literal is overwritten, or nothing changes. -/
theorem addClass_cases (t : SyntaxTree) (a : NodeId) (value : String) :
    ((t.addClass a value).1 ≠ .applied ∧ (t.addClass a value).2 = t)
      ∨ ∃ literal q v, t.stringValue? a = some (literal, q, v)
        ∧ ClassList.isValid (ClassList.ofValue value) = true
        ∧ ClassList.missing (ClassList.ofValue value) v ≠ []
        ∧ t.addClass a value = (.applied, t.overwrite literal (quoted q
            (ClassList.append v (ClassList.missing (ClassList.ofValue value) v)))) := by
  rw [addClass]
  split
  · exact .inl ⟨by simp, rfl⟩
  · next hvalid =>
      split
      · exact .inl ⟨by simp, rfl⟩
      · next literal q v hv =>
          split
          · exact .inl ⟨by simp, rfl⟩
          · next hlack =>
              exact .inr ⟨literal, q, v, hv, by simpa using hvalid, fun h => hlack h, rfl⟩

/-- A literal is overwritten, or nothing changes. -/
theorem changeValue_cases (t : SyntaxTree) (a : NodeId) (value : String) :
    ((t.changeValue a value).1 ≠ .applied ∧ (t.changeValue a value).2 = t)
      ∨ ∃ literal q v, t.stringValue? a = some (literal, q, v) ∧ v ≠ value
        ∧ t.changeValue a value = (.applied, t.overwrite literal
            (quoted (if value.toList.contains q then '"' else q) value)) := by
  rw [changeValue]
  split
  · exact .inl ⟨by simp, rfl⟩
  · next literal q v hv =>
      split
      · exact .inl ⟨by simp, rfl⟩
      · next hne => exact .inr ⟨literal, q, v, hv, hne, rfl⟩

/-! ### Documents stay documents -/

namespace Document

lemma ne_root_of_mem (h : t.Document) {p c : NodeId} (hc : c ∈ t.children p) : c ≠ root := by
  rintro rfl
  have := h.parent_of_mem hc
  rw [h.parent_root] at this
  cases this

/-- Rewriting the text of a child keeps a document. -/
lemma overwrite (h : t.Document) {p id : NodeId} (hid : id ∈ t.children p) (s : String) :
    (t.overwrite id s).Document where
  toWellFormed := h.toWellFormed.overwrite (h.lt_of_mem hid) s
  kind_root := by
    rw [kind, node_overwrite_of_ne (h.ne_root_of_mem hid).symm]
    exact h.kind_root
  literal_root := by
    rw [node_overwrite_of_ne (h.ne_root_of_mem hid).symm]
    exact h.literal_root

/-- Grafting a row keeps a document. -/
lemma grafted (h : t.Document) {row : List Node} {p : NodeId} {l r r' : List Slot} {gap : String}
    (hg : Grafted t t' row p l r r' gap) : t'.Document where
  toWellFormed := hg.wellFormed
  kind_root := by
    rw [kind, hg.node_old root h.root_lt]
    split <;> exact h.kind_root
  literal_root := by
    rw [hg.node_old root h.root_lt]
    split <;> exact h.literal_root

/-- Wrapping an element keeps a document. -/
lemma wrapped (h : t.Document) {name : String} {e p : NodeId} {l r : List Slot} {gap : String}
    (hw : Wrapped t t' name e p l r gap) : t'.Document where
  toWellFormed := hw.wellFormed
  kind_root := by
    rw [kind, hw.node_old root h.root_lt]
    split
    · exact h.kind_root
    · split <;> exact h.kind_root
  literal_root := by
    rw [hw.node_old root h.root_lt]
    split
    · exact h.literal_root
    · split <;> exact h.literal_root

/-- Planting a row that stands alone keeps a document. -/
lemma plant (h : t.Document) {row : List Node} (hr : StandsAlone t.size row) :
    (t.plant row).Document where
  toWellFormed := h.toWellFormed.plant hr
  kind_root := by
    rw [kind, node_plant_of_lt h.root_lt]
    exact h.kind_root
  literal_root := by
    rw [node_plant_of_lt h.root_lt]
    exact h.literal_root

/-- Requiring the import keeps a document. -/
theorem requireImport (h : t.Document) (settings : TransformSettings) :
    (t.requireImport settings).2.Document := by
  rcases requireImport_cases h settings with ⟨heq, -⟩ | ⟨-, l, r, r', gap, -, hg⟩
  · rw [heq]
    exact h
  · exact h.grafted hg

/-- Adding classes keeps a document. -/
theorem addClass (h : t.Document) (a : NodeId) (value : String) :
    (t.addClass a value).2.Document := by
  rcases t.addClass_cases a value with ⟨-, heq⟩ | ⟨literal, q, v, hv, -, -, heq⟩
  · rw [heq]
    exact h
  · rw [heq]
    exact h.overwrite (stringValue?_spec hv).1 _

/-- Setting a property keeps a document. -/
theorem addProp (h : t.Document) (tag : NodeId) (value : String) (synthesize : Bool) :
    (t.addProp tag value synthesize).2.Document := by
  rw [SyntaxTree.addProp]
  split
  · exact h
  · next a _ =>
      split
      · next id _ =>
          rcases t.changeValue_cases id a.value with ⟨-, heq⟩ | ⟨literal, q, v, hv, -, heq⟩
          · rw [heq]
            exact h
          · rw [heq]
            exact h.overwrite (stringValue?_spec hv).1 _
      · split
        · rcases insertAttribute_cases h.toWellFormed tag a with ⟨-, heq⟩ | ⟨i, -, -, hg⟩
          · rw [heq]
            exact h
          · exact h.grafted hg
        · exact h

/-- Wrapping keeps a document, also when it stops before the exchange. -/
theorem wrapElement (h : t.Document) (tag : Tag) (wrapper : String) :
    (t.wrapElement tag wrapper).2.Document := by
  rcases wrapElement_cases h.toWellFormed tag wrapper with hun | ⟨-, -, -, -, p, l, r, gap, hw⟩
  · generalize t.wrapElement tag wrapper = r at hun
    cases hun with
    | nameless _ => exact h
    | present _ => exact h
    | alone _ => exact h
    | placeless _ _ => exact h.plant (standsAlone_elementRow _ _)
  · exact h.wrapped hw

/-- A modification, applied at whatever point, leaves a document. -/
theorem applyAt (h : t.Document) (settings : TransformSettings) (m : Modification)
    (point : Point) : (t.applyAt settings m point).2.Document := by
  unfold SyntaxTree.applyAt
  split
  · exact h
  · exact h.addClass _ _
  · exact h
  · exact h.addProp _ _ _
  · exact h.addProp _ _ _
  · exact h.wrapElement _ _
  · exact h.wrapElement _ _

end Document

end Restyle.SyntaxTree
