import Restyle.Proofs.Tree.Marking

/-!
The edits of a tree, one by one: what every node is after it (`node_overwrite`, `node_insertAt`,
`node_changeGap`, `node_exchanged`), and that it keeps the tree well formed.
-/

namespace Restyle.SyntaxTree

variable {t t' : SyntaxTree}

/-! ### Rows with one entry modified -/

section Modify

variable {α : Type} (f : α → α)

lemma modify_append_left (l r : List α) {i : Nat} (hi : i < l.length) :
    (l ++ r).modify i f = l.modify i f ++ r := by
  rw [List.modify_eq_take_cons_drop hi,
    List.modify_eq_take_cons_drop (List.length_append ▸ Nat.lt_add_right _ hi),
    List.take_append_of_le_length hi.le, List.drop_append_of_le_length hi,
    List.getElem_append_left hi]
  simp

lemma modify_append_right (l r : List α) (i : Nat) :
    (l ++ r).modify (l.length + i) f = l ++ r.modify i f := by
  induction l with
  | nil => rw [List.length_nil, Nat.zero_add, List.nil_append, List.nil_append]
  | cons a l ih =>
      rw [List.cons_append, List.length_cons, Nat.add_right_comm, List.modify_succ_cons, ih,
        List.cons_append]

end Modify

/-! ### Overwriting a node -/

@[simp] lemma size_overwrite (t : SyntaxTree) (id : NodeId) (s : String) :
    (t.overwrite id s).size = t.size := by
  rw [overwrite, size_markChanged, size_update]

lemma node_overwrite {id : NodeId} (hid : id < t.size) (s : String) (x : NodeId) :
    (t.overwrite id s).node x
      = { (if x = id then { t.node x with literal := some s, slots := [], ending := "" }
            else t.node x) with
          changed := ((t.overwrite id s).node x).changed } := by
  rw [overwrite, node_markChanged, node_update_of_lt t hid]

lemma node_overwrite_of_ne {id x : NodeId} (hx : x ≠ id) (s : String) :
    (t.overwrite id s).node x
      = { t.node x with changed := ((t.overwrite id s).node x).changed } := by
  rw [overwrite, node_markChanged, node_update_of_ne t hx]

/-- Writing a text over a node keeps the tree well formed. -/
theorem WellFormed.overwrite (h : t.WellFormed) {id : NodeId} (hid : id < t.size) (s : String) :
    (t.overwrite id s).WellFormed := by
  set u := t.update id fun n => { n with literal := some s, slots := [], ending := "" } with hu
  have hnode : ∀ x, u.node x = if x = id then
      { t.node x with literal := some s, slots := [], ending := "" } else t.node x :=
    node_update_of_lt t hid _
  have hchildren : ∀ x, x ≠ id → u.children x = t.children x := fun x hx => by
    rw [children, hnode, if_neg hx, children]
  have hself : u.children id = [] := by rw [children, hnode, if_pos rfl]; rfl
  have hlu : u.Linked := by
    refine h.cut (size_update t id _) hself hchildren (fun x => ?_) fun {x s} hs => ?_
    · rw [parent, hnode]
      split <;> rfl
    · rw [hnode] at hs ⊢
      split at hs
      · next hx => rw [if_pos hx]
      · next hx => rw [if_neg hx]; exact h.slots_of_literal hs
  -- Only the mark is left to set, and that is what `of_edit_markChanged` is for.
  have hmarks : ∀ x, (u.node x).changed = (t.node x).changed := fun x => by
    rw [hnode]
    split <;> rfl
  refine h.of_edit_markChanged hid hlu (size_update t id _) (fun x => ?_) hmarks (fun x hx => ?_)
    (fun x hx => ?_) fun x hx => ?_
  · rw [hnode]
    split <;> rfl
  all_goals rw [hnode, if_neg hx]

/-! ### Inserting a child -/

/-- The updates that put `c` below `p`: at the child and in the row of slots. -/
def insertedAt (t : SyntaxTree) (p : NodeId) (i : Nat) (c : NodeId) (gap : String) : SyntaxTree :=
  (t.update c fun n => { n with parent := some p }).update p fun n =>
    { n with slots := n.slots.take i ++ ⟨gap, c⟩ :: n.slots.drop i }

lemma insertAt_eq (t : SyntaxTree) (p : NodeId) (i : Nat) (c : NodeId) (gap : String) :
    t.insertAt p i c gap = (t.insertedAt p i c gap).markChanged p := rfl

lemma size_insertedAt (t : SyntaxTree) (p : NodeId) (i : Nat) (c : NodeId) (gap : String) :
    (t.insertedAt p i c gap).size = t.size := by
  rw [insertedAt, size_update, size_update]

@[simp] lemma size_insertAt (t : SyntaxTree) (p i c : NodeId) (gap : String) :
    (t.insertAt p i c gap).size = t.size := by
  rw [insertAt_eq, size_markChanged, size_insertedAt]

section Insert

variable {p c : NodeId}

lemma node_insertedAt (hp : p < t.size) (hc : c < t.size) (hne : c ≠ p) (i : Nat) (gap : String)
    (x : NodeId) :
    (t.insertedAt p i c gap).node x
      = if x = p then { t.node x with
            slots := (t.node x).slots.take i ++ ⟨gap, c⟩ :: (t.node x).slots.drop i }
        else if x = c then { t.node x with parent := some p } else t.node x := by
  rw [insertedAt, node_update_of_lt _ (by rwa [size_update]), node_update_of_lt t hc]
  by_cases hxp : x = p
  · rw [if_pos hxp, if_pos hxp, if_neg fun h => hne (h.symm.trans hxp)]
  · rw [if_neg hxp, if_neg hxp]

lemma node_insertAt (hp : p < t.size) (hc : c < t.size) (hne : c ≠ p) (i : Nat) (gap : String)
    (x : NodeId) :
    (t.insertAt p i c gap).node x
      = { (if x = p then { t.node x with
              slots := (t.node x).slots.take i ++ ⟨gap, c⟩ :: (t.node x).slots.drop i }
            else if x = c then { t.node x with parent := some p } else t.node x) with
          changed := ((t.insertAt p i c gap).node x).changed } := by
  rw [insertAt_eq, node_markChanged, node_insertedAt hp hc hne]

/-- The fields that none of the updates touches. -/
lemma fields_insertedAt (t : SyntaxTree) (p : NodeId) (i : Nat) (c : NodeId) (gap : String)
    (x : NodeId) :
    ((t.insertedAt p i c gap).node x).literal = (t.node x).literal
      ∧ ((t.insertedAt p i c gap).node x).ending = (t.node x).ending
      ∧ ((t.insertedAt p i c gap).node x).asRead = (t.node x).asRead
      ∧ ((t.insertedAt p i c gap).node x).changed = (t.node x).changed := by
  rw [insertedAt, node_update, node_update]
  split <;> split <;> exact ⟨rfl, rfl, rfl, rfl⟩

lemma slots_insertedAt (t : SyntaxTree) {p x : NodeId} (hx : x ≠ p) (i : Nat) (c : NodeId)
    (gap : String) : ((t.insertedAt p i c gap).node x).slots = (t.node x).slots := by
  rw [insertedAt, node_update_of_ne _ hx, node_update]
  split <;> rfl

/-- Putting a node that stands alone below another one keeps the links in order. -/
lemma WellFormed.linked_insertedAt (h : t.WellFormed) (hp : p < t.size) (hc : c < t.size)
    (hroot : c ≠ root) (hpc : t.parent c = none) (hunder : ¬ t.Under c p)
    (hlit : (t.node p).literal = none) (i : Nat) (gap : String) :
    (t.insertedAt p i c gap).Linked := by
  have hne : c ≠ p := fun h => hunder (h ▸ .refl)
  have hnode := node_insertedAt hp hc hne i gap
  refine h.attach (size_insertedAt t p i c gap) hp hpc hroot hunder ?_ (fun x hx => ?_) ?_
    (fun x hx => ?_) fun {x s} hs => ?_
  · rw [children, hnode, if_pos rfl, Node.children, List.map_append, List.map_cons]
    refine List.perm_middle.trans (List.Perm.cons _ ?_)
    rw [← List.map_append, List.take_append_drop]
    rfl
  · rw [children, Node.children, slots_insertedAt t hx]
    rfl
  · rw [parent, hnode, if_neg hne, if_pos rfl]
  · rw [parent, hnode, if_neg hx]
    split <;> rfl
  · -- what has a text of its own is not the node below which `c` was put
    rw [(fields_insertedAt t p i c gap x).1] at hs
    have hxp : x ≠ p := by
      rintro rfl
      rw [hlit] at hs
      cases hs
    rw [slots_insertedAt t hxp]
    exact h.slots_of_literal hs

/-- Putting a node without a parent below one that it is not above keeps the tree well formed. -/
theorem WellFormed.insertAt (h : t.WellFormed) (hp : p < t.size) (hc : c < t.size)
    (hroot : c ≠ root) (hpc : t.parent c = none) (hunder : ¬ t.Under c p)
    (hlit : (t.node p).literal = none) (i : Nat) (gap : String) :
    (t.insertAt p i c gap).WellFormed := by
  have hfields := fields_insertedAt t p i c gap
  exact h.of_edit_markChanged hp (h.linked_insertedAt hp hc hroot hpc hunder hlit i gap)
    (size_insertedAt t p i c gap) (fun x => (hfields x).2.2.1) (fun x => (hfields x).2.2.2)
    (fun x hx => slots_insertedAt t hx i c gap) (fun x _ => (hfields x).1)
    fun x _ => (hfields x).2.1

end Insert

/-! ### Changing layout -/

@[simp] lemma size_changeGap (t : SyntaxTree) (p : NodeId) (i : Nat) (gap : String) :
    (t.changeGap p i gap).size = t.size := by
  rw [changeGap]
  split
  · rw [size_markChanged, size_update]
  · rfl

lemma node_changeGap (t : SyntaxTree) (p : NodeId) (i : Nat) (gap : String) (x : NodeId) :
    (t.changeGap p i gap).node x
      = { (if x = p then { t.node x with
              slots := (t.node x).slots.modify i fun slot => { slot with gap := gap } }
            else t.node x) with
          changed := ((t.changeGap p i gap).node x).changed } := by
  rw [changeGap]
  split
  · next hi =>
      have hp := lt_size_of_lt_length hi
      rw [node_markChanged, node_update_of_lt t hp]
  · next hi =>
      split
      · next hx =>
          subst hx
          rw [List.modify_eq_self (Nat.not_lt.mp hi)]
      · rfl

lemma map_child_modify_gap (slots : List Slot) (i : Nat) (gap : String) :
    (slots.modify i fun slot => { slot with gap := gap }).map Slot.child
      = slots.map Slot.child := by
  induction slots generalizing i with
  | nil => rw [List.modify_nil]
  | cons slot slots ih =>
      cases i with
      | zero => rfl
      | succ i => rw [List.modify_succ_cons, List.map_cons, ih, List.map_cons]

/-- Writing another gap keeps the tree well formed. -/
theorem WellFormed.changeGap (h : t.WellFormed) (p : NodeId) (i : Nat) (gap : String) :
    (t.changeGap p i gap).WellFormed := by
  rw [SyntaxTree.changeGap]
  split
  · next hi =>
      have hp := lt_size_of_lt_length hi
      set u := t.update p fun n =>
        { n with slots := n.slots.modify i fun slot => { slot with gap := gap } } with hu
      have hnode : ∀ x, u.node x = if x = p then { t.node x with
          slots := (t.node x).slots.modify i fun slot => { slot with gap := gap } }
          else t.node x := node_update_of_lt t hp _
      have hlu : u.Linked := by
        refine h.toLinked.congr (size_update t p _) (fun x => ?_) (fun x => ?_) fun {x s} hs => ?_
        · rw [children, children, Node.children, Node.children, hnode]
          split
          · exact map_child_modify_gap _ i gap
          · rfl
        · rw [parent, hnode]
          split <;> rfl
        · rw [hnode] at hs ⊢
          split at hs
          · next hx =>
              rw [if_pos hx]
              dsimp only at hs ⊢
              -- A node with a text of its own has no slots to change.
              rw [h.slots_of_literal hs, List.modify_nil]
          · next hx =>
              rw [if_neg hx]
              exact h.slots_of_literal hs
      refine h.of_edit_markChanged hp hlu (size_update t p _) (fun x => ?_) (fun x => ?_)
        (fun x hx => ?_) (fun x hx => ?_) fun x hx => ?_
      · rw [hnode]
        split <;> rfl
      · rw [hnode]
        split <;> rfl
      all_goals rw [hnode, if_neg hx]
  · exact h

/-! ### Exchanging a child -/

/-- A node stands where its place says. -/
lemma exists_slots_of_place? {id p : NodeId} {i : Nat} (hp : t.parent id = some p)
    (hi : t.place? id = some i) :
    ∃ l gap r, (t.node p).slots = l ++ ⟨gap, id⟩ :: r ∧ l.length = i := by
  rw [place?, hp, Option.bind_some, List.findIdx?_eq_some_iff_getElem] at hi
  obtain ⟨hlt, heq, -⟩ := hi
  have hlt' : i < (t.node p).slots.length := by
    rwa [children, Node.children, List.length_map] at hlt
  refine ⟨(t.node p).slots.take i, (t.node p).slots[i].gap, (t.node p).slots.drop (i + 1), ?_,
    List.length_take_of_le hlt'.le⟩
  have hchild : (t.node p).slots[i].child = id := by
    simpa [children, Node.children] using heq
  have hslot : (⟨(t.node p).slots[i].gap, id⟩ : Slot) = (t.node p).slots[i] := by rw [← hchild]
  rw [hslot, List.getElem_cons_drop, List.take_append_drop]

/-- A child has a place. -/
lemma exists_place? {id p : NodeId} (hp : t.parent id = some p) (h : id ∈ t.children p) :
    ∃ i, t.place? id = some i := by
  rw [← Option.isSome_iff_exists, place?, hp, Option.bind_some, List.findIdx?_isSome]
  exact List.any_eq_true.mpr ⟨id, h, decide_eq_true rfl⟩

/-- What `substitute?` answers: the new child has the place, the layout and the role of the old one,
which stands alone. -/
structure Exchanged (t t' : SyntaxTree) (p old new : NodeId) (l r : List Slot) (gap : String) :
    Prop where
  parent_old : t.parent old = some p
  slots_eq : (t.node p).slots = l ++ ⟨gap, old⟩ :: r
  size_eq : t'.size = t.size
  node_eq : ∀ x, t'.node x
    = { (if x = old then { t.node x with parent := none, role := none }
          else if x = new then { t.node x with parent := some p, role := t.role old }
          else if x = p then { t.node x with slots := l ++ ⟨gap, new⟩ :: r }
          else t.node x) with changed := (t'.node x).changed }
  wellFormed : t'.WellFormed

/-- The updates that put `new` in the place of `old`: in the slot, at the new child and at the old
one. -/
def exchangeAt (t : SyntaxTree) (p : NodeId) (i : Nat) (old new : NodeId) : SyntaxTree :=
  ((t.update p fun n =>
      { n with slots := n.slots.modify i fun slot => { slot with child := new } }).update new
    fun n => { n with parent := some p, role := t.role old }).update old
      fun n => { n with parent := none, role := none }

lemma size_exchangeAt (t : SyntaxTree) (p : NodeId) (i : Nat) (old new : NodeId) :
    (t.exchangeAt p i old new).size = t.size := by
  rw [exchangeAt, size_update, size_update, size_update]

/-- The fields that none of the updates touches. -/
lemma fields_exchangeAt (t : SyntaxTree) (p : NodeId) (i : Nat) (old new x : NodeId) :
    ((t.exchangeAt p i old new).node x).literal = (t.node x).literal
      ∧ ((t.exchangeAt p i old new).node x).ending = (t.node x).ending
      ∧ ((t.exchangeAt p i old new).node x).asRead = (t.node x).asRead
      ∧ ((t.exchangeAt p i old new).node x).changed = (t.node x).changed := by
  rw [exchangeAt, node_update, node_update, node_update]
  split <;> split <;> split <;> exact ⟨rfl, rfl, rfl, rfl⟩

lemma slots_exchangeAt (t : SyntaxTree) {p x : NodeId} (hx : x ≠ p) (i : Nat) (old new : NodeId) :
    ((t.exchangeAt p i old new).node x).slots = (t.node x).slots := by
  rw [exchangeAt, node_update, node_update, node_update, if_neg fun h : x = p ∧ _ => hx h.1]
  split <;> split <;> rfl

lemma exists_of_substitute? {old new : NodeId} (ht' : t.substitute? old new = some t') :
    ∃ p i, t.parent old = some p ∧ t.place? old = some i
      ∧ (t.exchangeAt p i old new).markChanged p = t' := by
  rw [substitute?] at ht'
  split at ht'
  · next p i hp hi => exact ⟨p, i, hp, hi, Option.some.inj ht'⟩
  · cases ht'

section Exchange

variable {p old new : NodeId} {l r : List Slot} {gap : String}

lemma node_exchangeAt (hslots : (t.node p).slots = l ++ ⟨gap, old⟩ :: r) (hp : p < t.size)
    (hold : old < t.size) (hnew : new < t.size) (hop : p ≠ old) (hnp : p ≠ new) (hne : new ≠ old)
    (x : NodeId) :
    (t.exchangeAt p l.length old new).node x
      = if x = old then { t.node x with parent := none, role := none }
        else if x = new then { t.node x with parent := some p, role := t.role old }
        else if x = p then { t.node x with slots := l ++ ⟨gap, new⟩ :: r } else t.node x := by
  have hmodify : (t.node p).slots.modify l.length (fun slot => { slot with child := new })
      = l ++ ⟨gap, new⟩ :: r := by
    rw [hslots]
    exact modify_append_right _ l _ 0
  rw [exchangeAt, node_update, node_update, node_update]
  simp only [size_update]
  -- Three updates at three different nodes, so each node is met by at most one of them.
  by_cases hxo : x = old
  · subst hxo
    rw [if_pos ⟨rfl, hold⟩, if_neg fun h => hne h.1.symm, if_neg fun h => hop h.1.symm, if_pos rfl]
  · rw [if_neg fun h => hxo h.1, if_neg hxo]
    by_cases hxn : x = new
    · subst hxn
      rw [if_pos ⟨rfl, hnew⟩, if_neg fun h => hnp h.1.symm, if_pos rfl]
    · rw [if_neg fun h => hxn h.1, if_neg hxn]
      by_cases hxp : x = p
      · subst hxp
        rw [if_pos ⟨rfl, hp⟩, if_pos rfl, hmodify]
      · rw [if_neg fun h => hxp h.1, if_neg hxp]

/-- A child that is listed once is renamed where it is exchanged. -/
lemma map_child_exchange (hnodup : ((l ++ ⟨gap, old⟩ :: r).map Slot.child).Nodup) :
    (l ++ ⟨gap, new⟩ :: r).map Slot.child
      = ((l ++ ⟨gap, old⟩ :: r).map Slot.child).map fun c => if c = old then new else c := by
  rw [List.map_append, List.map_cons, List.nodup_middle, List.nodup_cons] at hnodup
  have hother : ∀ slots : List Slot, (∀ slot ∈ slots, slot ∈ l ++ r) →
      (slots.map Slot.child).map (fun c => if c = old then new else c) = slots.map Slot.child := by
    intro slots hmem
    rw [List.map_map]
    refine List.map_congr_left fun slot hslot => if_neg fun heq => hnodup.1 ?_
    rw [← List.map_append]
    exact List.mem_map.mpr ⟨slot, hmem slot hslot, heq⟩
  simp only [List.map_append, List.map_cons, if_pos]
  rw [hother l fun slot => List.mem_append_left r, hother r fun slot => List.mem_append_right l]

/-- Exchanging a child for a node that stands alone keeps the links in order. -/
lemma WellFormed.linked_exchangeAt (h : t.WellFormed) (hp : t.parent old = some p)
    (hslots : (t.node p).slots = l ++ ⟨gap, old⟩ :: r) (hpn : t.parent new = none)
    (hroot : new ≠ root) (hunder : ¬ t.Under new p)
    (hnode : ∀ x, (t.exchangeAt p l.length old new).node x
      = if x = old then { t.node x with parent := none, role := none }
        else if x = new then { t.node x with parent := some p, role := t.role old }
        else if x = p then { t.node x with slots := l ++ ⟨gap, new⟩ :: r } else t.node x) :
    (t.exchangeAt p l.length old new).Linked := by
  have hmem : old ∈ t.children p := mem_children_iff.mpr ⟨gap, by rw [hslots]; simp⟩
  have hne : new ≠ old := fun he => by
    rw [he, hp] at hpn
    cases hpn
  have hnp : p ≠ new := fun he => hunder (he ▸ .refl)
  have hop : p ≠ old := (Under.parent_ne h.toLinked hp).symm
  refine h.toLinked.exchange (size_exchangeAt t p _ old new) hmem hpn hroot hunder ?_
    (fun x hx => ?_) ?_ ?_ (fun x hxo hxn => ?_) fun {x s} hs => ?_
  · have hnodup := h.nodup p
    rw [children, Node.children, hslots] at hnodup
    rw [children, children, Node.children, Node.children, hnode, if_neg hop, if_neg hnp, if_pos rfl,
      hslots]
    exact map_child_exchange hnodup
  · rw [children, Node.children, slots_exchangeAt t hx]
    rfl
  · rw [parent, hnode, if_neg hne, if_pos rfl]
  · rw [parent, hnode, if_pos rfl]
  · rw [parent, hnode, if_neg hxo, if_neg hxn]
    split <;> rfl
  · rw [(fields_exchangeAt t p l.length old new x).1] at hs
    have hempty := h.slots_of_literal hs
    -- The parent has a slot, so it has no text of its own.
    have hxp : x ≠ p := fun hx => by
      rw [hx, hslots] at hempty
      exact List.append_ne_nil_of_right_ne_nil _ (List.cons_ne_nil _ _) hempty
    rw [slots_exchangeAt t hxp, hempty]

end Exchange

/-- A substitution puts the new node into the slot of the old one, and the tree stays well formed.
-/
theorem WellFormed.exchanged (h : t.WellFormed) {old new : NodeId} (hnew : new < t.size)
    (hroot : new ≠ root) (hpn : t.parent new = none)
    (hunder : ∀ {p}, t.parent old = some p → ¬ t.Under new p)
    (ht' : t.substitute? old new = some t') :
    ∃ p l r gap, Exchanged t t' p old new l r gap := by
  obtain ⟨p, i, hp, hi, rfl⟩ := exists_of_substitute? ht'
  obtain ⟨l, gap, r, hslots, rfl⟩ := exists_slots_of_place? hp hi
  have hmem : old ∈ t.children p := mem_children_iff.mpr ⟨gap, by rw [hslots]; simp⟩
  have hne : new ≠ old := fun he => by
    rw [he, hp] at hpn
    cases hpn
  have hps : p < t.size := h.parent_lt hp
  have hnode := node_exchangeAt hslots hps (h.lt_of_mem hmem) hnew
    (Under.parent_ne h.toLinked hp).symm (fun he => hunder hp (he ▸ .refl)) hne
  have hlinked := h.linked_exchangeAt hp hslots hpn hroot (hunder hp) hnode
  have hsize := size_exchangeAt t p l.length old new
  have hfields := fields_exchangeAt t p l.length old new
  refine ⟨p, l, r, gap, hp, hslots, ?_, fun x => ?_, ?_⟩
  · rw [size_markChanged, hsize]
  · rw [node_markChanged, hnode]
  · exact h.of_edit_markChanged hps hlinked hsize (fun x => (hfields x).2.2.1)
      (fun x => (hfields x).2.2.2) (fun x hx => slots_exchangeAt t hx _ _ _)
      (fun x _ => (hfields x).1) fun x _ => (hfields x).2.1

end Restyle.SyntaxTree
