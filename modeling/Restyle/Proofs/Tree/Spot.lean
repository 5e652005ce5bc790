import Restyle.Proofs.Tree.Marking

/-!
Where a node stands in the text of its tree.

* `Spot`: the text of a module in front of a node and behind it;
* `Spot.render_eq`, `WellFormed.exists_spot`: every node of the module has a spot, and the module is
  written as what stands there with the node in between;
* `OnlyAt`: no other old node has changed how it is put together;
* `OnlyAt.spot`, `OnlyAt.text_child`: then the node stays at its spot, and what was below it is
  written as before.
-/

namespace Restyle.SyntaxTree

variable {t t' : SyntaxTree}

/-- Children with the layout in front of them, as they are written. -/
def rowText (t : SyntaxTree) (slots : List Slot) : String :=
  String.join (slots.map fun slot => slot.gap ++ t.text slot.child)

@[simp] lemma rowText_nil (t : SyntaxTree) : t.rowText [] = "" := rfl

@[simp] lemma rowText_append (t : SyntaxTree) (l r : List Slot) :
    t.rowText (l ++ r) = t.rowText l ++ t.rowText r := by
  rw [rowText, List.map_append, String.join_append]
  rfl

@[simp] lemma rowText_cons (t : SyntaxTree) (slot : Slot) (r : List Slot) :
    t.rowText (slot :: r) = slot.gap ++ t.text slot.child ++ t.rowText r := by
  rw [rowText, List.map_cons, String.join_cons]
  rfl

lemma rowText_congr {slots : List Slot}
    (h : ∀ slot ∈ slots, t'.text slot.child = t.text slot.child) :
    t'.rowText slots = t.rowText slots := by
  rw [rowText, rowText]
  congr 1
  exact List.map_congr_left fun slot hslot => by rw [h slot hslot]

/-- A node that lists `l` and `r` around a child is written as these around the child. -/
lemma WellFormed.text_of_slots (h : t.WellFormed) {p c : NodeId} {l r : List Slot} {gap : String}
    (hp : (t.node p).slots = l ++ ⟨gap, c⟩ :: r) :
    t.text p = t.rowText l ++ gap ++ t.text c ++ (t.rowText r ++ (t.node p).ending) := by
  have hmem : c ∈ t.children p := mem_children_iff.mpr ⟨gap, by rw [hp]; simp⟩
  have hrow : t.textBelow p = t.rowText (t.node p).slots ++ (t.node p).ending := rfl
  rw [h.text_of_mem hmem, hrow, hp, rowText_append, rowText_cons]
  simp only [String.append_assoc]

/-- The module is written as `pre` before a node and as `post` behind it. -/
inductive Spot (t : SyntaxTree) : NodeId → String → String → Prop where
  | root : Spot t root "" ""
  | child {p c : NodeId} {pre post : String} {l r : List Slot} {gap : String} : Spot t p pre post →
      (t.node p).slots = l ++ ⟨gap, c⟩ :: r →
        Spot t c (pre ++ (t.rowText l ++ gap)) (t.rowText r ++ (t.node p).ending ++ post)

/-- The module is written as its nodes stand in it. -/
theorem Spot.render_eq (h : t.WellFormed) {x : NodeId} {pre post : String}
    (hx : t.Spot x pre post) : t.render = pre ++ t.text x ++ post := by
  induction hx with
  | root => rw [String.empty_append, String.append_empty]; rfl
  | child _ hp ih =>
      rw [ih, h.text_of_slots hp]
      simp only [String.append_assoc]

/-- Every node that is met below the root has a spot. -/
theorem WellFormed.exists_spot (h : t.WellFormed) {x : NodeId} (hx : x ∈ t.descendants root) :
    ∃ pre post, t.Spot x pre post := by
  -- By induction on the level: the spot of the parent and the slots beside give the spot of the
  -- child.
  obtain ⟨n, hn⟩ := h.exists_level x
  induction n generalizing x with
  | zero =>
      rcases exists_parent_of_mem_descendants h.toLinked h.root_lt hx with rfl | ⟨p, -, hp⟩
      · exact ⟨"", "", .root⟩
      · cases hn with
        | top htop =>
            rw [h.parent_of_mem hp] at htop
            cases htop
  | succ n ih =>
      rcases exists_parent_of_mem_descendants h.toLinked h.root_lt hx with rfl | ⟨p, hmem, hp⟩
      · exact ⟨"", "", .root⟩
      · cases hn with
        | under hpar hlevel =>
            rw [h.parent_of_mem hp, Option.some.injEq] at hpar
            subst hpar
            obtain ⟨pre, post, hspot⟩ := ih hmem hlevel
            obtain ⟨gap, hslot⟩ := mem_children_iff.mp hp
            obtain ⟨l, r, hslots⟩ := List.append_of_mem hslot
            exact ⟨_, _, hspot.child hslots⟩

/-! ### Trees that differ at one node -/

/-- The nodes of a tree other than `p` are put together in the same way in another one. -/
def OnlyAt (t t' : SyntaxTree) (p : NodeId) : Prop :=
  ∀ y < t.size, y ≠ p → t.Alike t' y

namespace OnlyAt

variable {p : NodeId}

/-- What stands below the node is written as before, and so is what stands elsewhere. -/
lemma text_eq (ho : OnlyAt t t' p) (h : t.WellFormed) (h' : t'.WellFormed) {x : NodeId}
    (hx : x < t.size) (hp : ¬ t.Under x p) : t'.text x = t.text x :=
  h.text_congr h' hx fun y hlt hy => ho y hlt fun heq => hp (heq ▸ hy)

lemma text_child (ho : OnlyAt t t' p) (h : t.WellFormed) (h' : t'.WellFormed) {c : NodeId}
    (hc : c ∈ t.children p) : t'.text c = t.text c :=
  ho.text_eq h h' (h.lt_of_mem hc) (Under.not_parent h.toLinked (h.parent_of_mem hc))

lemma rowText_eq (ho : OnlyAt t t' p) (h : t.WellFormed) (h' : t'.WellFormed) {slots : List Slot}
    (hs : ∀ slot ∈ slots, slot.child ∈ t.children p) : t'.rowText slots = t.rowText slots :=
  rowText_congr fun slot hslot => ho.text_child h h' (hs slot hslot)

/-- The node stays at its spot. -/
theorem spot (ho : OnlyAt t t' p) (h : t.WellFormed) (h' : t'.WellFormed) {pre post : String}
    (hp : t.Spot p pre post) : t'.Spot p pre post := by
  suffices ∀ {x : NodeId} {pre post : String}, t.Spot x pre post → t.Under x p →
      t'.Spot x pre post from this hp .refl
  intro x pre post hx
  induction hx with
  | root => exact fun _ => .root
  | @child q c pre post l r gap _ hq ih =>
      intro hcp
      have hmem : c ∈ t.children q := mem_children_iff.mpr ⟨gap, by rw [hq]; simp⟩
      have hqc := h.parent_of_mem hmem
      have hqp : q ≠ p := fun heq => Under.not_parent h.toLinked hqc (heq ▸ hcp)
      obtain ⟨hslots, -, hending⟩ := ho q (lt_size_of_mem hmem) hqp
      -- the node lies under `c`, so under none of the other children
      have hsibling : ∀ slot ∈ l ++ r, t'.text slot.child = t.text slot.child := by
        intro slot hslot
        have hnd := h.nodup q
        rw [children, Node.children, hq, List.map_append, List.map_cons, List.nodup_middle,
          List.nodup_cons, ← List.map_append] at hnd
        have hne : slot.child ≠ c := fun heq => hnd.1 (heq ▸ List.mem_map.mpr ⟨slot, hslot, rfl⟩)
        have hmem' : slot.child ∈ t.children q := by
          rw [children, Node.children, hq]
          refine List.mem_map_of_mem ?_
          rcases List.mem_append.mp hslot with hs | hs
          · exact List.mem_append_left _ hs
          · exact List.mem_append_right _ (List.mem_cons_of_mem _ hs)
        exact ho.text_eq h h' (h.lt_of_mem hmem') fun hp =>
          hne (Under.eq_of_siblings h.toLinked (h.parent_of_mem hmem') hqc hp hcp)
      have hl := rowText_congr fun slot hs => hsibling slot (List.mem_append_left _ hs)
      have hr := rowText_congr fun slot hs => hsibling slot (List.mem_append_right _ hs)
      have := (ih (Under.of_parent hqc hcp)).child (hslots.trans hq)
      rwa [hl, hr, hending] at this

end OnlyAt

end Restyle.SyntaxTree
