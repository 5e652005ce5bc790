import Restyle.Tree.Build
import Mathlib.Tactic

/-!
What the nodes of a tree are after a change of it.

* `node_update`, `node_add`: changing one node and adding one leave all others as they are;
* `node_markChanged`: marking touches nothing but marks, so that every other field of a node can be
  read off the tree before (`slots_markChanged` and the lemmas beside it);
* `node_appendChild`: building below a node.
-/

namespace Restyle.SyntaxTree

variable (t : SyntaxTree)

/-! ### Nodes and their fields -/

lemma node_of_size_le {x : NodeId} (h : t.size ≤ x) : t.node x = default := by
  rw [node, Array.getD_eq_getD_getElem?, Array.getElem?_eq_none h, Option.getD_none]

@[simp] lemma slots_default : (default : Node).slots = [] := rfl

@[simp] lemma literal_default : (default : Node).literal = none := rfl

@[simp] lemma asRead_default : (default : Node).asRead = none := rfl

@[simp] lemma ending_default : (default : Node).ending = "" := rfl

@[simp] lemma parent_default : (default : Node).parent = none := rfl

@[simp] lemma changed_default : (default : Node).changed = false := rfl

@[simp] lemma kind_default : (default : Node).kind = .other := rfl

lemma kind_of_size_le {t : SyntaxTree} {x : NodeId} (h : t.size ≤ x) : t.kind x = .other := by
  rw [kind, t.node_of_size_le h]
  rfl

lemma lt_size_of_kind {t : SyntaxTree} {x : NodeId} (h : t.kind x ≠ .other) : x < t.size := by
  by_contra hx
  exact h (kind_of_size_le (Nat.not_lt.mp hx))

lemma lt_size_of_isTag {t : SyntaxTree} {x : NodeId} (h : (t.kind x).isTag = true) :
    x < t.size :=
  lt_size_of_kind fun hk => by
    rw [hk] at h
    cases h

lemma lt_size_of_parent {t : SyntaxTree} {c p : NodeId} (h : t.parent c = some p) :
    c < t.size := by
  by_contra hc
  rw [parent, t.node_of_size_le (Nat.not_lt.mp hc)] at h
  simp at h

lemma lt_size_of_mem {t : SyntaxTree} {p c : NodeId} (h : c ∈ t.children p) : p < t.size := by
  by_contra hp
  rw [children, t.node_of_size_le (Nat.not_lt.mp hp), Node.children] at h
  simp at h

lemma lt_size_of_lt_length {t : SyntaxTree} {p : NodeId} {i : Nat}
    (h : i < (t.node p).slots.length) : p < t.size := by
  by_contra hp
  rw [t.node_of_size_le (Nat.not_lt.mp hp)] at h
  exact Nat.not_lt_zero i h

lemma mem_children_iff {t : SyntaxTree} {p c : NodeId} :
    c ∈ t.children p ↔ ∃ gap, ⟨gap, c⟩ ∈ (t.node p).slots := by
  rw [children, Node.children, List.mem_map]
  constructor
  · rintro ⟨⟨gap, c⟩, h, rfl⟩
    exact ⟨gap, h⟩
  · rintro ⟨gap, h⟩
    exact ⟨_, h, rfl⟩

/-! ### Changing one node -/

@[simp] lemma size_update (id : NodeId) (f : Node → Node) : (t.update id f).size = t.size := by
  rw [size, update, Array.size_modify, size]

lemma node_update (id x : NodeId) (f : Node → Node) :
    (t.update id f).node x = if x = id ∧ x < t.size then f (t.node x) else t.node x := by
  by_cases hx : x < t.size
  · have hx' : x < t.nodes.size := hx
    simp only [node, update, Array.getD_eq_getD_getElem?, Array.getElem?_modify, hx, and_true,
      eq_comm (a := id)]
    split
    · rw [Array.getElem?_eq_getElem hx']
      rfl
    · rfl
  · have hle : t.size ≤ x := Nat.not_lt.mp hx
    rw [node_of_size_le _ (by rwa [size_update]), node_of_size_le _ hle, if_neg]
    exact fun h => hx h.2

lemma node_update_self {id : NodeId} (h : id < t.size) (f : Node → Node) :
    (t.update id f).node id = f (t.node id) := by
  rw [node_update, if_pos ⟨rfl, h⟩]

lemma node_update_of_ne {id x : NodeId} (h : x ≠ id) (f : Node → Node) :
    (t.update id f).node x = t.node x := by
  rw [node_update, if_neg fun hx => h hx.1]

lemma node_update_of_lt {id : NodeId} (h : id < t.size) (f : Node → Node) (x : NodeId) :
    (t.update id f).node x = if x = id then f (t.node x) else t.node x := by
  by_cases hx : x = id
  · rw [hx, node_update_self t h, if_pos rfl]
  · rw [node_update_of_ne t hx, if_neg hx]

/-! ### Adding a node -/

@[simp] lemma fst_add (n : Node) : (t.add n).1 = t.size := rfl

@[simp] lemma size_add (n : Node) : (t.add n).2.size = t.size + 1 := by
  rw [size, add, Array.size_push, size]

lemma node_add (n : Node) (x : NodeId) :
    (t.add n).2.node x = if x = t.size then n else t.node x := by
  simp only [node, add, Array.getD_eq_getD_getElem?, Array.getElem?_push, size]
  split <;> simp

lemma node_add_of_lt {n : Node} {x : NodeId} (h : x < t.size) :
    (t.add n).2.node x = t.node x := by
  rw [node_add, if_neg (Nat.ne_of_lt h)]

lemma node_add_self (n : Node) : (t.add n).2.node t.size = n := by
  rw [node_add, if_pos rfl]

/-! ### Marking -/

lemma size_markChangedWithin (steps : Nat) (t : SyntaxTree) (id : NodeId) :
    (markChangedWithin steps t id).size = t.size := by
  induction steps generalizing t id with
  | zero => rfl
  | succ steps ih =>
      rw [markChangedWithin]
      split
      · rfl
      · dsimp only
        split
        · rw [ih, size_update]
        · rw [size_update]

@[simp] lemma size_markChanged (id : NodeId) : (t.markChanged id).size = t.size :=
  size_markChangedWithin _ t id

/-- Marking changes nothing but marks. -/
lemma node_markChangedWithin (steps : Nat) (t : SyntaxTree) (id x : NodeId) :
    (markChangedWithin steps t id).node x
      = { t.node x with changed := ((markChangedWithin steps t id).node x).changed } := by
  induction steps generalizing t id with
  | zero => rfl
  | succ steps ih =>
      have hu : (t.update id fun n => { n with changed := true }).node x
          = { t.node x with changed :=
              ((t.update id fun n => { n with changed := true }).node x).changed } := by
        rw [node_update]
        split <;> rfl
      rw [markChangedWithin]
      split
      · rfl
      · dsimp only
        split
        · rw [ih, hu]
        · exact hu

/-- Marking changes no field of a node but its mark. -/
lemma node_markChanged (id x : NodeId) :
    (t.markChanged id).node x = { t.node x with changed := ((t.markChanged id).node x).changed } :=
  node_markChangedWithin _ t id x

@[simp] lemma slots_markChanged (id x : NodeId) :
    ((t.markChanged id).node x).slots = (t.node x).slots := by rw [node_markChanged]

@[simp] lemma literal_markChanged (id x : NodeId) :
    ((t.markChanged id).node x).literal = (t.node x).literal := by rw [node_markChanged]

@[simp] lemma ending_markChanged (id x : NodeId) :
    ((t.markChanged id).node x).ending = (t.node x).ending := by rw [node_markChanged]

@[simp] lemma asRead_markChanged (id x : NodeId) :
    ((t.markChanged id).node x).asRead = (t.node x).asRead := by rw [node_markChanged]

@[simp] lemma position_markChanged (id x : NodeId) :
    ((t.markChanged id).node x).position = (t.node x).position := by rw [node_markChanged]

@[simp] lemma kind_markChanged (id x : NodeId) : (t.markChanged id).kind x = t.kind x := by
  rw [kind, node_markChanged, kind]

@[simp] lemma role_markChanged (id x : NodeId) : (t.markChanged id).role x = t.role x := by
  rw [role, node_markChanged, role]

@[simp] lemma parent_markChanged (id x : NodeId) : (t.markChanged id).parent x = t.parent x := by
  rw [parent, node_markChanged, parent]

@[simp] lemma children_markChanged (id x : NodeId) :
    (t.markChanged id).children x = t.children x := by
  rw [children, node_markChanged, children]
  rfl

/-! ### Building -/

@[simp] lemma size_appendChild (parent child : NodeId) (gap : String) :
    (t.appendChild parent child gap).size = t.size := by
  rw [appendChild, size_update, size_update]

@[simp] lemma size_setEnd (id : NodeId) (ending : String) :
    (t.setEnd id ending).size = t.size := by
  rw [setEnd, size_update]

end Restyle.SyntaxTree
