import Restyle.Proofs.Tree.Under
import Restyle.Proofs.Tree.Walks

/-!
The order in which a walk meets the nodes of a tree.

* `next?`, `Yields`: a walk with a stack of the nodes that are still to be met;
* `Acyclic.yields_iff`: from a node, it meets the descendants of the node and ends;
* `DocumentOrder`, `Linked.documentOrder`: these are the nodes that the node reaches, each once,
  each before those below it, and what one child reaches before what the children behind it reach.
-/

namespace Restyle.SyntaxTree

variable {t : SyntaxTree}

/-! ### A walk with a stack -/

/-- The next node of a walk, which is the last one on the stack, and the stack on which its children
have taken its place, the first of them last. -/
def next? (t : SyntaxTree) (stack : List NodeId) : Option (NodeId × List NodeId) :=
  stack.getLast?.map fun id => (id, stack.dropLast ++ (t.children id).reverse)

/-- A walk from a stack meets these nodes, and then ends. -/
inductive Yields (t : SyntaxTree) : List NodeId → List NodeId → Prop where
  | done {stack : List NodeId} : t.next? stack = none → Yields t stack []
  | next {stack stack' : List NodeId} {id : NodeId} {ids : List NodeId} :
      t.next? stack = some (id, stack') → Yields t stack' ids → Yields t stack (id :: ids)

lemma next?_concat (stack : List NodeId) (x : NodeId) :
    t.next? (stack ++ [x]) = some (x, stack ++ (t.children x).reverse) := by
  rw [next?, List.getLast?_concat, Option.map_some, List.dropLast_concat]

/-- A walk meets no other nodes. -/
lemma Yields.unique {stack ids ids' : List NodeId} (h : t.Yields stack ids)
    (h' : t.Yields stack ids') : ids = ids' := by
  induction h generalizing ids' with
  | done hnext =>
      cases h' with
      | done _ => rfl
      | next hnext' _ => rw [hnext] at hnext'; cases hnext'
  | next hnext _ ih =>
      cases h' with
      | done hnext' => rw [hnext] at hnext'; cases hnext'
      | next hnext' h' =>
          rw [hnext, Option.some.injEq, Prod.mk.injEq] at hnext'
          obtain ⟨rfl, rfl⟩ := hnext'
          rw [ih h']

/-- A row of nodes on the stack is met in order, once each of them is met as a whole. -/
lemma Yields.push_row {row : List NodeId}
    (hrow : ∀ c ∈ row, ∀ {stack rest : List NodeId}, t.Yields stack rest →
      t.Yields (stack ++ [c]) (t.descendants c ++ rest))
    {stack rest : List NodeId} (h : t.Yields stack rest) :
    t.Yields (stack ++ row.reverse) (row.flatMap t.descendants ++ rest) := by
  induction row with
  | nil => rwa [List.reverse_nil, List.append_nil, List.flatMap_nil, List.nil_append]
  | cons c row ih =>
      have hbehind := ih fun c' hc' => hrow c' (List.mem_cons_of_mem _ hc')
      rw [List.reverse_cons, List.flatMap_cons, ← List.append_assoc stack,
        List.append_assoc (t.descendants c)]
      exact hrow c List.mem_cons_self hbehind

namespace Acyclic

/-- A node on top of a stack is met with all its descendants before the walk goes on. -/
lemma yields_push (h : t.Acyclic) (x : NodeId) {stack rest : List NodeId}
    (hrest : t.Yields stack rest) : t.Yields (stack ++ [x]) (t.descendants x ++ rest) := by
  induction x using h.inductDown generalizing stack rest with
  | hP x ih =>
      rw [h.descendants_eq x, List.cons_append]
      exact .next (next?_concat stack x) (hrest.push_row fun c hc _ _ => ih c hc)

/-- A walk from a node meets the descendants of the node and ends. -/
theorem yields_iff (h : t.Acyclic) {x : NodeId} {ids : List NodeId} :
    t.Yields [x] ids ↔ ids = t.descendants x := by
  have hx : t.Yields [x] (t.descendants x) := by
    have hpush := h.yields_push x (.done rfl : t.Yields [] [])
    rwa [List.append_nil] at hpush
  exact ⟨fun hids => hids.unique hx, fun heq => heq ▸ hx⟩

end Acyclic

/-! ### Document order -/

/-- The nodes that a node reaches, in document order. -/
structure DocumentOrder (t : SyntaxTree) (x : NodeId) (ids : List NodeId) : Prop where
  mem_iff : ∀ d, d ∈ ids ↔ t.Reaches x d
  nodup : ids.Nodup
  /-- A node comes before those below it. -/
  below : ∀ p d, p ∈ ids → Relation.TransGen t.Lists p d → [p, d].Sublist ids
  /-- What a child reaches comes before what the children behind it reach. -/
  siblings : ∀ p a b, p ∈ ids → [a, b].Sublist (t.children p) →
    ∀ c d, t.Reaches a c → t.Reaches b d → [c, d].Sublist ids

namespace Acyclic

/-- What is met below a node is met in the same order from further up. -/
lemma descendants_sublist (h : t.Acyclic) {x p : NodeId} (hp : p ∈ t.descendants x) :
    (t.descendants p).Sublist (t.descendants x) := by
  induction x using h.inductDown with
  | hP x ih =>
      rw [h.descendants_eq x] at hp ⊢
      rcases List.mem_cons.mp hp with rfl | hp
      · rw [h.descendants_eq p]
      · obtain ⟨c, hc, hpc⟩ := List.mem_flatMap.mp hp
        exact ((ih c hc hpc).trans (List.sublist_flatten_of_mem (List.mem_map_of_mem hc))).cons x

/-- A node comes before what is below it. -/
lemma sublist_below (h : t.Acyclic) {p d : NodeId} (hd : Relation.TransGen t.Lists p d) :
    [p, d].Sublist (t.descendants p) := by
  obtain ⟨c, hc, hcd⟩ := Relation.TransGen.head'_iff.mp hd
  rw [h.descendants_eq p]
  refine .cons_cons p (List.singleton_sublist.mpr (List.mem_flatMap.mpr ⟨c, hc, ?_⟩))
  exact h.mem_descendants_iff_reaches.mpr hcd

/-- What is below a child comes before what is below a later one. -/
lemma sublist_siblings (h : t.Acyclic) {p a b c d : NodeId} (hab : [a, b].Sublist (t.children p))
    (hc : t.Reaches a c) (hd : t.Reaches b d) : [c, d].Sublist (t.descendants p) := by
  have hrow : ([a, b].flatMap t.descendants).Sublist (t.descendants p) := by
    rw [h.descendants_eq p]
    exact (hab.flatMap t.descendants).cons p
  refine .trans ?_ hrow
  rw [List.flatMap_cons, List.flatMap_singleton]
  exact (List.singleton_sublist.mpr (h.mem_descendants_iff_reaches.mpr hc)).append
    (List.singleton_sublist.mpr (h.mem_descendants_iff_reaches.mpr hd))

end Acyclic

/-- What a node is reached from is what it lies under. -/
lemma Linked.under_of_reaches (h : t.Linked) {x d : NodeId} (hd : t.Reaches x d) : t.Under x d := by
  induction hd with
  | refl => exact .refl
  | tail _ hc ih => exact .step (h.parent_of_mem hc) ih

lemma Linked.acyclic (h : t.Linked) : t.Acyclic where
  size_pos := h.size_pos
  lt_of_lists := h.lt_of_mem
  parent_lt := h.parent_lt
  not_below := fun x hx => by
    obtain ⟨c, hc, hback⟩ := Relation.TransGen.head'_iff.mp hx
    exact Under.not_parent h (h.parent_of_mem hc) (h.under_of_reaches hback)

/-- The descendants of a node, in document order. -/
theorem Linked.documentOrder (h : t.Linked) {x : NodeId} (hx : x < t.size) :
    t.DocumentOrder x (t.descendants x) where
  mem_iff := fun _ => h.acyclic.mem_descendants_iff_reaches
  nodup := descendants_nodup h hx
  below := fun _ _ hp hd => (h.acyclic.sublist_below hd).trans (h.acyclic.descendants_sublist hp)
  siblings := fun _ _ _ hp hab _ _ hc hd =>
    (h.acyclic.sublist_siblings hab hc hd).trans (h.acyclic.descendants_sublist hp)

end Restyle.SyntaxTree
