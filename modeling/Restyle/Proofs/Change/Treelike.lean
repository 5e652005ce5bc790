import Restyle.Proofs.Change.Splice

/-!
Changes leave a tree.

* `Met`, `mem_descendants_root_iff`: the nodes on the ways down from the root, which the walk meets
  each once;
* `Treelike`: these nodes form a tree, above whose marked nodes all are marked;
* `treelike_of_reachable`: so it is after any number of changes at any points.
-/

namespace Restyle.SyntaxTree

variable {t : SyntaxTree}

/-- A node on a way down from the root. -/
def Met (t : SyntaxTree) : NodeId → Prop :=
  Relation.ReflTransGen (fun p c => c ∈ t.children p) root

/-- What the walk from the root lists are the nodes met on the way down. -/
lemma mem_descendants_root_iff (hl : t.Linked) {x : NodeId} :
    x ∈ t.descendants root ↔ t.Met x := by
  refine ⟨fun hx => ?_, fun hx => ?_⟩
  · exact inductModule hl Relation.ReflTransGen.refl (fun p c _ hc hp => hp.tail hc) hx
  · induction hx with
    | refl => exact mem_descendants_self hl hl.root_lt
    | tail _ hc ih => exact child_mem_descendants hl ih hc

/-- The nodes below the root form a tree. Nothing lists its root, every other node is listed once,
by the node that is its parent, and marks go up to the root. -/
structure Treelike (t : SyntaxTree) : Prop where
  kind_root : t.kind root = .program
  parent_root : t.parent root = none
  /-- By the way slots are laid out; no change could break it. -/
  gaps_length : ∀ p, t.Met p → (t.node p).gaps.length = (t.children p).length
  nodup : ∀ p, t.Met p → (t.children p).Nodup
  mem_iff_parent : ∀ p c, t.Met p → (c ∈ t.children p ↔ t.Met c ∧ t.parent c = some p)
  walk_nodup : (t.descendants root).Nodup
  mem_walk : ∀ x, x ∈ t.descendants root ↔ t.Met x
  changed_above : ∀ x d, t.Met d → t.Under x d → (t.node d).changed = true →
    (t.node x).changed = true

/-- Whatever a marked node of the module lies under is marked. -/
lemma WellFormed.changed_of_under (h : t.WellFormed) {x d : NodeId} (hd : d ∈ t.descendants root)
    (hx : t.Under x d) (hch : (t.node d).changed = true) : (t.node x).changed = true := by
  induction hx with
  | refl => exact hch
  | step hp _ ih =>
      exact ih (parent_mem_descendants h.toLinked hd hp)
        (h.changed_of_mem (mem_children_of_parent h.toLinked hd hp) hch)

theorem Document.treelike (h : t.Document) : t.Treelike where
  kind_root := h.kind_root
  parent_root := h.parent_root
  gaps_length := fun p _ => by
    rw [Node.gaps, children, Node.children, List.length_map, List.length_map]
  nodup := fun p _ => h.nodup p
  mem_iff_parent := fun p c hp => by
    refine ⟨fun hc => ⟨hp.tail hc, h.parent_of_mem hc⟩, fun hc => ?_⟩
    have hmem := (mem_descendants_root_iff h.toLinked).mpr hc.1
    exact mem_children_of_parent h.toLinked hmem hc.2
  walk_nodup := descendants_nodup h.toLinked h.root_lt
  mem_walk := fun _ => mem_descendants_root_iff h.toLinked
  changed_above := fun _ _ hd =>
    h.toWellFormed.changed_of_under ((mem_descendants_root_iff h.toLinked).mpr hd)

/-- A tree that was read is one after any number of imports and modifications, at whatever
points. -/
theorem treelike_of_reachable {source : List Char} {tree : Syntax.Cst}
    (h : Reachable source tree t) : t.Treelike :=
  h.document.treelike

/-- An import and a wrapper around the only tag of a module. -/
theorem treelike_soleTag :
    let t := ((ofConcrete "<a x='b'/>".toList soleTag).requireImport {}).2
    let u := (t.applyAt {} ⟨"a", .wrapElement, "w"⟩ (.openingTag ⟨1, 1, "a", some ⟨1, 1⟩⟩)).2
    Reachable "<a x='b'/>".toList soleTag u ∧ u.parent 1 = some 15
      ∧ u.children 15 = [16, 1, 20] ∧ u.Treelike := by
  intro t u
  have hu : Reachable "<a x='b'/>".toList soleTag u := .applyAt _ _ _ (.requireImport _ .read)
  exact ⟨hu, by decide +kernel, by decide +kernel, treelike_of_reachable hu⟩

end Restyle.SyntaxTree
