import Restyle.Proofs.Change.Effect
import Restyle.Proofs.Tree.Walks

/-!
Trees that are put together by hand, in any order of operations.

* `Acyclic.update`: changing one node keeps a tree without circles, if what it comes to list does
  not lead back to it;
* `Acyclic.plant`, `Acyclic.insertAt`, `Acyclic.substitute?`, `Acyclic.wrapElement`: so do all that
  builds and edits a tree;
* `Built`: the trees that operations lead to from one node, where no node is put below one that it
  leads to;
* `Built.walks_end`: every walk over them ends, though nodes may be shared and the links to parents
  may be outdated.
-/

namespace Restyle.SyntaxTree

variable {t t' : SyntaxTree}

/-! ### Changing one node -/

lemma children_update (t : SyntaxTree) (id x : NodeId) (f : Node → Node) :
    (t.update id f).children x
      = if x = id ∧ x < t.size then (f (t.node x)).children else t.children x := by
  rw [children, node_update]
  split <;> rfl

lemma parent_update (t : SyntaxTree) (id x : NodeId) (f : Node → Node) :
    (t.update id f).parent x
      = if x = id ∧ x < t.size then (f (t.node x)).parent else t.parent x := by
  rw [parent, node_update]
  split <;> rfl

/-- An update that keeps the slots changes no children. -/
lemma children_update_of_slots (id : NodeId) {f : Node → Node} (hf : ∀ n, (f n).slots = n.slots)
    (x : NodeId) : (t.update id f).children x = t.children x := by
  rw [children_update]
  split
  · exact congrArg (List.map Slot.child) (hf _)
  · rfl

/-- Exchanging the child of one slot brings in no child but the new one. -/
lemma mem_children_modify {slots : List Slot} {i : Nat} {new y : NodeId}
    (hy : y ∈ (slots.modify i fun slot => { slot with child := new }).map Slot.child) :
    y ∈ slots.map Slot.child ∨ y = new := by
  induction slots generalizing i with
  | nil =>
      rw [List.modify_nil] at hy
      exact .inl hy
  | cons slot slots ih =>
      cases i with
      | zero =>
          rw [List.modify_zero_cons, List.map_cons, List.mem_cons] at hy
          exact hy.elim .inr fun hy => .inl (List.mem_cons_of_mem _ hy)
      | succ i =>
          rw [List.modify_succ_cons, List.map_cons, List.mem_cons] at hy
          rcases hy with rfl | hy
          · exact .inl List.mem_cons_self
          · exact (ih hy).imp_left (List.mem_cons_of_mem _)

/-- Where a child was exchanged, only the new one is listed that was not listed there before. -/
lemma lists_of_substitute? {old new x y : NodeId} (ht' : t.substitute? old new = some t')
    (hxy : t'.Lists x y) : t.Lists x y ∨ t.parent old = some x ∧ y = new := by
  obtain ⟨p, i, hp, -, rfl⟩ := exists_of_substitute? ht'
  have hslots : ((t.exchangeAt p i old new).node x).slots
      = ((t.update p fun n => { n with
          slots := n.slots.modify i fun slot => { slot with child := new } }).node x).slots := by
    rw [exchangeAt, node_update, node_update]
    split <;> split <;> rfl
  rw [Lists, children_markChanged, children, Node.children, hslots, node_update] at hxy
  split at hxy
  · next hx =>
      rw [hx.1] at hxy ⊢
      exact (mem_children_modify hxy).imp_right fun heq => ⟨hp, heq⟩
  · exact .inl hxy

lemma lists_congr (hchildren : ∀ x, t'.children x = t.children x) : t'.Lists = t.Lists := by
  funext x y
  rw [Lists, Lists, hchildren]

namespace Acyclic

/-- A node may come to list one that does not lead back to it, and get any parent that is there. -/
theorem update (h : t.Acyclic) (id : NodeId) {f : Node → Node} {c : NodeId}
    (hparent : ∀ q, (f (t.node id)).parent = some q → q < t.size)
    (hlists : ∀ y ∈ (f (t.node id)).children,
      t.Lists id y ∨ y = c ∧ c < t.size ∧ ¬ t.Reaches c id) :
    (t.update id f).Acyclic := by
  have hsub : ∀ x y, (t.update id f).Lists x y →
      t.Lists x y ∨ x = id ∧ y = c ∧ c < t.size ∧ ¬ t.Reaches c id := by
    intro x y hxy
    rw [Lists, children_update] at hxy
    split at hxy
    · next hx =>
        rw [hx.1] at hxy ⊢
        exact (hlists y hxy).imp_right fun hy => ⟨rfl, hy⟩
    · exact .inl hxy
  constructor
  case size_pos => exact (size_update t id f).symm ▸ h.size_pos
  case lt_of_lists =>
    intro x y hxy
    rw [size_update]
    rcases hsub x y hxy with hxy | ⟨-, rfl, hc, -⟩
    · exact h.lt_of_lists hxy
    · exact hc
  case parent_lt =>
    intro x q hq
    rw [parent_update] at hq
    rw [size_update]
    split at hq
    · next hx => exact hparent q (hx.1 ▸ hq)
    · exact h.parent_lt hq
  case not_below =>
    by_cases hback : t.Reaches c id
    · -- then nothing is listed that was not listed before
      intro x hx
      have hold : ∀ x y, (t.update id f).Lists x y → t.Lists x y := fun x y hxy =>
        (hsub x y hxy).resolve_right fun hnew => hnew.2.2.2 hback
      exact h.not_below x (Relation.TransGen.mono hold _ _ hx)
    · exact not_transGen_of_added h.not_below
        (fun x y hxy => (hsub x y hxy).imp_right fun hnew => ⟨hnew.1, hnew.2.1⟩) hback

/-- A node may list less than before. -/
lemma update_of_subset (h : t.Acyclic) (id : NodeId) {f : Node → Node}
    (hparent : ∀ q, (f (t.node id)).parent = some q → q < t.size)
    (hlists : ∀ y ∈ (f (t.node id)).children, t.Lists id y) : (t.update id f).Acyclic :=
  h.update (c := id) id hparent fun y hy => .inl (hlists y hy)

/-- Marking lists no node anew. -/
lemma markChanged (h : t.Acyclic) (id : NodeId) : (t.markChanged id).Acyclic where
  size_pos := by
    rw [size_markChanged]
    exact h.size_pos
  lt_of_lists := fun {p c} hc => by
    rw [lists_congr (children_markChanged t id)] at hc
    rw [size_markChanged]
    exact h.lt_of_lists hc
  parent_lt := fun {c p} hp => by
    rw [parent_markChanged] at hp
    rw [size_markChanged]
    exact h.parent_lt hp
  not_below := fun x => by
    rw [lists_congr (children_markChanged t id)]
    exact h.not_below x

lemma assignRole (h : t.Acyclic) (id : NodeId) (role : Option Role) :
    (t.assignRole id role).Acyclic :=
  h.update_of_subset id (fun _ hq => h.parent_lt hq) fun _ hy => hy

lemma setEnd (h : t.Acyclic) (id : NodeId) (ending : String) : (t.setEnd id ending).Acyclic :=
  h.update_of_subset id (fun _ hq => h.parent_lt hq) fun _ hy => hy

lemma overwrite (h : t.Acyclic) (id : NodeId) (s : String) : (t.overwrite id s).Acyclic :=
  (h.update_of_subset id (fun _ hq => h.parent_lt hq) fun _ hy =>
    absurd hy List.not_mem_nil).markChanged id

lemma changeGap (h : t.Acyclic) (p : NodeId) (i : Nat) (gap : String) :
    (t.changeGap p i gap).Acyclic := by
  rw [SyntaxTree.changeGap]
  split
  · refine (h.update_of_subset p (fun _ hq => h.parent_lt hq) fun y hy => ?_).markChanged p
    rwa [Node.children, map_child_modify_gap] at hy
  · exact h

/-! ### Putting a node below another one -/

/-- A node gets a parent, which comes to list it. -/
lemma enlist (h : t.Acyclic) {p c : NodeId} (hp : p < t.size) (hc : c < t.size)
    (hback : ¬ t.Reaches c p) (place : List Slot → List Slot)
    (hplace : ∀ slots, ∀ y ∈ (place slots).map Slot.child, y ∈ slots.map Slot.child ∨ y = c) :
    ((t.update c fun n => { n with parent := some p }).update p fun n =>
      { n with slots := place n.slots }).Acyclic := by
  have hadopted : (t.update c fun n => { n with parent := some p }).Acyclic :=
    h.update_of_subset c (fun q hq => Option.some.inj hq ▸ hp) fun _ hy => hy
  have hsame : (t.update c fun n => { n with parent := some p }).Lists = t.Lists :=
    lists_congr (children_update_of_slots c fun _ => rfl)
  have hsize : (t.update c fun n => { n with parent := some p }).size = t.size := size_update t c _
  refine hadopted.update (c := c) p (fun q hq => hadopted.parent_lt hq) fun y hy => ?_
  rw [Reaches, hsame, hsize]
  refine (hplace _ y hy).imp (fun hmem => ?_) fun heq => ⟨heq, hc, hback⟩
  exact hsame ▸ (show (t.update c fun n => { n with parent := some p }).Lists p y from hmem)

lemma appendChild (h : t.Acyclic) {p c : NodeId} (hp : p < t.size) (hc : c < t.size)
    (hback : ¬ t.Reaches c p) (gap : String) : (t.appendChild p c gap).Acyclic := by
  refine h.enlist hp hc hback (· ++ [⟨gap, c⟩]) fun slots y hy => ?_
  simpa using hy

/-- A new child closes no cycle when it does not reach its parent. -/
lemma insertAt (h : t.Acyclic) {p c : NodeId} (hp : p < t.size) (hc : c < t.size)
    (hback : ¬ t.Reaches c p) (i : Nat) (gap : String) : (t.insertAt p i c gap).Acyclic := by
  refine (h.enlist hp hc hback (fun slots => slots.take i ++ ⟨gap, c⟩ :: slots.drop i)
    fun slots y hy => ?_).markChanged p
  rw [List.map_append, List.map_cons, List.mem_append, List.mem_cons] at hy
  rcases hy with hy | hy | hy
  · exact .inl (List.mem_of_mem_take (List.map_take ▸ hy))
  · exact .inr hy
  · exact .inl (List.mem_of_mem_drop (List.map_drop ▸ hy))

/-- A node takes the place of another one. -/
lemma exchangeAt (h : t.Acyclic) {p old new : NodeId} (hp : p < t.size) (hnew : new < t.size)
    (hback : ¬ t.Reaches new p) (i : Nat) : (t.exchangeAt p i old new).Acyclic := by
  have hslot := h.update (c := new) p (f := fun n =>
      { n with slots := n.slots.modify i fun slot => { slot with child := new } })
    (fun _ hq => h.parent_lt hq) fun y hy =>
      (mem_children_modify hy).imp_right fun heq => ⟨heq, hnew, hback⟩
  have hplaced := hslot.update_of_subset new
    (f := fun n => { n with parent := some p, role := t.role old })
    (fun q hq => Option.some.inj hq ▸ (size_update t p _).symm ▸ hp) fun _ hy => hy
  exact hplaced.update_of_subset old (f := fun n => { n with parent := none, role := none })
    (fun q hq => nomatch hq) fun _ hy => hy

lemma substitute? (h : t.Acyclic) {old new : NodeId} (hnew : new < t.size)
    (hback : ∀ p, t.parent old = some p → ¬ t.Reaches new p)
    (ht' : t.substitute? old new = some t') : t'.Acyclic := by
  obtain ⟨p, i, hp, -, rfl⟩ := exists_of_substitute? ht'
  exact (h.exchangeAt (h.parent_lt hp) hnew (hback p hp) i).markChanged p

end Acyclic

/-! ### New nodes -/

section Planting

variable {row : List Node} {x y : NodeId}

lemma lists_plant_of_lt (hx : x < t.size) : (t.plant row).Lists x y ↔ t.Lists x y := by
  rw [Lists, Lists, children, node_plant_of_lt hx, children]

/-- Planted nodes list planted ones that stand behind them. -/
lemma lt_of_lists_plant (hr : StandsAlone t.size row) (hx : t.size ≤ x)
    (hxy : (t.plant row).Lists x y) : x < y ∧ y < (t.plant row).size := by
  rcases t.node_plant_cases row x with ⟨hlt, -⟩ | ⟨i, n, rfl, hi, hn⟩ | hle
  · exact absurd hlt (Nat.not_lt.mpr hx)
  · rw [Lists, children, hn] at hxy
    obtain ⟨j, m, rfl, hj, hm⟩ := hr.parent_of_mem hi hxy
    obtain ⟨k, hk, hik⟩ := hr.parent_lt hj hm
    obtain rfl : i = k := Nat.add_left_cancel hik
    rw [size_plant]
    exact ⟨Nat.add_lt_add_left hk _,
      Nat.add_lt_add_left (List.getElem?_eq_some_iff.mp hj).1 _⟩
  · exact absurd (lt_size_of_mem hxy) (Nat.not_lt.mpr hle)

/-- Old nodes reach what they reached. -/
lemma reaches_plant_of_lt (h : t.Acyclic) (hx : x < t.size) (hxy : (t.plant row).Reaches x y) :
    y < t.size ∧ t.Reaches x y := by
  induction hxy with
  | refl => exact ⟨hx, .refl⟩
  | tail _ hc ih =>
      have hc := (lists_plant_of_lt ih.1).mp hc
      exact ⟨h.lt_of_lists hc, ih.2.tail hc⟩

/-- New nodes reach new ones. -/
lemma le_of_reaches_plant (hr : StandsAlone t.size row) (hx : t.size ≤ x)
    (hxy : (t.plant row).Reaches x y) : t.size ≤ y := by
  induction hxy with
  | refl => exact hx
  | tail _ hc ih => exact ih.trans (lt_of_lists_plant hr ih hc).1.le

/-- Planting a row that stands alone closes no cycle. -/
theorem Acyclic.plant (h : t.Acyclic) (hr : StandsAlone t.size row) : (t.plant row).Acyclic where
  size_pos := by
    rw [size_plant]
    exact Nat.add_pos_left h.size_pos _
  lt_of_lists := fun {p c} hc => by
    rcases Nat.lt_or_ge p t.size with hp | hp
    · rw [size_plant]
      exact Nat.lt_add_right _ (h.lt_of_lists ((lists_plant_of_lt hp).mp hc))
    · exact (lt_of_lists_plant hr hp hc).2
  parent_lt := fun {c p} hp => by
    rcases t.node_plant_cases row c with ⟨-, hn⟩ | ⟨i, n, rfl, hi, hn⟩ | hle
    · rw [parent, hn] at hp
      rw [size_plant]
      exact Nat.lt_add_right _ (h.parent_lt hp)
    · rw [parent, hn] at hp
      obtain ⟨j, hj, rfl⟩ := hr.parent_lt hi hp
      rw [size_plant]
      exact Nat.add_lt_add_left (hj.trans (List.getElem?_eq_some_iff.mp hi).1) _
    · rw [parent, node_of_size_le _ hle] at hp
      cases hp
  not_below := fun x hx => by
    rcases Nat.lt_or_ge x t.size with hlt | hge
    · obtain ⟨y, hxy, hyx⟩ := Relation.TransGen.head'_iff.mp hx
      have hxy := (lists_plant_of_lt hlt).mp hxy
      exact h.not_reaches hxy (reaches_plant_of_lt h (h.lt_of_lists hxy) hyx).2
    · -- along new nodes the indices grow
      have hgrow : ∀ y, Relation.TransGen (t.plant row).Lists x y → x < y := by
        intro y hy
        induction hy with
        | single hy => exact (lt_of_lists_plant hr hge hy).1
        | tail _ hc ih => exact ih.trans (lt_of_lists_plant hr (hge.trans ih.le) hc).1
      exact Nat.lt_irrefl x (hgrow x hx)

end Planting

lemma add_eq_plant (t : SyntaxTree) (n : Node) : t.add n = (t.size, t.plant [n]) := by
  rw [← t.plant_nil, add_plant]
  rfl

lemma standsAlone_singleton (b : NodeId) {n : Node} (hslots : n.slots = [])
    (hparent : n.parent = none) (hfresh : n.asRead = none ∧ n.changed = false) :
    StandsAlone b [n] where
  fresh := by simpa using hfresh
  slots_of_literal := by simp [hslots]
  nodup := by simp [Node.children, hslots]
  parent_before := by simp [hparent]
  parent_of_child := by simp [Node.children, hslots]

namespace Acyclic

lemma make (h : t.Acyclic) (kind : NodeKind) : (t.make kind).2.Acyclic := by
  rw [SyntaxTree.make, add_eq_plant]
  exact h.plant (standsAlone_singleton t.size rfl rfl ⟨rfl, rfl⟩)

lemma makeLeaf (h : t.Acyclic) (kind : NodeKind) (text : String) :
    (t.makeLeaf kind text).2.Acyclic := by
  rw [SyntaxTree.makeLeaf, add_eq_plant]
  exact h.plant (standsAlone_singleton t.size rfl rfl ⟨rfl, rfl⟩)

lemma newImport (h : t.Acyclic) (binding library : String) :
    (t.newImport binding library).2.Acyclic := by
  rw [newImport_eq]
  exact h.plant (standsAlone_importRow _ _ _)

lemma newElement (h : t.Acyclic) (name : String) : (t.newElement name).2.Acyclic := by
  rw [newElement_eq]
  exact h.plant (standsAlone_elementRow _ _)

lemma newAttribute (h : t.Acyclic) (name value : String) :
    (t.newAttribute name value).2.Acyclic := by
  rw [newAttribute_eq]
  exact h.plant (standsAlone_attributeRow _ _ _)

/-! ### Changes of a module -/

/-- A planted row can be put below any old node. -/
lemma graft (h : t.Acyclic) {row : List Node} (hr : StandsAlone t.size row) {n : Node}
    (hn : row[0]? = some n) {p : NodeId} (hp : p < t.size) (i : Nat) (gap : String) :
    ((t.plant row).insertAt p i t.size gap).Acyclic := by
  have hlt : t.size < (t.plant row).size := row_zero_lt hn
  exact (h.plant hr).insertAt (hp.trans hlt) hlt
    (fun hback => absurd hp (Nat.not_lt.mpr (le_of_reaches_plant hr le_rfl hback))) i gap

/-- Requiring the import closes no cycle. -/
theorem requireImport (h : t.Acyclic) (settings : TransformSettings) :
    (t.requireImport settings).2.Acyclic := by
  rw [SyntaxTree.requireImport]
  dsimp only
  split
  · exact h
  · rw [newImport_eq, insertStatement]
    have hr := standsAlone_importRow t.size settings.actualMotionBinding
      settings.actualAnimationLibrary
    dsimp only
    split
    · exact (h.graft hr rfl h.root_lt _ _).changeGap _ _ _
    · exact h.graft hr rfl h.root_lt _ _

/-- Adding classes closes no cycle. -/
theorem addClass (h : t.Acyclic) (a : NodeId) (value : String) :
    (t.addClass a value).2.Acyclic := by
  rcases t.addClass_cases a value with ⟨-, heq⟩ | ⟨literal, q, v, -, -, -, heq⟩
  · rw [heq]
    exact h
  · rw [heq]
    exact h.overwrite literal _

lemma insertAttribute (h : t.Acyclic) (tag : NodeId) (a : Assignment) :
    (t.insertAttribute tag a).2.Acyclic := by
  rw [SyntaxTree.insertAttribute]
  cases hend : t.attributesEnd? tag with
  | none => exact h
  | some i =>
      -- a tag whose attributes end somewhere has children
      obtain ⟨front, name, between, stop, back, hslots, -⟩ := exists_of_attributesEnd? hend
      have hmem : stop.child ∈ t.children tag :=
        mem_children_iff.mpr ⟨stop.gap, by rw [hslots]; simp⟩
      have hr := standsAlone_attributeRow t.size a.name a.value
      have hrow : (attributeRow t.size a.name a.value)[0]? = some { Node.made .attribute with
          role := some .attribute,
          slots := leafSlots (t.size + 1) (attributePieces a.name a.value) } :=
        rfl
      dsimp only
      rw [newAttribute_eq]
      exact h.graft hr hrow (lt_size_of_mem hmem) i _

/-- Setting a property closes no cycle. -/
theorem addProp (h : t.Acyclic) (tag : NodeId) (value : String) (synthesize : Bool) :
    (t.addProp tag value synthesize).2.Acyclic := by
  rw [SyntaxTree.addProp]
  split
  · exact h
  · next assigned _ =>
      split
      · next a _ =>
          rcases t.changeValue_cases a assigned.value with ⟨-, heq⟩ | ⟨literal, q, v, -, -, heq⟩
          · rw [heq]
            exact h
          · rw [heq]
            exact h.overwrite literal _
      · split
        · exact h.insertAttribute tag assigned
        · exact h

/-- A wrapper can be put around any node that its parent lists. -/
lemma wrap (h : t.Acyclic) {name : String} {e p : NodeId} (hp : t.parent e = some p)
    {u : SyntaxTree}
    (hu : (t.plant (elementRow t.size name)).substitute? e t.size = some u) :
    (u.insertAt t.size 1 e "").Acyclic := by
  have hr := standsAlone_elementRow t.size name
  have hplanted := h.plant hr
  have hlt : t.size < (t.plant (elementRow t.size name)).size := row_zero_lt rfl
  have he : e < t.size := lt_size_of_parent hp
  have hparent : (t.plant (elementRow t.size name)).parent e = some p := by
    rw [parent, node_plant_of_lt he]
    exact hp
  obtain ⟨q, i, hq, hi, hexchanged⟩ := exists_of_substitute? hu
  obtain rfl : p = q := Option.some.inj (hparent.symm.trans hq)
  have hsize : u.size = (t.plant (elementRow t.size name)).size := by
    rw [← hexchanged, size_markChanged, size_exchangeAt]
  have hplaced : u.Acyclic := hplanted.substitute? hlt (fun q hq hback => by
    rw [hparent, Option.some.injEq] at hq
    exact absurd (h.parent_lt hp) (Nat.not_lt.mpr (hq ▸ le_of_reaches_plant hr le_rfl hback))) hu
  refine hplaced.insertAt (hsize ▸ hlt) (hsize ▸ he.trans hlt) (fun hback => ?_) 1 ""
  -- a way from the node to its wrapper leads through its parent, which lists it
  have hsub : ∀ x y, u.Lists x y →
      (t.plant (elementRow t.size name)).Lists x y ∨ x = p ∧ y = t.size := fun x y hxy =>
    (lists_of_substitute? hu hxy).imp_right fun h =>
      ⟨(Option.some.inj (hparent.symm.trans h.1)).symm, h.2⟩
  rcases reflTransGen_of_added hsub hback with hold | ⟨hold, -⟩
  · exact absurd (reaches_plant_of_lt h he hold).1 (Nat.lt_irrefl _)
  · obtain ⟨l, gap, r, hslots, -⟩ := exists_slots_of_place? hq hi
    exact hplanted.not_reaches (mem_children_iff.mpr ⟨gap, by rw [hslots]; simp⟩) hold

/-- Wrapping an element closes no cycle. -/
theorem wrapElement (h : t.Acyclic) (tag : Tag) (wrapper : String) :
    (t.wrapElement tag wrapper).2.Acyclic := by
  rw [SyntaxTree.wrapElement]
  dsimp only
  split
  · exact h
  split
  · exact h
  split
  · exact h
  · next hparent =>
      obtain ⟨p, hp⟩ : ∃ p, t.parent tag.element = some p :=
        Option.ne_none_iff_exists'.mp fun hnone => hparent (Option.isNone_iff_eq_none.mpr hnone)
      rw [newElement_eq]
      dsimp only
      split
      · exact h.plant (standsAlone_elementRow _ _)
      · next u hu => exact h.wrap hp hu

end Acyclic

/-! ### Operations in any order -/

/-- The trees that operations lead to from a tree of one node, in any order and at any nodes, where
a node is put below another one only if it does not lead to it. -/
inductive Built : SyntaxTree → Prop where
  | singleton (kind : NodeKind) : Built (singleton kind)
  | make {t : SyntaxTree} (kind : NodeKind) : Built t → Built (t.make kind).2
  | makeLeaf {t : SyntaxTree} (kind : NodeKind) (text : String) :
      Built t → Built (t.makeLeaf kind text).2
  | newImport {t : SyntaxTree} (binding library : String) :
      Built t → Built (t.newImport binding library).2
  | newElement {t : SyntaxTree} (name : String) : Built t → Built (t.newElement name).2
  | newAttribute {t : SyntaxTree} (name value : String) :
      Built t → Built (t.newAttribute name value).2
  | assignRole {t : SyntaxTree} (id : NodeId) (role : Option Role) :
      Built t → Built (t.assignRole id role)
  | setEnd {t : SyntaxTree} (id : NodeId) (ending : String) : Built t → Built (t.setEnd id ending)
  | appendChild {t : SyntaxTree} {parent child : NodeId} (gap : String) :
      parent < t.size → child < t.size → parent ∉ t.descendants child →
      Built t → Built (t.appendChild parent child gap)
  | insertAt {t : SyntaxTree} {parent child : NodeId} (index : Nat) (gap : String) :
      parent < t.size → child < t.size → parent ∉ t.descendants child →
      Built t → Built (t.insertAt parent index child gap)
  | substitute? {t t' : SyntaxTree} {old new : NodeId} :
      new < t.size → (∀ parent, t.parent old = some parent → parent ∉ t.descendants new) →
      t.substitute? old new = some t' → Built t → Built t'
  | changeGap {t : SyntaxTree} (parent : NodeId) (index : Nat) (gap : String) :
      Built t → Built (t.changeGap parent index gap)
  | overwrite {t : SyntaxTree} (id : NodeId) (text : String) : Built t → Built (t.overwrite id text)
  | markChanged {t : SyntaxTree} (id : NodeId) : Built t → Built (t.markChanged id)
  | requireImport {t : SyntaxTree} (settings : TransformSettings) :
      Built t → Built (t.requireImport settings).2
  | addClass {t : SyntaxTree} (id : NodeId) (value : String) :
      Built t → Built (t.addClass id value).2
  | addProp {t : SyntaxTree} (tag : NodeId) (value : String) (synthesize : Bool) :
      Built t → Built (t.addProp tag value synthesize).2
  | wrapElement {t : SyntaxTree} (tag : Tag) (wrapper : String) :
      Built t → Built (t.wrapElement tag wrapper).2

namespace Built

/-- Modifications are among the operations. -/
lemma applyAt (h : Built t) (settings : TransformSettings) (m : Modification) (point : Point) :
    Built (t.applyAt settings m point).2 := by
  unfold SyntaxTree.applyAt
  split
  · exact h
  · exact h.addClass _ _
  · exact h
  · exact h.addProp _ _ _
  · exact h.addProp _ _ _
  · exact h.wrapElement _ _
  · exact h.wrapElement _ _

/-- A tree of one node lists nothing. -/
lemma acyclic_singleton (kind : NodeKind) : (SyntaxTree.singleton kind).Acyclic := by
  have hnode : ∀ x, ((SyntaxTree.singleton kind).node x).slots = []
      ∧ ((SyntaxTree.singleton kind).node x).parent = none := fun x => by
    cases x <;> exact ⟨rfl, rfl⟩
  have hnone : ∀ x y, ¬ (SyntaxTree.singleton kind).Lists x y := fun x y hxy => by
    rw [Lists, children, Node.children, (hnode x).1] at hxy
    cases hxy
  refine ⟨Nat.one_pos, fun hc => absurd hc (hnone _ _), fun {c p} hp => ?_, fun x hx => ?_⟩
  · rw [parent, (hnode c).2] at hp
    cases hp
  · obtain ⟨y, hxy, -⟩ := Relation.TransGen.head'_iff.mp hx
    exact hnone x y hxy

/-- No operation closes a circle. -/
theorem acyclic (h : Built t) : t.Acyclic := by
  -- One case for each operation: it lists the child it puts in, which does not reach the place it
  -- is put.
  induction h with
  | singleton kind => exact acyclic_singleton kind
  | make kind _ ih => exact ih.make kind
  | makeLeaf kind text _ ih => exact ih.makeLeaf kind text
  | newImport binding library _ ih => exact ih.newImport binding library
  | newElement name _ ih => exact ih.newElement name
  | newAttribute name value _ ih => exact ih.newAttribute name value
  | assignRole id role _ ih => exact ih.assignRole id role
  | setEnd id ending _ ih => exact ih.setEnd id ending
  | appendChild gap hp hc hback _ ih =>
      -- The check made by the walk is the one on lists, since the tree so far has no cycle.
      exact ih.appendChild hp hc (fun h => hback (ih.mem_descendants_iff_reaches.mpr h)) gap
  | insertAt index gap hp hc hback _ ih =>
      exact ih.insertAt hp hc (fun h => hback (ih.mem_descendants_iff_reaches.mpr h)) index gap
  | substitute? hnew hback ht' _ ih =>
      exact ih.substitute? hnew
        (fun p hp h => hback p hp (ih.mem_descendants_iff_reaches.mpr h)) ht'
  | changeGap parent index gap _ ih => exact ih.changeGap parent index gap
  | overwrite id text _ ih => exact ih.overwrite id text
  | markChanged id _ ih => exact ih.markChanged id
  | requireImport settings _ ih => exact ih.requireImport settings
  | addClass id value _ ih => exact ih.addClass id value
  | addProp tag value synthesize _ ih => exact ih.addProp tag value synthesize
  | wrapElement tag wrapper _ ih => exact ih.wrapElement tag wrapper

/-- A tree that was put together by hand has a gap in front of each child, which is so by the way
slots are laid out; no node of it is below itself, and every walk over it ends. -/
theorem walks_end (h : Built t) :
    (∀ id, (t.node id).gaps.length = (t.children id).length)
      ∧ (∀ id, ∀ c ∈ t.children id, id ∉ t.descendants c)
      ∧ t.Walkable := by
  refine ⟨fun id => ?_, fun id c hc hmem => ?_, h.acyclic.walkable⟩
  · rw [Node.gaps, children, Node.children, List.length_map, List.length_map]
  · exact h.acyclic.not_reaches hc (h.acyclic.mem_descendants_iff_reaches.mp hmem)

end Built

/-! ### Shared nodes and outdated parents -/

/-- Two nodes, each of which has the other one as its parent, though only one lists the other; both
are listed by the root as well. -/
def entangled : SyntaxTree :=
  let t := (((singleton .program).make .element).2.make .element).2
  let t := (t.appendChild root 1 "").appendChild root 2 " "
  ((t.appendChild 2 1 "").overwrite 2 "b").appendChild 1 2 ""

lemma built_entangled : Built entangled := by
  have hmade : Built (((singleton .program).make .element).2.make .element).2 :=
    .make _ (.make _ (.singleton _))
  have hfirst := @Built.appendChild _ root 1 "" (by decide) (by decide) (by decide) hmade
  have hlisted := @Built.appendChild _ root 2 " " (by decide) (by decide) (by decide) hfirst
  refine .appendChild "" (by decide) (by decide) (by decide) (.overwrite 2 "b" ?_)
  exact .appendChild "" (by decide) (by decide) (by decide) hlisted

/-- Walks up from either of them end, and so do walks down, which meet the shared node twice. -/
theorem walks_end_entangled :
    Built entangled ∧ entangled.parent 1 = some 2 ∧ entangled.parent 2 = some 1
      ∧ markChangedWithin? 4 entangled 1 = some (entangled.markChanged 1)
      ∧ entangled.isInsideWithin? "w" 3 2 = some false
      ∧ entangled.visit? 4 [root] = some [0, 1, 2, 2] := by
  obtain ⟨-, -, hwalks⟩ := built_entangled.walks_end
  have hmet : entangled.descendants root = [0, 1, 2, 2] := by decide
  have hvisit := hwalks.descendants root
  rw [hmet] at hvisit
  have hinside := hwalks.isInside 2 (by decide) "w"
  exact ⟨built_entangled, by decide, by decide, hwalks.markChanged 1 (by decide),
    hinside.trans (by decide), hvisit⟩

end Restyle.SyntaxTree
