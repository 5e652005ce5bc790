import Restyle.Proofs.Change.Effect

/-!
Points that are located in a tree: which nodes of the tree they name.

* `Located`, `mem_tagsNamed`: the tags that a search by name finds;
* `Unwrapped.unchanged`: at such a tag, a wrapper that is not put leaves no trace;
* `inductModule`: a property holds of every node of the module once it is handed down from the root.
-/

namespace Restyle.SyntaxTree

variable {t : SyntaxTree}

/-- A tag is read at a node with a name and an element. -/
lemma tagAt?_eq_some {id : NodeId} {tag : Tag} :
    t.tagAt? id = some tag
      ↔ ∃ name element, t.childIn? id .name = some name ∧ t.elementOfTag? id = some element
        ∧ tag = ⟨id, element, t.text name, (t.node id).position⟩ := by
  rw [tagAt?]
  constructor
  · intro h
    split at h
    · next name element hname helement =>
        exact ⟨name, element, hname, helement, (Option.some.inj h).symm⟩
    · cases h
  · rintro ⟨name, element, hname, helement, rfl⟩
    rw [hname, helement]

/-- A tag of an element in the module. -/
structure Located (t : SyntaxTree) (tag : Tag) : Prop where
  mem : tag.node ∈ t.descendants root
  isTag : (t.kind tag.node).isTag = true
  tagAt : t.tagAt? tag.node = some tag

/-- The tags named are the located ones whose name contains what is looked for. -/
lemma mem_tagsNamed {target : String} {tag : Tag} :
    tag ∈ t.tagsNamed target
      ↔ needle target ≠ "" ∧ t.Located tag ∧ nameContains tag.name (needle target) = true := by
  rw [tagsNamed]
  split
  · next hempty =>
      simp only [List.not_mem_nil, false_iff, not_and]
      exact fun h => absurd (String.isEmpty_iff.mp hempty) h
  · next hempty =>
      rw [List.mem_filterMap]
      constructor
      · rintro ⟨id, hid, htag⟩
        obtain ⟨hmem, hkind⟩ := List.mem_filter.mp hid
        obtain ⟨hat, hname⟩ := Option.filter_eq_some_iff.mp htag
        obtain ⟨name, element, -, -, rfl⟩ := tagAt?_eq_some.mp hat
        exact ⟨fun h => hempty (String.isEmpty_iff.mpr h), ⟨hmem, hkind, hat⟩, hname⟩
      · rintro ⟨-, ⟨hmem, hkind, hat⟩, hname⟩
        exact ⟨_, List.mem_filter.mpr ⟨hmem, hkind⟩,
          Option.filter_eq_some_iff.mpr ⟨hat, hname⟩⟩

lemma exists_of_mem_points {classAttributes : List String} {m : Modification} {point : Point}
    (h : point ∈ t.points classAttributes m) :
    ∃ tag, t.Located tag ∧ point = t.pointAt classAttributes m.action tag := by
  obtain ⟨tag, htag, rfl⟩ := List.mem_map.mp h
  exact ⟨tag, (mem_tagsNamed.mp htag).2.1, rfl⟩

/-- The attribute of a tag that holds its classes is below the tag. -/
lemma mem_of_findAttribute? {tag a : NodeId} {test : String → Bool}
    (h : t.findAttribute? tag test = some a) : a ∈ t.children tag ∧ t.kind a = .attribute := by
  have hmem := List.mem_of_find?_eq_some h
  rw [childrenThatAre, List.mem_filter, decide_eq_true_eq] at hmem
  exact hmem

/-- The element of a tag is the tag itself or holds it. -/
lemma Located.element_mem (hl : t.Linked) (hroot : t.kind root = .program) {tag : Tag}
    (h : t.Located tag) : tag.element ∈ t.descendants root := by
  obtain ⟨name, element, -, helement, heq⟩ := tagAt?_eq_some.mp h.tagAt
  have hel : tag.element = element := congrArg Tag.element heq
  rw [hel]
  rw [elementOfTag?] at helement
  split at helement
  · cases helement
    exact h.mem
  · next hkind =>
      rcases exists_parent_of_mem_descendants hl hl.root_lt h.mem with hnode | ⟨p, hp, hc⟩
      · rw [hnode, hroot] at hkind
        cases hkind
      · rw [hl.parent_of_mem hc] at helement
        cases helement
        exact hp
  · cases helement

/-- What holds a node of the module is in the module. -/
lemma parent_mem_descendants (hl : t.Linked) {x p : NodeId} (hx : x ∈ t.descendants root)
    (hp : t.parent x = some p) : p ∈ t.descendants root := by
  rcases exists_parent_of_mem_descendants hl hl.root_lt hx with rfl | ⟨q, hq, hc⟩
  · rw [hl.parent_root] at hp
    cases hp
  · rw [hl.parent_of_mem hc, Option.some.injEq] at hp
    exact hp ▸ hq

/-- What a node of the module lists is in the module. -/
lemma child_mem_descendants (hl : t.Linked) {x c : NodeId} (hx : x ∈ t.descendants root)
    (hc : c ∈ t.children x) : c ∈ t.descendants root :=
  mem_descendants_of_mem hl hl.root_lt hx hc

/-- A node of the module is listed by its parent. -/
lemma mem_children_of_parent (hl : t.Linked) {x p : NodeId} (hx : x ∈ t.descendants root)
    (hp : t.parent x = some p) : x ∈ t.children p := by
  rcases exists_parent_of_mem_descendants hl hl.root_lt hx with rfl | ⟨q, -, hq⟩
  · rw [hl.parent_root] at hp
    cases hp
  · rw [hl.parent_of_mem hq, Option.some.injEq] at hp
    exact hp ▸ hq

/-- A node of the module has a place below its parent that a new node can take. -/
lemma substitute?_plant_ne_none (hl : t.Linked) {x p : NodeId} (hx : x ∈ t.descendants root)
    (hp : t.parent x = some p) (row : List Node) (new : NodeId) :
    (t.plant row).substitute? x new ≠ none := by
  have hmem := mem_children_of_parent hl hx hp
  have hparent : (t.plant row).parent x = some p := by
    rw [parent, node_plant_of_lt (hl.lt_of_mem hmem)]
    exact hp
  have hchild : x ∈ (t.plant row).children p := by
    rw [children, node_plant_of_lt (hl.parent_lt hp)]
    exact hmem
  obtain ⟨i, hi⟩ := exists_place? hparent hchild
  rw [substitute?, hparent, hi]
  exact Option.some_ne_none _

/-- Where no wrapper is put around the element of a tag of the module, the tree stays as it is. -/
lemma Unwrapped.unchanged {tag : Tag} {name : String} {r : Outcome × SyntaxTree}
    (hun : Unwrapped t tag name r) (h : t.Document) (ht : t.Located tag) : r.2 = t := by
  cases hun with
  | nameless _ => rfl
  | present _ => rfl
  | alone _ => rfl
  | placeless hp hnone =>
      exact absurd hnone
        (substitute?_plant_ne_none h.toLinked (ht.element_mem h.toLinked h.kind_root) hp _ _)

/-- A property holds of every node of the module once it holds of the root and is handed down. -/
lemma inductModule (hl : t.Linked) {P : NodeId → Prop} (base : P root)
    (step : ∀ p c, p ∈ t.descendants root → c ∈ t.children p → P p → P c) {x : NodeId}
    (hx : x ∈ t.descendants root) : P x := by
  obtain ⟨n, hn⟩ := hl.exists_level x
  induction hn with
  | top htop =>
      rcases exists_parent_of_mem_descendants hl hl.root_lt hx with rfl | ⟨p, -, hp⟩
      · exact base
      · rw [hl.parent_of_mem hp] at htop
        cases htop
  | under hpar _ ih =>
      rcases exists_parent_of_mem_descendants hl hl.root_lt hx with rfl | ⟨p, hmem, hp⟩
      · exact base
      · rw [hl.parent_of_mem hp, Option.some.injEq] at hpar
        subst hpar
        exact step p _ hmem hp (ih hmem)

end Restyle.SyntaxTree
