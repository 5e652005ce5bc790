import Restyle.Proofs.Search.Attribute

/-!
Trees of the same text and shape, as a module and what is read from its text again.

* `Mirrors`: nodes go to nodes of the same kind, role and text, and their children to the children;
* `Mirrors.located`, `Mirrors.exists_located`: tags go to tags, and all come from some;
* `Mirrors.properties_eq`, `Mirrors.isMadeBy_eq`, `Mirrors.isInside`: what is found at a tag is
  found at the other.
-/

namespace Restyle.SyntaxTree

variable {t t' : SyntaxTree} {image : NodeId → NodeId}

/-- A tree has the shape of another one. A node that is written as a text of its own has no
children, and may have some where it goes to, with neither tags nor attributes among them. -/
structure Mirrors (t t' : SyntaxTree) (image : NodeId → NodeId) : Prop where
  root_eq : image root = root
  kind_eq : ∀ x ∈ t.descendants root, t'.kind (image x) = t.kind x
  role_eq : ∀ x ∈ t.descendants root, t'.role (image x) = t.role x
  text_eq : ∀ x ∈ t.descendants root, t'.text (image x) = t.text x
  children_eq : ∀ x ∈ t.descendants root, (t.node x).literal = none →
    t'.children (image x) = (t.children x).map image
  bare : ∀ x ∈ t.descendants root, (t.node x).literal ≠ none →
    t.kind x ≠ .element
      ∧ ∀ d ∈ t'.descendants (image x), (t'.kind d).isTag = false ∧ t'.kind d ≠ .attribute

/-- A tag that another one goes to. -/
structure Mirrored (image : NodeId → NodeId) (tag tag' : Tag) : Prop where
  node_eq : tag'.node = image tag.node
  element_eq : tag'.element = image tag.element
  name_eq : tag'.name = tag.name

namespace Mirrors

variable (hm : Mirrors t t' image)
include hm

/-! ### Children -/

omit hm in
lemma literal_eq_none_of_mem (h : t.Linked) {p c : NodeId} (hc : c ∈ t.children p) :
    (t.node p).literal = none := by
  cases hlit : (t.node p).literal with
  | none => rfl
  | some s =>
      rw [children, Node.children, h.slots_of_literal hlit] at hc
      exact absurd hc List.not_mem_nil

lemma image_mem_children (h : t.Linked) {p c : NodeId} (hp : p ∈ t.descendants root)
    (hc : c ∈ t.children p) : image c ∈ t'.children (image p) := by
  rw [hm.children_eq p hp (literal_eq_none_of_mem h hc)]
  exact List.mem_map_of_mem hc

/-- Nodes of the module go to nodes of the module. -/
lemma image_mem (h : t.Linked) (h' : t'.Linked) {x : NodeId} (hx : x ∈ t.descendants root) :
    image x ∈ t'.descendants root := by
  refine inductModule h (P := fun x => image x ∈ t'.descendants root) ?_
    (fun p c hp hc ih => ?_) hx
  · rw [hm.root_eq]
    exact mem_descendants_self h' h'.root_lt
  · exact child_mem_descendants h' ih (hm.image_mem_children h hp hc)

/-- Tags, attributes and elements have no text of their own. -/
lemma literal_eq_none (h : t.Linked) (h' : t'.Linked) {x : NodeId} (hx : x ∈ t.descendants root)
    (hk : (t.kind x).isTag = true ∨ t.kind x = .attribute ∨ t.kind x = .element) :
    (t.node x).literal = none := by
  by_contra hlit
  have hlt := lt_size_of_mem_descendants h' h'.root_lt (hm.image_mem h h' hx)
  obtain ⟨helement, hbare⟩ := hm.bare x hx hlit
  obtain ⟨htag, hattr⟩ := hbare (image x) (mem_descendants_self h' hlt)
  rw [hm.kind_eq x hx] at htag hattr
  rcases hk with hk | hk | hk
  · rw [hk] at htag
    cases htag
  · exact hattr hk
  · exact helement hk

/-- Every tag of the module comes from a node. -/
lemma exists_image (h : t.Linked) (h' : t'.Linked) {y : NodeId} (hy : y ∈ t'.descendants root)
    (hk : (t'.kind y).isTag = true) : ∃ x ∈ t.descendants root, image x = y := by
  suffices (∃ x ∈ t.descendants root, image x = y)
      ∨ ∀ d ∈ t'.descendants y, (t'.kind d).isTag = false by
    refine this.resolve_right fun hbare => ?_
    have hlt := lt_size_of_mem_descendants h' h'.root_lt hy
    rw [hbare y (mem_descendants_self h' hlt)] at hk
    cases hk
  refine inductModule h' (P := fun y => (∃ x ∈ t.descendants root, image x = y)
    ∨ ∀ d ∈ t'.descendants y, (t'.kind d).isTag = false)
    (.inl ⟨root, mem_descendants_self h h.root_lt, hm.root_eq⟩) (fun p c _ hc ih => ?_) hy
  have hbelow : ∀ d ∈ t'.descendants c, d ∈ t'.descendants p := fun d hd =>
    (mem_descendants_iff h' (lt_size_of_mem hc)).mpr (.inr ⟨c, hc, hd⟩)
  rcases ih with ⟨x, hx, rfl⟩ | hbare
  · by_cases hlit : (t.node x).literal = none
    · rw [hm.children_eq x hx hlit] at hc
      obtain ⟨d, hd, rfl⟩ := List.mem_map.mp hc
      exact .inl ⟨d, child_mem_descendants h hx hd, rfl⟩
    · exact .inr fun d hd => ((hm.bare x hx hlit).2 d (hbelow d hd)).1
  · exact .inr fun d hd => hbare d (hbelow d hd)

/-- The child in a role has the child in that role for its image. -/
lemma childIn?_eq (h : t.Linked) {x : NodeId} (hx : x ∈ t.descendants root)
    (hlit : (t.node x).literal = none) (r : Role) :
    t'.childIn? (image x) r = (t.childIn? x r).map image := by
  rw [childIn?, childIn?, hm.children_eq x hx hlit, List.find?_map]
  congr 1
  refine List.find?_congr fun c hc => ?_
  rw [Function.comp_apply, hm.role_eq c (child_mem_descendants h hx hc)]

/-- The images of the children that pass a test are those that pass it in the mirror. -/
lemma filter_eq {x : NodeId} (hx : x ∈ t.descendants root) (hlit : (t.node x).literal = none)
    {test test' : NodeId → Bool} (htest : ∀ c ∈ t.children x, test' (image c) = test c) :
    (t'.children (image x)).filter test' = ((t.children x).filter test).map image := by
  rw [hm.children_eq x hx hlit, List.filter_map]
  congr 1
  exact List.filter_congr htest

lemma childrenThatAre_eq (h : t.Linked) {x : NodeId} (hx : x ∈ t.descendants root)
    (hlit : (t.node x).literal = none) (k : NodeKind) :
    t'.childrenThatAre (image x) k = (t.childrenThatAre x k).map image :=
  hm.filter_eq hx hlit fun c hc => by rw [hm.kind_eq c (child_mem_descendants h hx hc)]

/-! ### Tags -/

variable (h : t.Shaped) (h' : t'.Shaped)
include h

lemma text_childIn? {x : NodeId} (hx : x ∈ t.descendants root)
    (hlit : (t.node x).literal = none) (r : Role) :
    (t'.childIn? (image x) r).map t'.text = (t.childIn? x r).map t.text := by
  rw [hm.childIn?_eq h.toLinked hx hlit, Option.map_map]
  cases hc : t.childIn? x r with
  | none => rfl
  | some c =>
      have hmem := child_mem_descendants h.toLinked hx (childIn?_spec hc).1
      rw [Option.map_some, Option.map_some, Function.comp_apply, hm.text_eq c hmem]

include h'

/-- The image of a tag's element is the element of its image. -/
lemma elementOfTag?_eq {x : NodeId} (hx : x ∈ t.descendants root) :
    t'.elementOfTag? (image x) = (t.elementOfTag? x).map image := by
  rw [elementOfTag?, elementOfTag?, hm.kind_eq x hx]
  cases hk : t.kind x with
  | openingTag =>
      obtain ⟨e, hp, -, hc⟩ := (h.regular x).element_of_opening hk
      have he := parent_mem_descendants h.toLinked hx hp
      dsimp only
      rw [hp, Option.map_some]
      exact h'.parent_of_mem (hm.image_mem_children h.toLinked he (childIn?_spec hc).1)
  | _ => rfl

/-- A tag goes to a tag of the same name. -/
lemma tagAt?_eq {x : NodeId} (hx : x ∈ t.descendants root) (hk : (t.kind x).isTag = true) :
    t'.tagAt? (image x) = (t.tagAt? x).map fun tag =>
      ⟨image x, image tag.element, tag.name, (t'.node (image x)).position⟩ := by
  rw [tagAt?, tagAt?, hm.elementOfTag?_eq h h' hx]
  have htext := hm.text_childIn? h hx (hm.literal_eq_none h.toLinked h'.toLinked hx (.inl hk)) .name
  cases hc : t.childIn? x .name with
  | none =>
      rw [hc] at htext
      rw [Option.map_eq_none_iff.mp htext]
      rfl
  | some c =>
      rw [hc, Option.map_some] at htext
      obtain ⟨c', hc', htext⟩ := Option.map_eq_some_iff.mp htext
      rw [hc']
      cases t.elementOfTag? x with
      | none => rfl
      | some e =>
          dsimp only [Option.map_some]
          rw [htext]

/-- Tags of the module go to tags of the module. -/
theorem located {tag : Tag} (ht : t.Located tag) :
    ∃ tag', t'.Located tag' ∧ Mirrored image tag tag' := by
  have htag := hm.tagAt?_eq h h' ht.mem ht.isTag
  rw [ht.tagAt, Option.map_some] at htag
  have hk : (t'.kind (image tag.node)).isTag = true := by
    rw [hm.kind_eq _ ht.mem]
    exact ht.isTag
  exact ⟨⟨image tag.node, image tag.element, tag.name, (t'.node (image tag.node)).position⟩,
    ⟨hm.image_mem h.toLinked h'.toLinked ht.mem, hk, htag⟩, rfl, rfl, rfl⟩

/-- Every tag of the module comes from one. -/
theorem exists_located {tag' : Tag} (ht : t'.Located tag') :
    ∃ tag, t.Located tag ∧ Mirrored image tag tag' := by
  obtain ⟨x, hx, heq⟩ := hm.exists_image h.toLinked h'.toLinked ht.mem ht.isTag
  have hk : (t.kind x).isTag = true := by
    rw [← hm.kind_eq x hx, heq]
    exact ht.isTag
  have htag := hm.tagAt?_eq h h' hx hk
  rw [heq, ht.tagAt] at htag
  obtain ⟨tag, hat, htag'⟩ := Option.map_eq_some_iff.mp htag.symm
  have hnode := (h.element_spec hk hat).1
  exact ⟨tag, ⟨hnode ▸ hx, hnode ▸ hk, hnode ▸ hat⟩, by rw [hnode, heq],
    (congrArg Tag.element htag').symm, (congrArg Tag.name htag').symm⟩

/-! ### Attributes -/

/-- What a tag holds, the other holds. -/
theorem properties_eq {x : NodeId} (hx : x ∈ t.descendants root) (hk : (t.kind x).isTag = true) :
    t'.properties (image x) = t.properties x := by
  rw [properties, properties,
    hm.childrenThatAre_eq h.toLinked hx
      (hm.literal_eq_none h.toLinked h'.toLinked hx (.inl hk)), List.map_map]
  refine List.map_congr_left fun a ha => ?_
  obtain ⟨hmem, hattr⟩ := mem_childrenThatAre.mp ha
  have hlive := child_mem_descendants h.toLinked hx hmem
  have hlit := hm.literal_eq_none h.toLinked h'.toLinked hlive (.inr (.inl hattr))
  have hname : t'.nameOfAttribute? (image a) = t.nameOfAttribute? a :=
    hm.text_childIn? h hlive hlit .name
  -- The two strings are at different nodes, with one text and so one quotation.
  have hstring : (t'.stringValue? (image a)).map Prod.snd = (t.stringValue? a).map Prod.snd := by
    rw [stringValue?, stringValue?, hm.childIn?_eq h.toLinked hlive hlit]
    cases hc : t.childIn? a .value with
    | none => rfl
    | some c =>
        have hlivec := child_mem_descendants h.toLinked hlive (childIn?_spec hc).1
        dsimp only [Option.map_some]
        rw [quotation?, quotation?, hm.kind_eq c hlivec, hm.text_eq c hlivec, Option.map_map,
          Option.map_map]
        rfl
  rw [Function.comp_apply, propertyOf, propertyOf, hname, hstring]

/-- The mirror has the same place behind the attributes. -/
lemma attributesEnd?_eq {x : NodeId} (hx : x ∈ t.descendants root)
    (hk : (t.kind x).isTag = true) : t'.attributesEnd? (image x) = t.attributesEnd? x := by
  have hlive : ∀ c ∈ t.children x, c ∈ t.descendants root := fun c hc =>
    child_mem_descendants h.toLinked hx hc
  have hends : ∀ c ∈ t.children x, t'.endsAttributes (image c) = t.endsAttributes c :=
    fun c hc => by
      rw [endsAttributes, endsAttributes, hm.kind_eq c (hlive c hc), hm.text_eq c (hlive c hc)]
  have hchildren := hm.children_eq x hx (hm.literal_eq_none h.toLinked h'.toLinked hx (.inl hk))
  have hname : (t'.children (image x)).findIdx? (fun c => t'.role c = some .name)
      = (t.children x).findIdx? fun c => t.role c = some .name := by
    rw [hchildren, List.findIdx?_map]
    exact Amends.findIdx?_congr fun c hc => by rw [Function.comp_apply, hm.role_eq c (hlive c hc)]
  rw [attributesEnd?, attributesEnd?, hname, hchildren]
  cases (t.children x).findIdx? fun c => t.role c = some .name with
  | none => rfl
  | some name =>
      dsimp only
      rw [← List.map_drop, List.findIdx?_map]
      congr 1
      exact Amends.findIdx?_congr fun c hc => hends c (List.mem_of_mem_drop hc)

/-! ### Elements -/

/-- The image of the only element is the only element of the image. -/
lemma onlyElement?_eq {x : NodeId} (hx : x ∈ t.descendants root) :
    t'.onlyElement? (image x) = (t.onlyElement? x).map image := by
  rw [onlyElement?, onlyElement?, hm.kind_eq x hx]
  split
  · next hk =>
      have hlive : ∀ c ∈ t.children x, c ∈ t.descendants root := fun c hc =>
        child_mem_descendants h.toLinked hx hc
      have hcontent : (t'.children (image x)).filter t'.isContent
          = ((t.children x).filter t.isContent).map image :=
        hm.filter_eq hx
          (hm.literal_eq_none h.toLinked h'.toLinked hx (.inr (.inr hk))) fun c hc => by
          rw [isContent, isContent, hm.kind_eq c (hlive c hc), hm.role_eq c (hlive c hc),
            hm.text_eq c (hlive c hc)]
      rw [hcontent]
      -- There is no content, one piece of it, or more than one.
      cases hfilter : (t.children x).filter t.isContent with
      | nil => rfl
      | cons c rest =>
          cases rest with
          | nil =>
              have hc : c ∈ t.children x :=
                List.mem_of_mem_filter (hfilter ▸ List.mem_singleton_self c)
              rw [List.map_singleton]
              dsimp only
              rw [hm.kind_eq c (hlive c hc)]
              split
              · rfl
              · rfl
          | cons d rest => rfl
  · rfl

omit hm h' in
lemma mem_of_onlyElement? {x c : NodeId} (hx : x ∈ t.descendants root)
    (hc : t.onlyElement? x = some c) : c ∈ t.descendants root :=
  child_mem_descendants h.toLinked hx (onlyElement?_mem hc)

omit hm h' in
/-- Both ends of a chain are in the module, or neither is. -/
lemma mem_iff_of_chain {p c : NodeId} (hc : t.Chain p c) :
    p ∈ t.descendants root ↔ c ∈ t.descendants root := by
  have hstep : ∀ {p c : NodeId}, t.onlyElement? p = some c →
      (p ∈ t.descendants root ↔ c ∈ t.descendants root) := fun {p c} hpc =>
    ⟨fun hp => mem_of_onlyElement? h hp hpc, fun hc =>
      parent_mem_descendants h.toLinked hc (h.parent_of_mem (onlyElement?_mem hpc))⟩
  induction hc with
  | single hpc => exact hstep hpc
  | tail _ hcd ih => exact ih.trans (hstep hcd)

/-- Chains go to chains, and come from some. -/
lemma chain_iff {x : NodeId} (hx : x ∈ t.descendants root) {y : NodeId} :
    t'.Chain (image x) y ↔ ∃ c ∈ t.descendants root, t.Chain x c ∧ image c = y := by
  constructor
  · intro hchain
    induction hchain with
    | single hc =>
        rw [hm.onlyElement?_eq h h' hx] at hc
        obtain ⟨c, honly, rfl⟩ := Option.map_eq_some_iff.mp hc
        exact ⟨c, mem_of_onlyElement? h hx honly, .single honly, rfl⟩
    | tail _ hd ih =>
        obtain ⟨c, hc, hchain, rfl⟩ := ih
        rw [hm.onlyElement?_eq h h' hc] at hd
        obtain ⟨d, honly, rfl⟩ := Option.map_eq_some_iff.mp hd
        exact ⟨d, mem_of_onlyElement? h hc honly, hchain.tail honly, rfl⟩
  · rintro ⟨c, -, hchain, rfl⟩
    induction hchain using Relation.TransGen.head_induction_on with
    | single hc => exact .single (by rw [hm.onlyElement?_eq h h' hx, hc]; rfl)
    | head hc _ ih =>
        exact .head (by rw [hm.onlyElement?_eq h h' hx, hc]; rfl) (ih (mem_of_onlyElement? h hx hc))

/-- An element and its image have the same name. -/
lemma nameOfElement?_eq {x : NodeId} (hx : x ∈ t.descendants root) :
    t'.nameOfElement? (image x) = t.nameOfElement? x := by
  have hname : ∀ g ∈ t.descendants root, (t.kind g).isTag = true →
      (t'.tagAt? (image g)).map Tag.name = (t.tagAt? g).map Tag.name := fun g hg hk => by
    rw [hm.tagAt?_eq h h' hg hk, Option.map_map]
    rfl
  rw [nameOfElement?, nameOfElement?, tagOfElement?, tagOfElement?, hm.kind_eq x hx]
  cases hk : t.kind x with
  | selfClosingElement => exact hname x hx (by rw [hk]; rfl)
  | element =>
      dsimp only
      rw [hm.childIn?_eq h.toLinked hx
        (hm.literal_eq_none h.toLinked h'.toLinked hx (.inr (.inr hk)))]
      cases hc : t.childIn? x .openTag with
      | none => rfl
      | some g =>
          have hopening := (h.regular x).opening_of_element hk g hc
          exact hname g (child_mem_descendants h.toLinked hx (childIn?_spec hc).1)
            (by rw [hopening]; rfl)
  | _ => rfl

/-- What was made by a modification, goes to what was made by it. -/
theorem isMadeBy_eq {x : NodeId} (hx : x ∈ t.descendants root) (m : Modification) :
    t'.isMadeBy (image x) m = t.isMadeBy x m := by
  have hlt := lt_size_of_mem_descendants h.toLinked h.root_lt hx
  have hlt' := lt_size_of_mem_descendants h'.toLinked h'.root_lt
    (hm.image_mem h.toLinked h'.toLinked hx)
  rw [isMadeBy, isMadeBy, Bool.eq_iff_iff, Bool.and_eq_true, Bool.and_eq_true,
    h.wraps_iff hlt, h'.wraps_iff hlt', hm.nameOfElement?_eq h h' hx]
  refine and_congr_right fun _ => and_congr_right fun _ => and_congr_right fun _ => ?_
  constructor
  · rintro ⟨c', hchain, hname⟩
    obtain ⟨c, hc, hchainc, rfl⟩ := (hm.chain_iff h h' hx).mp hchain
    rw [hm.nameOfElement?_eq h h' hc] at hname
    exact ⟨c, hchainc, hname⟩
  · rintro ⟨c, hchain, hname⟩
    have hc := (mem_iff_of_chain h hchain).mp hx
    refine ⟨image c, (hm.chain_iff h h' hx).mpr ⟨c, hc, hchain, rfl⟩, ?_⟩
    rw [hm.nameOfElement?_eq h h' hc]
    exact hname

/-- What is inside a wrapper, goes to what is inside one. -/
theorem isInside {x : NodeId} (hx : x ∈ t.descendants root) {wrapper : String}
    (hi : t.isInside x wrapper = true) : t'.isInside (image x) wrapper = true := by
  obtain ⟨p, hchain, hname⟩ := (h.isInside_iff x wrapper).mp hi
  have hp := (mem_iff_of_chain h hchain).mpr hx
  exact (h'.isInside_iff _ wrapper).mpr ⟨image p, (hm.chain_iff h h' hp).mpr ⟨x, hx, hchain, rfl⟩,
    (hm.nameOfElement?_eq h h' hp).trans hname⟩

omit h' in
/-- An import goes to one from the same library. -/
theorem importOf?_isSome {library : String} (hi : (t.importOf? library).isSome = true) :
    (t'.importOf? library).isSome = true := by
  obtain ⟨id, hid, hk, hs⟩ := importOf?_isSome_iff.mp hi
  have hroot := mem_descendants_self h.toLinked h.root_lt
  have hlive := child_mem_descendants h.toLinked hroot hid
  refine importOf?_isSome_iff.mpr ⟨image id, ?_, (hm.kind_eq id hlive).trans hk, ?_⟩
  · have := hm.image_mem_children h.toLinked hroot hid
    rwa [hm.root_eq] at this
  · rw [importSource?] at hs
    obtain ⟨source, hsource, hq⟩ := Option.bind_eq_some_iff.mp hs
    have hmem := (childIn?_spec hsource).1
    have hlives := child_mem_descendants h.toLinked hlive hmem
    rw [importSource?, hm.childIn?_eq h.toLinked hlive (literal_eq_none_of_mem h.toLinked hmem),
      hsource, Option.map_some, Option.bind_some, quotation?, hm.kind_eq _ hlives,
      hm.text_eq _ hlives]
    exact hq

end Mirrors

end Restyle.SyntaxTree
