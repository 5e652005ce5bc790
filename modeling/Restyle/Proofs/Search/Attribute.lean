import Restyle.Proofs.Change.Amending
import Restyle.Proofs.Change.Property
import Restyle.Proofs.Search.Growth

/-!
The attributes of the tags of a module.

* `propertyOf`, `properties`: what an attribute and a tag hold;
* `Spared`: a tag whose attributes a change leaves alone;
* `Shaped.properties_overwrite`, `Grafted.properties_attribute`: what a change of a string and a new
  attribute make of the tag they are about, while all other tags are spared;
* `attribute?_overwrite`, `Grafted.attribute?_new`: which attribute is then the first one of a name.
-/

namespace Restyle.SyntaxTree

variable {t t' t'' : SyntaxTree}

/-- The name and the string of an attribute. -/
def propertyOf (t : SyntaxTree) (a : NodeId) : Property :=
  ⟨t.nameOfAttribute? a, (t.stringValue? a).map Prod.snd⟩

/-- What the attributes of a tag hold, in order. -/
def properties (t : SyntaxTree) (tag : NodeId) : List Property :=
  (t.childrenThatAre tag .attribute).map t.propertyOf

lemma mem_childrenThatAre {p c : NodeId} {kind : NodeKind} :
    c ∈ t.childrenThatAre p kind ↔ c ∈ t.children p ∧ t.kind c = kind := by
  rw [childrenThatAre, List.mem_filter, decide_eq_true_eq]

/-- A tag whose attributes are as before. -/
structure Spared (t t' : SyntaxTree) (tag : NodeId) : Prop where
  attributes_eq : t'.childrenThatAre tag .attribute = t.childrenThatAre tag .attribute
  propertyOf_eq : ∀ a ∈ t.childrenThatAre tag .attribute, t'.propertyOf a = t.propertyOf a

namespace Spared

variable {tag : NodeId}

/-- A tag is spared as long as nothing happens. -/
theorem refl (t : SyntaxTree) (tag : NodeId) : Spared t t tag :=
  ⟨rfl, fun _ _ => rfl⟩

/-- A tag stays spared along two changes. -/
theorem trans (h : Spared t t' tag) (h' : Spared t' t'' tag) : Spared t t'' tag where
  attributes_eq := h'.attributes_eq.trans h.attributes_eq
  propertyOf_eq := fun a ha =>
    (h'.propertyOf_eq a (h.attributes_eq ▸ ha)).trans (h.propertyOf_eq a ha)

lemma properties_eq (h : Spared t t' tag) : t'.properties tag = t.properties tag := by
  rw [properties, properties, h.attributes_eq]
  exact List.map_congr_left fun a ha => h.propertyOf_eq a ha

/-- A spared tag finds the attributes it found. -/
lemma findAttribute?_eq (h : Spared t t' tag) (test : String → Bool) :
    t'.findAttribute? tag test = t.findAttribute? tag test := by
  rw [findAttribute?, findAttribute?, h.attributes_eq]
  refine List.find?_congr fun a ha => ?_
  have hname : t'.nameOfAttribute? a = t.nameOfAttribute? a :=
    congrArg Property.name (h.propertyOf_eq a ha)
  rw [hname]

end Spared

/-! ### Searches by name -/

/-- The first attribute that passes a test has the first name that does. -/
lemma findAttribute?_eq_bind (t : SyntaxTree) (tag : NodeId) (test : String → Bool) :
    t.findAttribute? tag test
      = (((t.properties tag).map Property.name).findIdx? fun name => name.any test).bind
          fun i => (t.childrenThatAre tag .attribute)[i]? := by
  have hnames : (t.properties tag).map Property.name
      = (t.childrenThatAre tag .attribute).map t.nameOfAttribute? := by
    rw [properties, List.map_map]
    rfl
  rw [findAttribute?, hnames, List.findIdx?_map, List.find?_eq_bind_findIdx?_getElem?]
  rfl

/-- The first attribute of a name, and what it holds. -/
lemma find?_properties (t : SyntaxTree) (tag : NodeId) (name : String) :
    (t.properties tag).find? (fun p => p.name = some name)
      = (t.attribute? tag name).map t.propertyOf := by
  rw [properties, List.find?_map, attribute?, findAttribute?]
  congr 2
  funext a
  rw [Function.comp_apply, propertyOf]
  cases t.nameOfAttribute? a with
  | none => rfl
  | some n =>
      rw [Option.any_some, Bool.eq_iff_iff]
      simp

/-- An assignment picks the properties of its name. -/
lemma picks_of_assigned {classAttributes : List String} {m : Modification} {a : Assignment}
    (h : assigned? m = some a) :
    Property.picks classAttributes m = fun name => name.any (· == a.name) := by
  funext name
  rw [Property.picks, (assigned?_spec h).1, h]
  cases name with
  | none => simp
  | some name => simp [Bool.beq_eq_decide_eq]

lemma picks_of_addClass {classAttributes : List String} {m : Modification}
    (h : m.action = .addClass) :
    Property.picks classAttributes m = fun name => name.any classAttributes.contains := by
  funext name
  rw [Property.picks, h]

/-! ### Edits that touch no string -/

namespace Amends

variable {place : NodeId} {heir : NodeId → NodeId}

/-- The string of an attribute stays if the edit is not in it. -/
lemma stringValue?_eq (ha : Amends t t' place heir) (h : t.Shaped) {a : NodeId} (hlt : a < t.size)
    (hk : t.kind a = .attribute)
    (hplace : ∀ literal, t.childIn? a .value = some literal → t.kind literal = .stringLiteral →
      ¬ t.Under literal place) : t'.stringValue? a = t.stringValue? a := by
  rw [stringValue?, stringValue?, ha.childIn?_eq h hlt (by rw [hk]; decide) (by decide)]
  cases hc : t.childIn? a .value with
  | none => rfl
  | some literal =>
      have hl := h.lt_of_mem (childIn?_spec hc).1
      rw [Option.map_some]
      dsimp only
      by_cases hheir : heir literal = literal
      · rw [hheir, quotation?, quotation?, ha.kind_eq literal hl]
        split
        · next hstring =>
            rw [ha.onlyAt.text_eq h.toWellFormed ha.document.toWellFormed hl
              (hplace literal hc hstring)]
        · rfl
      -- A value that moved is an element, so neither it nor its wrapper is a string.
      · have hm := ha.moved literal hheir
        have hstring : t.kind literal ≠ .stringLiteral := fun heq => by
          have := hm.isElement
          rw [heq] at this
          cases this
        rw [quotation?, quotation?, if_neg (by rw [hm.kind_new]; decide), if_neg hstring]
        rfl

lemma propertyOf_eq (ha : Amends t t' place heir) (h : t.Shaped) {a : NodeId} (hlt : a < t.size)
    (hk : t.kind a = .attribute)
    (hplace : ∀ literal, t.childIn? a .value = some literal → t.kind literal = .stringLiteral →
      ¬ t.Under literal place) : t'.propertyOf a = t.propertyOf a := by
  rw [propertyOf, propertyOf, ha.nameOfAttribute?_eq h hlt hk, ha.stringValue?_eq h hlt hk hplace]

/-- The attributes of a tag that gets none stay. -/
lemma attributes_of_kept (ha : Amends t t' place heir) (h : t.Shaped) {tag : NodeId}
    (hkept : t'.children tag = (t.children tag).map heir) :
    t'.childrenThatAre tag .attribute = t.childrenThatAre tag .attribute := by
  have hkind : ∀ c ∈ t.children tag, decide (t'.kind (heir c) = .attribute)
      = decide (t.kind c = .attribute) := fun c hc => by
    by_cases hheir : heir c = c
    · rw [hheir, ha.kind_eq c (h.lt_of_mem hc)]
    · have hm := ha.moved c hheir
      have hattr : t.kind c ≠ .attribute := fun heq => by
        have := hm.isElement
        rw [heq] at this
        cases this
      rw [hm.kind_new, decide_eq_false hattr]
      rfl
  have hfilter : (t.children tag).filter ((fun c => decide (t'.kind c = .attribute)) ∘ heir)
      = t.childrenThatAre tag .attribute := List.filter_congr hkind
  rw [childrenThatAre, hkept, List.filter_map, hfilter]
  refine (List.map_congr_left fun c hc => ?_).trans (List.map_id _)
  have hk := (mem_childrenThatAre.mp hc).2
  exact ha.heir_of_not_element (by rw [hk]; rfl)

/-- A tag is spared by an edit that gives it no attribute and is in none of its strings. -/
lemma spared (ha : Amends t t' place heir) (h : t.Shaped) {tag : NodeId}
    (hkept : t'.children tag = (t.children tag).map heir)
    (hplace : ∀ a ∈ t.childrenThatAre tag .attribute, ∀ literal,
      t.childIn? a .value = some literal → t.kind literal = .stringLiteral →
        ¬ t.Under literal place) : Spared t t' tag where
  attributes_eq := ha.attributes_of_kept h hkept
  propertyOf_eq := fun a hmem => by
    obtain ⟨hc, hk⟩ := mem_childrenThatAre.mp hmem
    exact ha.propertyOf_eq h (h.lt_of_mem hc) hk (hplace a hmem)

end Amends

/-! ### Strings that are overwritten -/

/-- A quoted text is taken out of its quotes. -/
lemma quotationOf?_quoted {quote : Char} (h : quote = '"' ∨ quote = '\'') (inner : String) :
    quotationOf? (quoted quote inner) = some (quote, inner) := by
  have hlist : (quoted quote inner).toList = quote :: (inner.toList ++ [quote]) := by
    rw [quoted, String.toList_append, String.toList_append]
    simp
  rw [quotationOf?, hlist]
  dsimp only
  rw [List.getLast?_concat, List.dropLast_concat, String.ofList_toList, if_pos]
  rcases h with rfl | rfl <;> simp

/-- What is taken out of quotes was quoted. -/
lemma quoted_of_quotationOf? {text inner : String} {quote : Char}
    (h : quotationOf? text = some (quote, inner)) :
    (quote = '"' ∨ quote = '\'') ∧ text = quoted quote inner := by
  rw [quotationOf?] at h
  split at h
  · next first rest hlist =>
      split at h
      · next hquote =>
          rw [Option.some.injEq, Prod.mk.injEq] at h
          obtain ⟨rfl, rfl⟩ := h
          rw [Bool.and_eq_true, Bool.or_eq_true, decide_eq_true_eq, decide_eq_true_eq,
            decide_eq_true_eq] at hquote
          obtain ⟨hfirst, hlast⟩ := hquote
          refine ⟨hfirst, String.toList_inj.mp ?_⟩
          rw [hlist, quoted, String.toList_append, String.toList_append, String.toList_ofList,
            String.toList_singleton, List.append_assoc, List.dropLast_append_getLast? _ hlast]
          rfl
      · cases h
  · cases h

section Overwritten

variable (h : t.Shaped) {a literal : NodeId} {q : Char} {v : String}
  (ha : t.kind a = .attribute) (hv : t.stringValue? a = some (literal, q, v))
include h ha hv

/-- The string of another attribute is another one. -/
lemma not_under_of_ne {b literal' : NodeId} (hne : b ≠ a)
    (hb : t.childIn? b .value = some literal') (hk : t.kind literal' = .stringLiteral) :
    ¬ t.Under literal' literal := by
  have hp := h.parent_of_mem (stringValue?_spec hv).1
  intro hunder
  cases hunder with
  | refl =>
      have hp' := h.parent_of_mem (childIn?_spec hb).1
      rw [hp, Option.some.injEq] at hp'
      exact hne hp'.symm
  | step hp' hunder =>
      rw [hp, Option.some.injEq] at hp'
      subst hp'
      exact ((h.regular literal').quiet_string hk).not_under_attribute ha hunder

omit h ha in
lemma children_overwrite {x : NodeId} (hx : t.kind x ≠ .stringLiteral) (s : String) :
    (t.overwrite literal s).children x = (t.children x).map id := by
  have hne : x ≠ literal := fun heq => hx (heq ▸ (stringValue?_spec hv).2.2.1)
  rw [children, node_overwrite_of_ne hne, List.map_id]
  rfl

/-- Other tags are spared when a string is overwritten. -/
theorem spared_overwrite {tag : NodeId} (htag : (t.kind tag).isTag = true)
    (hmem : a ∉ t.childrenThatAre tag .attribute) (s : String) :
    Spared t (t.overwrite literal s) tag := by
  refine (h.amends_overwrite ha hv s).spared h
    (children_overwrite hv (fun hk => by rw [hk] at htag; cases htag) s)
    fun b hb literal' hc hk => not_under_of_ne h ha hv (fun heq => hmem (heq ▸ hb)) hc hk

/-- The string of the attribute is the one written. -/
lemma stringValue?_overwrite {quote : Char} (hquote : quote = '"' ∨ quote = '\'') (s : String) :
    (t.overwrite literal (quoted quote s)).stringValue? a = some (literal, quote, s) := by
  obtain ⟨hmem, hchild, hk, -⟩ := stringValue?_spec hv
  have hamends := h.amends_overwrite ha hv (quoted quote s)
  have hlt := lt_size_of_mem hmem
  have hlit := h.lt_of_mem hmem
  have htext : (t.overwrite literal (quoted quote s)).text literal = quoted quote s := by
    refine hamends.document.text_of_literal ?_
    rw [node_overwrite hlit, if_pos rfl]
  rw [stringValue?, hamends.childIn?_eq h hlt (by rw [ha]; decide) (by decide), hchild,
    Option.map_some, id]
  dsimp only
  rw [quotation?, hamends.kind_eq literal hlit, if_pos hk, htext, quotationOf?_quoted hquote]
  rfl

/-- The property of the attribute is the one before, with the string written. -/
lemma propertyOf_overwrite {quote : Char} (hquote : quote = '"' ∨ quote = '\'') (s : String) :
    (t.overwrite literal (quoted quote s)).propertyOf a
      = { t.propertyOf a with string := some (quote, s) } := by
  have hlt := lt_size_of_mem (stringValue?_spec hv).1
  rw [propertyOf, propertyOf, stringValue?_overwrite h ha hv hquote s,
    (h.amends_overwrite ha hv _).nameOfAttribute?_eq h hlt ha]
  rfl

/-- The tag of the attribute has the new string. -/
theorem properties_overwrite {tag : NodeId} {i : Nat} (htag : (t.kind tag).isTag = true)
    (hi : (t.childrenThatAre tag .attribute)[i]? = some a) {quote : Char}
    (hquote : quote = '"' ∨ quote = '\'') (s : String) :
    (t.overwrite literal (quoted quote s)).properties tag
      = (t.properties tag).modify i fun p => { p with string := some (quote, s) } := by
  have hamends := h.amends_overwrite ha hv (quoted quote s)
  have hattrs := hamends.attributes_of_kept h (children_overwrite hv
    (fun hk => by rw [hk] at htag; cases htag) _)
  have hnodup : (t.childrenThatAre tag .attribute).Nodup := (h.nodup tag).filter _
  rw [properties, properties, hattrs]
  refine List.ext_getElem? fun j => ?_
  by_cases hij : i = j
  · subst hij
    rw [List.getElem?_modify_eq, List.getElem?_map, List.getElem?_map, hi, Option.map_some,
      propertyOf_overwrite h ha hv hquote s]
    rfl
  -- The other attributes are other nodes, whose values are not below the one written.
  · rw [List.getElem?_modify_ne _ _ hij, List.getElem?_map, List.getElem?_map]
    cases hj : (t.childrenThatAre tag .attribute)[j]? with
    | none => rfl
    | some b =>
        have hb := mem_childrenThatAre.mp (List.mem_of_getElem? hj)
        have hne : b ≠ a := fun heq => by
          subst heq
          exact hij ((List.getElem?_inj (List.getElem?_eq_some_iff.mp hi).1 hnodup).mp
            (hi.trans hj.symm))
        rw [Option.map_some, Option.map_some, hamends.propertyOf_eq h (h.lt_of_mem hb.1) hb.2
          fun literal' hc hk => not_under_of_ne h ha hv hne hc hk]

/-- The attributes of a tag are found by their names as before. -/
lemma attribute?_overwrite {tag : NodeId} (htag : (t.kind tag).isTag = true) (name s : String) :
    (t.overwrite literal s).attribute? tag name = t.attribute? tag name := by
  have hamends := h.amends_overwrite ha hv s
  have hattrs := hamends.attributes_of_kept h (children_overwrite hv
    (fun hk => by rw [hk] at htag; cases htag) s)
  rw [attribute?, attribute?, findAttribute?, findAttribute?, hattrs]
  refine List.find?_congr fun b hb => ?_
  obtain ⟨hmem, hk⟩ := mem_childrenThatAre.mp hb
  rw [hamends.nameOfAttribute?_eq h (h.lt_of_mem hmem) hk]

end Overwritten

/-! ### New attributes, imports and wrappers -/

/-- Tags are spared when a wrapper is put around an element. -/
theorem Wrapped.spared {name gap : String} {e p : NodeId} {l r : List Slot}
    (hw : Wrapped t t' name e p l r gap) (h : t.Shaped) (he : e ∈ t.descendants root)
    (hk : (t.kind e).isElement = true) (hq : ¬ t.Quiet e) {tag : NodeId} (hlt : tag < t.size) :
    Spared t t' tag :=
  (hw.amends h he hk hq).spared h (hw.children_eq h.toLinked hlt) fun _ _ literal _ hstring hp =>
    hq (((h.regular literal).quiet_string hstring).of_under (hp.trans (.step hw.parent_eq .refl)))

/-- Tags are spared when the module gets an import. -/
theorem Grafted.spared_import {binding library gap : String} {l r r' : List Slot}
    (hg : Grafted t t' (importRow t.size binding library) root l r r' gap) (h : t.Shaped)
    (hs : Seam l r r' gap) {tag : NodeId} (hlt : tag < t.size) (htag : (t.kind tag).isTag = true) :
    Spared t t' tag := by
  have hroot : tag ≠ root := fun heq => by
    rw [heq, h.kind_root] at htag
    cases htag
  refine (hg.amends_import h hs).spared h ?_ fun _ _ literal _ hstring hp => ?_
  · rw [hg.children_old hlt hroot, List.map_id]
  · cases hp with
    | refl =>
        rw [h.kind_root] at hstring
        cases hstring
    | step hp _ =>
        rw [h.parent_root] at hp
        cases hp

section Attribute

variable {name value gap : String} {tag : NodeId} {i : Nat}
  (hg : Grafted t t' (attributeRow t.size name value) tag ((t.node tag).slots.take i)
    ((t.node tag).slots.drop i) ((t.node tag).slots.drop i) gap)
  (h : t.Shaped) (htag : (t.kind tag).isTag = true) (hi : t.attributesEnd? tag = some i)
include hg h htag hi

/-- Other tags are spared when a tag gets an attribute. -/
theorem Grafted.spared_attribute {g : NodeId} (hlt : g < t.size) (hne : g ≠ tag) :
    Spared t t' g := by
  refine (hg.amends_attribute h htag hi).spared h ?_ fun _ _ literal _ hstring hp => ?_
  · rw [hg.children_old hlt hne, List.map_id]
  · exact ((h.regular literal).quiet_string hstring).not_under_tag htag hp

omit h htag hi in
/-- The property of a new attribute is that of its assignment. -/
lemma Grafted.propertyOf_new : t'.propertyOf t.size = .ofAssignment ⟨name, value⟩ := by
  have h' := hg.wellFormed
  have hrow : ∀ i piece, (attributePieces name value)[i]? = some piece →
      t'.node (t.size + (i + 1)) = { leaf t.size piece with
        changed := (t'.node (t.size + (i + 1))).changed } := fun i piece hpiece => by
    have hnode := hg.node_row (i + 1) (Nat.succ_ne_zero i)
    rw [attributeRow, List.getD_cons_succ, List.getD_eq_getElem?_getD, List.getElem?_map,
      hpiece] at hnode
    exact hnode
  -- The three pieces are the name, the equals sign and the value.
  have hname := hrow 0 _ rfl
  have hequals := hrow 1 _ rfl
  have hvalue := hrow 2 _ rfl
  have hchildren : t'.children t.size = [t.size + 1, t.size + 2, t.size + 3] := by
    rw [children, hg.node_top]
    rfl
  have hrole1 : t'.role (t.size + 1) = some .name := by rw [role, hname]; rfl
  have hrole2 : t'.role (t.size + 2) = none := by rw [role, hequals]; rfl
  have hrole3 : t'.role (t.size + 3) = some .value := by rw [role, hvalue]; rfl
  have htext1 : t'.text (t.size + 1) = name :=
    h'.text_of_literal (by rw [hname]; rfl)
  have htext3 : t'.text (t.size + 3) = quoted '"' value :=
    h'.text_of_literal (by rw [hvalue]; rfl)
  have hkind : t'.kind (t.size + 3) = .stringLiteral := by rw [kind, hvalue]; rfl
  have hc1 : t'.childIn? t.size .name = some (t.size + 1) := by
    rw [childIn?, hchildren, List.find?_cons_of_pos (by simp [hrole1])]
  have hc3 : t'.childIn? t.size .value = some (t.size + 3) := by
    rw [childIn?, hchildren, List.find?_cons_of_neg (by simp [hrole1]),
      List.find?_cons_of_neg (by simp [hrole2]), List.find?_cons_of_pos (by simp [hrole3])]
  rw [propertyOf, nameOfAttribute?, hc1, Option.map_some, htext1, stringValue?, hc3]
  dsimp only
  rw [quotation?, if_pos hkind, htext3, quotationOf?_quoted (.inl rfl)]
  rfl

/-- The tag has the new attribute behind those it had. -/
lemma Grafted.attributes_new :
    t'.childrenThatAre tag .attribute = t.childrenThatAre tag .attribute ++ [t.size] := by
  obtain ⟨hl, hl'⟩ := hg.children_place (lt_size_of_attributesEnd? hi).1 rfl
  have hkind : t'.kind t.size = .attribute := by
    rw [kind, hg.node_top]
    rfl
  have hold : ∀ c ∈ t.children tag, decide (t'.kind c = .attribute)
      = decide (t.kind c = .attribute) := fun c hc => by rw [hg.kind_old (h.lt_of_mem hc)]
  have hnone : (((t.node tag).slots.drop i).map Slot.child).filter
      (fun c => decide (t.kind c = .attribute)) = [] := by
    rw [List.filter_eq_nil_iff]
    intro c hc
    rw [List.map_drop] at hc
    simpa using (h.regular tag).attributes_first htag i hi c hc
  rw [hl] at hold
  rw [childrenThatAre, childrenThatAre, hl, hl', List.filter_append, List.filter_append,
    List.filter_cons_of_pos (by simp [hkind]),
    List.filter_congr fun c hc => hold c (List.mem_append_left _ hc),
    List.filter_congr fun c hc => hold c (List.mem_append_right _ hc), hnone, List.append_nil]

/-- The attributes that the tag had hold what they held. -/
lemma Grafted.propertyOf_old {a : NodeId} (ha : a ∈ t.childrenThatAre tag .attribute) :
    t'.propertyOf a = t.propertyOf a := by
  obtain ⟨hc, hk⟩ := mem_childrenThatAre.mp ha
  refine (hg.amends_attribute h htag hi).propertyOf_eq h (h.lt_of_mem hc) hk
    fun literal _ hstring hp => ?_
  exact ((h.regular literal).quiet_string hstring).not_under_tag htag hp

/-- The tag holds the new attribute behind those it had. -/
theorem Grafted.properties_attribute :
    t'.properties tag = t.properties tag ++ [.ofAssignment ⟨name, value⟩] := by
  rw [properties, hg.attributes_new h htag hi, List.map_append, List.map_singleton,
    hg.propertyOf_new, properties]
  congr 1
  exact List.map_congr_left fun a ha => hg.propertyOf_old h htag hi ha

/-- A new attribute is the first one of its name on a tag that had none. -/
lemma Grafted.attribute?_new (hnone : t.attribute? tag name = none) :
    t'.attribute? tag name = some t.size
      ∧ ∃ literal, t'.stringValue? t.size = some (literal, '"', value) := by
  have hproperty := hg.propertyOf_new
  have hname : t'.nameOfAttribute? t.size = some name := congrArg Property.name hproperty
  obtain ⟨⟨literal, s⟩, hv, hs⟩ := Option.map_eq_some_iff.mp (congrArg Property.string hproperty)
  dsimp only at hs
  refine ⟨?_, literal, hs ▸ hv⟩
  rw [attribute?, findAttribute?] at hnone ⊢
  rw [hg.attributes_new h htag hi, List.find?_append, Option.or_eq_some_iff]
  refine .inr ⟨?_, List.find?_cons_of_pos (by simp [hname])⟩
  rw [← hnone]
  refine List.find?_congr fun a ha => ?_
  rw [show t'.nameOfAttribute? a = t.nameOfAttribute? a from
    congrArg Property.name (hg.propertyOf_old h htag hi ha)]

end Attribute

end Restyle.SyntaxTree
