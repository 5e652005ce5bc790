import Restyle.Proofs.Search.Attribute
import Restyle.Search.Point

/-!
What a modification does when it is applied at a tag of a module.

* `Reworded`: the string of an attribute is reworded as the modification says;
* `Application`, `application_applyAt`: the four things that a modification can do at a point of it;
* `Advances`: the module grows and stays in shape, the attributes of the tag are revised and those
  of other tags are spared, and the tags that are new were made by the modification;
* `Application.advances`: each of the four advances the module.
-/

namespace Restyle.SyntaxTree

variable {t t' : SyntaxTree} {settings : TransformSettings} {m : Modification} {tag : Tag}

/-! ### Strings that are reworded -/

/-- The string of an attribute is reworded, or is as the modification wants it. -/
def Reworded (t t' : SyntaxTree) (m : Modification) (a : NodeId) : Prop :=
  t' = t ∧ (t.propertyOf a).reword m = t.propertyOf a
    ∨ ∃ literal q v, t.stringValue? a = some (literal, q, v)
      ∧ t' = t.overwrite literal (quoted (reword m (q, v)).1 (reword m (q, v)).2)

lemma propertyOf_of_stringValue? {a literal : NodeId} {q : Char} {v : String}
    (h : t.stringValue? a = some (literal, q, v)) :
    t.propertyOf a = ⟨t.nameOfAttribute? a, some (q, v)⟩ := by
  rw [propertyOf, h]
  rfl

lemma reword_of_stringValue?_none {a : NodeId} (h : t.stringValue? a = none) (m : Modification) :
    (t.propertyOf a).reword m = t.propertyOf a := by
  rw [propertyOf, h]
  rfl

lemma reword_eq_self {a literal : NodeId} {q : Char} {v : String}
    (h : t.stringValue? a = some (literal, q, v)) (hm : Restyle.reword m (q, v) = (q, v)) :
    (t.propertyOf a).reword m = t.propertyOf a := by
  rw [propertyOf_of_stringValue? h, Property.reword, Option.map_some, hm]

/-- Adding classes rewords the property of the attribute, and nothing else. -/
lemma reworded_addClass (t : SyntaxTree) (hm : m.action = .addClass) (a : NodeId) :
    Reworded t (t.addClass a m.value).2 m a := by
  have hreword : ∀ s, reword m s = (s.1, rewordText m s.2) := fun s => by rw [reword, hm]
  rw [addClass]
  split
  · next hvalid =>
      -- Classes that may not be written reword no string either.
      refine .inl ⟨rfl, ?_⟩
      cases hv : t.stringValue? a with
      | none => exact reword_of_stringValue?_none hv m
      | some s =>
          refine reword_eq_self hv ?_
          rw [hreword, rewordText, hm]
          simp only [Bool.not_eq_true'] at hvalid
          simp [hvalid]
  · next hvalid =>
      simp only [Bool.not_eq_true', Bool.not_eq_false] at hvalid
      split
      · next hv => exact .inl ⟨rfl, reword_of_stringValue?_none hv m⟩
      · next literal q v hv =>
          split
          · next hmissing =>
              refine .inl ⟨rfl, reword_eq_self hv ?_⟩
              rw [hreword, rewordText, hm]
              simp [hvalid, hmissing]
          · next lacking hne =>
              -- Some class is missing, so the string takes the missing ones in.
              refine .inr ⟨literal, q, v, hv, ?_⟩
              rw [hreword, rewordText, hm]
              dsimp only
              rw [if_pos hvalid]
              split
              · next hnil => exact absurd hnil hne
              · rfl

/-- Setting a value rewords the property of the attribute, and nothing else. -/
lemma reworded_changeValue (t : SyntaxTree) {a : Assignment} (ha : assigned? m = some a)
    (id : NodeId) : Reworded t (t.changeValue id a.value).2 m id := by
  rw [changeValue]
  split
  · next hv => exact .inl ⟨rfl, reword_of_stringValue?_none hv m⟩
  · next literal q v hv =>
      split
      · next heq =>
          refine .inl ⟨rfl, reword_eq_self hv ?_⟩
          rw [reword_of_assigned ha, if_pos heq]
      · next hne =>
          refine .inr ⟨literal, q, v, hv, ?_⟩
          rw [reword_of_assigned ha, if_neg hne]

/-- A reworded string keeps one of the two quotes around it. -/
lemma reword_quote {s : Char × String} (h : s.1 = '"' ∨ s.1 = '\'') :
    (reword m s).1 = '"' ∨ (reword m s).1 = '\'' := by
  cases ha : assigned? m with
  | none =>
      rw [reword_of_not_assigned ha]
      exact h
  | some a =>
      rw [reword_of_assigned ha]
      split
      · exact h
      · dsimp only
        split
        · exact .inl rfl
        · exact h

/-! ### Wrappers -/

/-- A modification that is neither about classes nor an assignment picks no attribute. -/
lemma revise_of_idle {classAttributes : List String} {adds : Bool} (hm : m.action ≠ .addClass)
    (ha : assigned? m = none) (ps : List Property) : revise classAttributes adds m ps = ps := by
  have hfind : (ps.map Property.name).findIdx? (Property.picks classAttributes m) = none := by
    refine List.findIdx?_eq_none_iff.mpr fun name _ => ?_
    unfold Property.picks
    split
    · next haction => exact absurd haction hm
    · rw [ha]
      rfl
  rw [revise, hfind, ha]

lemma revise_of_wrap {classAttributes : List String} {adds : Bool} (hm : m.action = .wrapElement)
    (ps : List Property) : revise classAttributes adds m ps = ps :=
  revise_of_idle (by rw [hm]; decide) (by rw [assigned?, hm]) ps

/-- A wrapper is put around the element of a tag, or there is nothing to do. -/
lemma wrapElement_located (h : t.Shaped) (ht : t.Located tag) (wrapper : String) :
    (t.wrapElement tag wrapper).2 = t
        ∧ (isDottedName (Text.trim wrapper) = true →
          tag.name = Text.trim wrapper ∨ t.isInside tag.element (Text.trim wrapper) = true)
      ∨ tag.name ≠ Text.trim wrapper ∧ t.isInside tag.element (Text.trim wrapper) = false
        ∧ isDottedName (Text.trim wrapper) = true ∧ ∃ p l r gap,
          Wrapped t (t.wrapElement tag wrapper).2 (Text.trim wrapper) tag.element p l r gap := by
  rcases wrapElement_cases h.toWellFormed tag wrapper with hun | ⟨-, hdotted, hname, hinside, hw⟩
  · refine .inl ⟨hun.unchanged h.toDocument ht, fun hdotted => ?_⟩
    obtain ⟨-, -, helement, -⟩ := h.element_spec ht.isTag ht.tagAt
    have hmem := ht.element_mem h.toLinked h.kind_root
    generalize t.wrapElement tag wrapper = r at hun
    cases hun with
    | nameless hnot =>
        rw [hdotted] at hnot
        cases hnot
    | present hthere => exact hthere
    | alone hnone =>
        -- the element is no root, so that a node lists it
        rcases exists_parent_of_mem_descendants h.toLinked h.root_lt hmem with heq | ⟨p, -, hp⟩
        · rw [heq, h.kind_root] at helement
          cases helement
        · rw [h.parent_of_mem hp] at hnone
          cases hnone
    | placeless hp hnone => exact absurd hnone (substitute?_plant_ne_none h.toLinked hmem hp _ _)
  · exact .inr ⟨hname, hinside, hdotted, hw⟩

/-! ### Modifications at their points -/

/-- Whether a tag gets a property that it lacks. -/
def adds (t : SyntaxTree) (settings : TransformSettings) (tag : NodeId) : Bool :=
  settings.actualSynthesizeMissingProps && (t.attributesEnd? tag).isSome

/-- What a modification does when it is applied at a tag: nothing, or it rewords the string of the
attribute that it picks, adds an attribute, or puts a wrapper around the element. -/
inductive Application (t t' : SyntaxTree) (settings : TransformSettings) (m : Modification)
    (tag : Tag) : Prop where
  | same : t' = t →
      revise settings.actualClassAttributes (t.adds settings tag.node) m (t.properties tag.node)
        = t.properties tag.node →
      (m.action = .wrapElement → isDottedName (Text.trim m.value) = true →
        tag.name = Text.trim m.value ∨ t.isInside tag.element (Text.trim m.value) = true) →
      Application t t' settings m tag
  | reworded {i : Nat} {a : NodeId} : m.action ≠ .wrapElement →
      (t.childrenThatAre tag.node .attribute)[i]? = some a →
      ((t.properties tag.node).map Property.name).findIdx?
        (Property.picks settings.actualClassAttributes m) = some i →
      Reworded t t' m a → Application t t' settings m tag
  | added {a : Assignment} {i : Nat} : assigned? m = some a →
      ((t.properties tag.node).map Property.name).findIdx?
        (Property.picks settings.actualClassAttributes m) = none →
      t.adds settings tag.node = true → t.attributesEnd? tag.node = some i →
      Grafted t t' (attributeRow t.size a.name a.value) tag.node
        ((t.node tag.node).slots.take i) ((t.node tag.node).slots.drop i)
        ((t.node tag.node).slots.drop i) (t.attributeGap tag.node) →
      Application t t' settings m tag
  | wrapped {p : NodeId} {l r : List Slot} {gap : String} : m.action = .wrapElement →
      tag.name ≠ Text.trim m.value → t.isInside tag.element (Text.trim m.value) = false →
      isDottedName (Text.trim m.value) = true →
      Wrapped t t' (Text.trim m.value) tag.element p l r gap → Application t t' settings m tag

/-- Whether an attribute passes a test, in the tree and in what its tag holds. -/
lemma findAttribute?_cases (t : SyntaxTree) (tag : NodeId) (test : String → Bool) :
    (t.findAttribute? tag test = none
        ∧ ((t.properties tag).map Property.name).findIdx? (fun name => name.any test) = none)
      ∨ ∃ i a, t.findAttribute? tag test = some a
        ∧ ((t.properties tag).map Property.name).findIdx? (fun name => name.any test) = some i
        ∧ (t.childrenThatAre tag .attribute)[i]? = some a := by
  rw [findAttribute?_eq_bind]
  cases hfind : ((t.properties tag).map Property.name).findIdx? fun name => name.any test with
  | none => exact .inl ⟨rfl, rfl⟩
  | some i =>
      have hi := (List.findIdx?_eq_some_iff_getElem.mp hfind).1
      rw [properties, List.length_map, List.length_map] at hi
      refine .inr ⟨i, _, ?_, rfl, List.getElem?_eq_getElem hi⟩
      rw [Option.bind_some, List.getElem?_eq_getElem hi]

/-- Adding classes at the point of a tag is an application of the modification there. -/
lemma application_addClass (t : SyntaxTree) (settings : TransformSettings) (tag : Tag)
    (hm : m.action = .addClass) :
    Application t (t.applyAt settings m
      (t.pointAt settings.actualClassAttributes .addClass tag)).2 settings m tag := by
  have hwrap : m.action ≠ .wrapElement := by rw [hm]; decide
  have hassigned : assigned? m = none := by rw [assigned?, hm]
  have hpicks : Property.picks settings.actualClassAttributes m
      = fun name => name.any settings.actualClassAttributes.contains := picks_of_addClass hm
  unfold applyAt
  rw [hm, pointAt, classHolder?]
  rcases t.findAttribute?_cases tag.node settings.actualClassAttributes.contains with
    ⟨hnone, hfind⟩ | ⟨i, a, hsome, hfind, hi⟩
  · rw [← hpicks] at hfind
    rw [hnone]
    refine .same rfl ?_ fun hw => absurd hw hwrap
    rw [revise, hfind, hassigned]
  · rw [← hpicks] at hfind
    rw [hsome]
    exact .reworded hwrap hi hfind (t.reworded_addClass hm a)

/-- Setting a property at the point of a tag is an application of the modification there. -/
lemma application_addProp (h : t.WellFormed) (settings : TransformSettings) (tag : Tag)
    (hm : m.action = .addProp) :
    Application t (t.applyAt settings m
      (t.pointAt settings.actualClassAttributes .addProp tag)).2 settings m tag := by
  have hwrap : m.action ≠ .wrapElement := by rw [hm]; decide
  unfold applyAt
  rw [hm, pointAt]
  dsimp only
  rw [addProp]
  cases hof : Assignment.ofText? m.value with
  | none =>
      have hassigned : assigned? m = none := by rw [assigned?, hm]; exact hof
      exact .same rfl (revise_of_idle (by rw [hm]; decide) hassigned _) fun hw => absurd hw hwrap
  | some a =>
      have hassigned : assigned? m = some a := by rw [assigned?, hm]; exact hof
      have hpicks : Property.picks settings.actualClassAttributes m
          = fun name => name.any (· == a.name) := picks_of_assigned hassigned
      dsimp only
      rw [attribute?]
      rcases t.findAttribute?_cases tag.node (· == a.name) with
        ⟨hnone, hfind⟩ | ⟨i, id, hsome, hfind, hi⟩
      · rw [← hpicks] at hfind
        -- an attribute that is not there is added only where the tag has a place for it
        have hkeep : t.adds settings tag.node = false →
            revise settings.actualClassAttributes (t.adds settings tag.node) m
              (t.properties tag.node) = t.properties tag.node := fun hno => by
          rw [revise, hfind, hassigned, hno]
          rfl
        rw [hnone]
        dsimp only
        split
        · next hsynthesize =>
            rcases insertAttribute_cases h tag.node a with ⟨hend, heq⟩ | ⟨i, hend, -, hg⟩
            · rw [heq]
              refine .same rfl (hkeep ?_) fun hw => absurd hw hwrap
              rw [adds, hend, Option.isSome_none, Bool.and_false]
            · refine .added hassigned hfind ?_ hend hg
              rw [adds, hend, hsynthesize]
              rfl
        · next hsynthesize =>
            refine .same rfl (hkeep ?_) fun hw => absurd hw hwrap
            rw [adds, Bool.eq_false_of_not_eq_true hsynthesize, Bool.false_and]
      · rw [← hpicks] at hfind
        rw [hsome]
        exact .reworded hwrap hi hfind (t.reworded_changeValue hassigned id)

/-- What a modification does at a point of it. -/
theorem application_applyAt (h : t.Shaped) (settings : TransformSettings) (m : Modification)
    (ht : t.Located tag) :
    Application t (t.applyAt settings m
      (t.pointAt settings.actualClassAttributes m.action tag)).2 settings m tag := by
  cases hm : m.action with
  | addClass => exact t.application_addClass settings tag hm
  | addProp => exact application_addProp h.toWellFormed settings tag hm
  | wrapElement =>
      unfold applyAt
      rw [hm, pointAt]
      dsimp only
      rcases wrapElement_located h ht m.value with
        ⟨heq, hthere⟩ | ⟨hname, hinside, hdotted, p, l, r, gap, hw⟩
      · rw [heq]
        exact .same rfl (revise_of_wrap hm _) fun _ => hthere
      · exact .wrapped hm hname hinside hdotted hw

/-! ### Advances -/

/-- What becomes of a module when a modification is applied at a tag. -/
structure Advances (t t' : SyntaxTree) (settings : TransformSettings) (m : Modification)
    (tag : Tag) : Prop where
  shaped : t'.Shaped
  grows : Grows t t'
  spared : ∀ g < t.size, (t.kind g).isTag = true → g ≠ tag.node → Spared t t' g
  properties_eq : t'.properties tag.node
    = revise settings.actualClassAttributes (t.adds settings tag.node) m (t.properties tag.node)
  wrapped : m.action = .wrapElement → isDottedName (Text.trim m.value) = true →
    tag.name = Text.trim m.value ∨ t'.isInside tag.element (Text.trim m.value) = true
  /-- What is new was made by the modification. -/
  fresh : ∀ tag', t'.Located tag' → t.size ≤ tag'.node →
    t'.isMadeBy tag'.element m = true ∧ t'.properties tag'.node = []

lemma Located.lt_size (hl : t.Linked) (ht : t.Located tag) : tag.node < t.size :=
  lt_size_of_mem_descendants hl hl.root_lt ht.mem

lemma modify_eq_self {α : Type} {l : List α} {i : Nat} {f : α → α}
    (h : ∀ x, l[i]? = some x → f x = x) : l.modify i f = l := by
  refine List.ext_getElem? fun j => ?_
  by_cases hij : i = j
  · subst hij
    rw [List.getElem?_modify_eq]
    cases hx : l[i]? with
    | none => rfl
    | some x => exact congrArg some (h x hx)
  · rw [List.getElem?_modify_ne _ _ hij]

/-- The string of the attribute that is picked is reworded. -/
lemma Reworded.advances {a : NodeId} {i : Nat} (hr : Reworded t t' m a) (h : t.Shaped)
    (ht : t.Located tag) (hi : (t.childrenThatAre tag.node .attribute)[i]? = some a)
    (hpick : ((t.properties tag.node).map Property.name).findIdx?
      (Property.picks settings.actualClassAttributes m) = some i)
    (hm : m.action ≠ .wrapElement) : Advances t t' settings m tag := by
  have hget : (t.properties tag.node)[i]? = some (t.propertyOf a) := by
    rw [properties, List.getElem?_map, hi, Option.map_some]
  have hrevise : revise settings.actualClassAttributes (t.adds settings tag.node) m
      (t.properties tag.node) = (t.properties tag.node).modify i (Property.reword m) :=
    revise_of_picked hpick
  rcases hr with ⟨rfl, heq⟩ | ⟨literal, q, v, hv, rfl⟩
  · refine ⟨h, .refl t', fun g _ _ _ => .refl t' g, ?_, fun hwrap => absurd hwrap hm,
      fun _ ht' hge => absurd (ht'.lt_size h.toLinked) (Nat.not_lt.mpr hge)⟩
    rw [hrevise, modify_eq_self fun p hp => ?_]
    rw [hget, Option.some.injEq] at hp
    rw [← hp]
    exact heq
  · obtain ⟨hmem, ha⟩ := mem_childrenThatAre.mp (List.mem_of_getElem? hi)
    have hquote := reword_quote (m := m) (s := (q, v))
      (quoted_of_quotationOf? (stringValue?_spec hv).2.2.2).1
    have hamends := h.amends_overwrite ha hv
      (quoted (reword m (q, v)).1 (reword m (q, v)).2)
    refine ⟨h.overwrite ha hv _, hamends.grows h, fun g hlt hg hne => ?_, ?_,
      fun hwrap => absurd hwrap hm, fun tag' ht' hge => ?_⟩
    -- the attribute stands in one tag only, so that all others keep theirs
    · refine spared_overwrite h ha hv hg (fun hmem' => hne ?_) _
      have hp := h.parent_of_mem (mem_childrenThatAre.mp hmem').1
      rw [h.parent_of_mem hmem, Option.some.injEq] at hp
      exact hp.symm
    · rw [properties_overwrite h ha hv ht.isTag hi hquote, hrevise]
      refine List.ext_getElem? fun j => ?_
      by_cases hij : i = j
      · subst hij
        rw [List.getElem?_modify_eq, List.getElem?_modify_eq, hget, propertyOf_of_stringValue? hv]
        rfl
      · rw [List.getElem?_modify_ne _ _ hij, List.getElem?_modify_ne _ _ hij]
    · have hlt := ht'.lt_size hamends.document.toLinked
      rw [size_overwrite] at hlt
      exact absurd hlt (Nat.not_lt.mpr hge)

/-- An attribute is added to the tag. -/
lemma Grafted.advances {a : Assignment} {i : Nat} {gap : String}
    (hg : Grafted t t' (attributeRow t.size a.name a.value) tag.node
      ((t.node tag.node).slots.take i) ((t.node tag.node).slots.drop i)
      ((t.node tag.node).slots.drop i) gap) (h : t.Shaped) (ht : t.Located tag)
    (ha : assigned? m = some a)
    (hnone : ((t.properties tag.node).map Property.name).findIdx?
      (Property.picks settings.actualClassAttributes m) = none)
    (hadds : t.adds settings tag.node = true) (hend : t.attributesEnd? tag.node = some i) :
    Advances t t' settings m tag := by
  have hm : m.action ≠ .wrapElement := by
    rw [(assigned?_spec ha).1]
    decide
  refine ⟨.grafted_attribute hg h ht.isTag hend, (hg.amends_attribute h ht.isTag hend).grows h,
    fun g hlt _ hne => hg.spared_attribute h ht.isTag hend hlt hne, ?_,
    fun hwrap => absurd hwrap hm, fun tag' ht' hge => ?_⟩
  · rw [hg.properties_attribute h ht.isTag hend, revise, hnone, ha]
    dsimp only
    rw [if_pos hadds]
  -- A tag located afterwards is no new node: the row is an attribute and its pieces.
  · have htag := ht'.isTag
    rcases Nat.eq_or_lt_of_le hge with heq | hgt
    · rw [← heq, kind, hg.node_top] at htag
      cases htag
    · rw [(hg.kind_leaf hgt (attributePieces_plain a.name a.value)).2.1] at htag
      cases htag

/-- The opening tag of a wrapper. -/
lemma Wrapped.tagAt?_opening {name gap : String} {e p : NodeId} {l r : List Slot}
    (hw : Wrapped t t' name e p l r gap) :
    t'.tagAt? (t.size + 1) = some ⟨t.size + 1, t.size, name, none⟩ := by
  -- The row of the wrapper is at known places: `<` at 2, the name at 3, `>` at 4.
  have hopen : t'.node (t.size + 2) = { leaf (t.size + 1) ⟨.token, "<", none, ""⟩ with
      changed := (t'.node (t.size + 2)).changed } := hw.node_row 2 (by decide)
  have hname : t'.node (t.size + 3) = { leaf (t.size + 1) ⟨.identifier, name, some .name, ""⟩ with
      changed := (t'.node (t.size + 3)).changed } := hw.node_row 3 (by decide)
  have hchildren : t'.children (t.size + 1) = [t.size + 2, t.size + 3, t.size + 4] := by
    rw [children, hw.node_opening]
    rfl
  have hrole2 : t'.role (t.size + 2) = none := by rw [role, hopen]; rfl
  have hrole3 : t'.role (t.size + 3) = some .name := by rw [role, hname]; rfl
  have hchild : t'.childIn? (t.size + 1) .name = some (t.size + 3) := by
    rw [childIn?, hchildren, List.find?_cons_of_neg (by simp [hrole2]),
      List.find?_cons_of_pos (by simp [hrole3])]
  have htext : t'.text (t.size + 3) = name := hw.wellFormed.text_of_literal (by rw [hname]; rfl)
  have helement : t'.elementOfTag? (t.size + 1) = some t.size := by
    rw [elementOfTag?, hw.kind_opening]
    dsimp only
    rw [parent, hw.node_opening]
  refine tagAt?_eq_some.mpr ⟨_, _, hchild, helement, ?_⟩
  rw [htext, hw.node_opening]
  rfl

/-- The wrapper has the name it was made with. -/
lemma Wrapped.nameOfElement?_outer {name gap : String} {e p : NodeId} {l r : List Slot}
    (hw : Wrapped t t' name e p l r gap) : t'.nameOfElement? t.size = some name := by
  rw [nameOfElement?, tagOfElement?, hw.kind_outer]
  dsimp only
  rw [hw.childIn?_openTag, Option.bind_some, hw.tagAt?_opening]
  rfl

/-- What a wrapper was put around is inside it. -/
lemma Wrapped.isInside {name gap : String} {e p : NodeId} {l r : List Slot}
    (hw : Wrapped t t' name e p l r gap) (he : (t.kind e).isElement = true) :
    t'.isInside e name = true :=
  (hw.wellFormed.toLinked.isInside_iff _ _).mpr
    ⟨t.size, .single (hw.onlyElement?_outer he), hw.nameOfElement?_outer⟩

/-- A wrapper is put around the element of the tag. -/
lemma Wrapped.advances {p : NodeId} {l r : List Slot} {gap : String}
    (hw : Wrapped t t' (Text.trim m.value) tag.element p l r gap) (h : t.Shaped)
    (ht : t.Located tag) (hm : m.action = .wrapElement) (hneedle : needle m.target ≠ "")
    (hname : nameContains tag.name (needle m.target) = true) : Advances t t' settings m tag := by
  obtain ⟨-, -, helement, hunder, hnamed⟩ := h.element_spec ht.isTag ht.tagAt
  have hmem := ht.element_mem h.toLinked h.kind_root
  have hquiet : ¬ t.Quiet tag.element := fun hq => hq.not_under_tag ht.isTag hunder
  have hlt := ht.lt_size h.toLinked
  have hamends := hw.amends h hmem helement hquiet
  have hspared : ∀ g < t.size, Spared t t' g := fun g hlt => hw.spared h hmem helement hquiet hlt
  have hchain : t'.Chain t.size tag.element := .single (hw.onlyElement?_outer helement)
  have hl' := hamends.document.toLinked
  refine ⟨.wrapped hw h hmem helement hquiet, hamends.grows h, fun g hlt _ _ => hspared g hlt, ?_,
    fun _ _ => .inr (hw.isInside helement), fun tag' ht' hge => ?_⟩
  · rw [revise_of_wrap hm, (hspared tag.node hlt).properties_eq]
  · have htag := ht'.isTag
    -- of the two new tags only the opening one is a tag that modifications see
    have hnode : tag'.node = t.size + 1 := by
      rcases Nat.eq_or_lt_of_le hge with heq | hgt
      · rw [← heq, hw.kind_outer] at htag
        cases htag
      · by_contra hne
        by_cases hclose : tag'.node = t.size + 5
        · rw [hclose, kind, hw.node_closing] at htag
          cases htag
        · rw [(hw.leaf_spec h.toLinked hgt hne hclose).2.1] at htag
          cases htag
    have hat := ht'.tagAt
    rw [hnode, hw.tagAt?_opening, Option.some.injEq] at hat
    refine ⟨?_, ?_⟩
    · rw [← hat, isMadeBy, hm, Bool.and_eq_true]
      refine ⟨rfl, (hl'.wraps_iff (lt_size_of_parent hw.parent_outer) _ _).mpr
        ⟨hneedle, hw.nameOfElement?_outer, tag.element, hchain, ?_⟩⟩
      rw [hamends.nameOfElement?_eq h (lt_size_of_parent hw.parent_eq), hnamed, Option.any_some]
      exact hname
    · rw [hnode, properties, List.map_eq_nil_iff, childrenThatAre, List.filter_eq_nil_iff]
      intro c hc
      simpa using (hw.of_mem_opening h.toLinked hc).2.2.1

/-- Other tags than the one that a modification is applied at are spared, and its points at them
stay. -/
lemma Advances.others {tags : List Tag} (ha : Advances t t' settings m tag) (hl : t.Linked)
    (htags : ∀ tag' ∈ tags, t.Located tag') (hnot : tag.node ∉ tags.map Tag.node) :
    (∀ tag' ∈ tags, Spared t t' tag'.node)
      ∧ tags.map (t'.pointAt settings.actualClassAttributes m.action)
        = tags.map (t.pointAt settings.actualClassAttributes m.action) := by
  have hspared : ∀ tag' ∈ tags, Spared t t' tag'.node := fun tag' hmem =>
    ha.spared tag'.node ((htags tag' hmem).lt_size hl) (htags tag' hmem).isTag fun heq =>
      hnot (heq ▸ List.mem_map_of_mem hmem)
  refine ⟨hspared, List.map_congr_left fun tag' hmem => ?_⟩
  unfold pointAt classHolder?
  rw [(hspared tag' hmem).findAttribute?_eq]

/-- A modification that is applied at a tag of its target advances the module. -/
theorem Application.advances (ha : Application t t' settings m tag) (h : t.Shaped)
    (ht : t.Located tag) (hneedle : needle m.target ≠ "")
    (hname : nameContains tag.name (needle m.target) = true) : Advances t t' settings m tag := by
  cases ha with
  | same heq hrevise hwrap =>
      subst heq
      exact ⟨h, .refl t', fun g _ _ _ => .refl t' g, hrevise.symm, hwrap,
        fun _ ht' hge => absurd (ht'.lt_size h.toLinked) (Nat.not_lt.mpr hge)⟩
  | reworded hm hi hpick hr => exact hr.advances h ht hi hpick hm
  | added ha hnone hadds hend hg => exact hg.advances h ht ha hnone hadds hend
  | wrapped hm _ _ _ hw => exact hw.advances h ht hm hneedle hname

end Restyle.SyntaxTree
