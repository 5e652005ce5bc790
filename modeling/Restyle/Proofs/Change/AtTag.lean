import Restyle.Proofs.Change.Reached

/-!
What a class list or a property does at a tag: one edit, which the tag alone decides.

* `Undisturbed`: a tag at which searches read what they read before;
* `Edit`, `Fits`: a string of a tag is written anew, or the tag gets an attribute;
* `exists_edit_applyAt`: the answer and the edit of a modification are the same in every tree in
  which the tag is undisturbed;
* `Fits.undisturbed`: edits at one tag leave all others undisturbed.
-/

namespace Restyle.SyntaxTree

variable {t u v : SyntaxTree} {tag : NodeId}

/-! ### Tags that are left alone -/

/-- A tag has the attributes that it had, with their names and their strings, and a new one would be
put at the same place and behind the same layout. -/
structure Undisturbed (t u : SyntaxTree) (tag : NodeId) : Prop where
  attributes_eq : u.childrenThatAre tag .attribute = t.childrenThatAre tag .attribute
  name_eq : ∀ a ∈ t.childrenThatAre tag .attribute, u.nameOfAttribute? a = t.nameOfAttribute? a
  value_eq : ∀ a ∈ t.childrenThatAre tag .attribute, u.stringValue? a = t.stringValue? a
  end_eq : u.attributesEnd? tag = t.attributesEnd? tag
  gap_eq : u.attributeGap tag = t.attributeGap tag

namespace Undisturbed

/-- A tag is undisturbed as long as nothing happens. -/
theorem refl (t : SyntaxTree) (tag : NodeId) : Undisturbed t t tag :=
  ⟨rfl, fun _ _ => rfl, fun _ _ => rfl, rfl, rfl⟩

/-- A tag stays undisturbed along two changes. -/
theorem trans (h : Undisturbed t u tag) (h' : Undisturbed u v tag) : Undisturbed t v tag where
  attributes_eq := h'.attributes_eq.trans h.attributes_eq
  name_eq := fun a ha => (h'.name_eq a (h.attributes_eq ▸ ha)).trans (h.name_eq a ha)
  value_eq := fun a ha => (h'.value_eq a (h.attributes_eq ▸ ha)).trans (h.value_eq a ha)
  end_eq := h'.end_eq.trans h.end_eq
  gap_eq := h'.gap_eq.trans h.gap_eq

lemma attribute?_eq (h : Undisturbed t u tag) (name : String) :
    u.attribute? tag name = t.attribute? tag name := by
  rw [attribute?, attribute?, findAttribute?, findAttribute?, h.attributes_eq]
  exact List.find?_congr fun a ha => by rw [h.name_eq a ha]

end Undisturbed

/-! ### Edits -/

/-- What a class list or a property comes to. -/
inductive Edit where
  | keep
  /-- A string is written anew. -/
  | rewrite (literal : NodeId) (text : String)
  /-- A tag gets an attribute at an index. -/
  | attach (tag : NodeId) (index : Nat) (gap : String) (a : Assignment)

namespace Edit

def run : Edit → SyntaxTree → SyntaxTree
  | keep, t => t
  | rewrite literal text, t => t.overwrite literal text
  | attach tag index gap a, t =>
    let (id, t) := t.newAttribute a.name a.value
    t.insertAt tag index id gap

/-- The node that an edit changes, if it changes one. -/
def place? : Edit → Option NodeId
  | keep => none
  | rewrite literal _ => some literal
  | attach tag _ _ _ => some tag

end Edit

/-- An edit at a tag: of the string of one of its attributes, or of the place at which its
attributes end. -/
inductive Fits (t : SyntaxTree) (tag : NodeId) : Edit → Prop where
  | keep : Fits t tag .keep
  | rewrite {a literal : NodeId} {q : Char} {s : String} (text : String) :
      a ∈ t.childrenThatAre tag .attribute → t.stringValue? a = some (literal, q, s) →
      Fits t tag (.rewrite literal text)
  | attach {i : Nat} (a : Assignment) : t.attributesEnd? tag = some i →
      Fits t tag (.attach tag i (t.attributeGap tag) a)

/-- An edit fits an undisturbed tag as it did before. -/
lemma Fits.of_undisturbed {e : Edit} (h : Fits t tag e) (hu : Undisturbed t u tag) :
    Fits u tag e := by
  cases h with
  | keep => exact .keep
  | rewrite text ha hv =>
      exact .rewrite text (hu.attributes_eq ▸ ha) ((hu.value_eq _ ha).trans hv)
  | attach a hend => exact hu.gap_eq ▸ .attach a (hu.end_eq.trans hend)

/-- A modification comes to an edit at a tag, and gives an answer, wherever the tag is
undisturbed. -/
structure ComesTo (t : SyntaxTree) (tag : NodeId) (change : SyntaxTree → Outcome × SyntaxTree)
    (o : Outcome) (e : Edit) : Prop where
  fits : Fits t tag e
  change_eq : ∀ u, Undisturbed t u tag → change u = (o, e.run u)

/-- The classes of a value come to an edit of the string of an attribute. -/
lemma exists_edit_addClass {a : NodeId} (ha : a ∈ t.childrenThatAre tag .attribute)
    (value : String) : ∃ o e, t.ComesTo tag (·.addClass a value) o e := by
  by_cases hvalid : ClassList.isValid (ClassList.ofValue value) = true
  · cases hv : t.stringValue? a with
    | none =>
        refine ⟨.unsupportedAttributeForm, .keep, .keep, fun u hu => ?_⟩
        rw [addClass, hu.value_eq a ha, hv, hvalid]
        rfl
    | some s =>
        obtain ⟨literal, q, s⟩ := s
        cases hmissing : ClassList.missing (ClassList.ofValue value) s with
        | nil =>
            refine ⟨.alreadyPresent, .keep, .keep, fun u hu => ?_⟩
            rw [addClass, hu.value_eq a ha, hv, hvalid]
            simp only [hmissing]
            rfl
        | cons c lacking =>
            -- What is written depends on the string alone, which an undisturbed tag still has.
            refine ⟨.applied, _, .rewrite (quoted q (ClassList.append s (c :: lacking))) ha hv,
              fun u hu => ?_⟩
            rw [addClass, hu.value_eq a ha, hv, hvalid]
            simp only [hmissing]
            rfl
  · refine ⟨.invalidValue, .keep, .keep, fun u _ => ?_⟩
    rw [addClass, Bool.eq_false_of_not_eq_true hvalid]
    rfl

/-- A value comes to an edit of the string of an attribute. -/
lemma exists_edit_changeValue {a : NodeId} (ha : a ∈ t.childrenThatAre tag .attribute)
    (value : String) : ∃ o e, t.ComesTo tag (·.changeValue a value) o e := by
  cases hv : t.stringValue? a with
  | none =>
      refine ⟨.unsupportedAttributeForm, .keep, .keep, fun u hu => ?_⟩
      rw [changeValue, hu.value_eq a ha, hv]
      rfl
  | some s =>
      obtain ⟨literal, q, current⟩ := s
      by_cases hsame : current = value
      · refine ⟨.alreadyPresent, .keep, .keep, fun u hu => ?_⟩
        rw [changeValue, hu.value_eq a ha, hv]
        exact if_pos hsame
      · refine ⟨.applied, _,
          .rewrite (quoted (if value.toList.contains q then '"' else q) value) ha hv,
          fun u hu => ?_⟩
        rw [changeValue, hu.value_eq a ha, hv]
        exact if_neg hsame

/-- A new attribute comes to an edit of its tag. -/
lemma exists_edit_insertAttribute (t : SyntaxTree) (tag : NodeId) (a : Assignment) :
    ∃ o e, t.ComesTo tag (·.insertAttribute tag a) o e := by
  cases hend : t.attributesEnd? tag with
  | none =>
      refine ⟨.notApplicable, .keep, .keep, fun u hu => ?_⟩
      rw [insertAttribute, hu.end_eq, hend]
      rfl
  | some i =>
      refine ⟨.applied, _, .attach a hend, fun u hu => ?_⟩
      rw [insertAttribute, hu.end_eq, hend, hu.gap_eq]
      rfl

/-- A property comes to an edit at its tag. -/
lemma exists_edit_addProp (t : SyntaxTree) (tag : NodeId) (value : String) (synthesize : Bool) :
    ∃ o e, t.ComesTo tag (·.addProp tag value synthesize) o e := by
  cases hof : Assignment.ofText? value with
  | none =>
      refine ⟨.invalidValue, .keep, .keep, fun u _ => ?_⟩
      rw [addProp, hof]
      rfl
  | some a =>
      -- The attribute is set when there is one, and inserted when there is none and that is
      -- allowed.
      cases hfirst : t.attribute? tag a.name with
      | some id =>
          have hid : id ∈ t.childrenThatAre tag .attribute := List.mem_of_find?_eq_some hfirst
          obtain ⟨o, e, hfits, heq⟩ := exists_edit_changeValue hid a.value
          refine ⟨o, e, hfits, fun u hu => ?_⟩
          rw [addProp, hof]
          dsimp only
          rw [hu.attribute?_eq, hfirst]
          exact heq u hu
      | none =>
          cases synthesize with
          | true =>
              obtain ⟨o, e, hfits, heq⟩ := t.exists_edit_insertAttribute tag a
              refine ⟨o, e, hfits, fun u hu => ?_⟩
              rw [addProp, hof]
              dsimp only
              rw [hu.attribute?_eq, hfirst]
              exact heq u hu
          | false =>
              refine ⟨.missingAttribute, .keep, .keep, fun u hu => ?_⟩
              rw [addProp, hof]
              dsimp only
              rw [hu.attribute?_eq, hfirst]
              rfl

/-- A class list or a property, at a point of the module, comes to an edit at the tag of the
point. -/
theorem exists_edit_applyAt (settings : TransformSettings) {m : Modification}
    (hm : m.action ≠ .wrapElement) {point : Point} (hp : t.Holds point) {tag : Tag}
    (htag : point.tag? = some tag) :
    ∃ o e, t.ComesTo tag.node (·.applyAt settings m point) o e := by
  obtain ⟨target, action, value⟩ := m
  -- The point gives the tag: a class is added at the attribute, a property at the tag.
  cases action with
  | wrapElement => exact absurd rfl hm
  | addProp =>
      cases point with
      | moduleTop => cases htag
      | openingTag _ =>
          cases htag
          exact t.exists_edit_addProp _ _ _
      | classAttribute _ a =>
          cases htag
          exact t.exists_edit_addProp _ _ _
  | addClass =>
      cases point with
      | moduleTop => cases htag
      | openingTag _ => exact ⟨.missingAttribute, .keep, .keep, fun _ _ => rfl⟩
      | classAttribute _ a =>
          cases htag
          exact exists_edit_addClass (mem_childrenThatAre.mpr hp.2) _

/-! ### What edits leave alone -/

/-- A tag is undisturbed by an edit at another place that is in none of its strings. -/
lemma Amends.undisturbed {place : NodeId} (ha : Amends t u place id) (h : t.Shaped)
    (htag : (t.kind tag).isTag = true) (hne : tag ≠ place)
    (hplace : ∀ a ∈ t.childrenThatAre tag .attribute, ∀ literal,
      t.childIn? a .value = some literal → t.kind literal = .stringLiteral →
        ¬ t.Under literal place) : Undisturbed t u tag := by
  -- The tag is not the place itself, so its slots are as before; what the attributes say is kept
  -- since no value lies above the place.
  have hslots := (ha.onlyAt tag (lt_size_of_isTag htag) hne).slots_eq
  have hkept : u.children tag = (t.children tag).map id := by
    rw [SyntaxTree.children, Node.children, hslots, List.map_id]
    rfl
  have hattr : ∀ a ∈ t.childrenThatAre tag .attribute, a < t.size ∧ t.kind a = .attribute :=
    fun a hmem => ⟨h.lt_of_mem (mem_childrenThatAre.mp hmem).1, (mem_childrenThatAre.mp hmem).2⟩
  constructor
  case attributes_eq => exact ha.attributes_of_kept h hkept
  case name_eq => exact fun a hmem => ha.nameOfAttribute?_eq h (hattr a hmem).1 (hattr a hmem).2
  case value_eq =>
    exact fun a hmem => ha.stringValue?_eq h (hattr a hmem).1 (hattr a hmem).2 (hplace a hmem)
  case end_eq => exact ha.attributesEnd?_of_kept h htag hkept
  case gap_eq =>
    have hfilter : (t.node tag).slots.filter (fun slot => u.kind slot.child = .attribute)
        = (t.node tag).slots.filter fun slot => t.kind slot.child = .attribute :=
      List.filter_congr fun slot hslot => by
        rw [ha.kind_eq slot.child (h.lt_of_mem (List.mem_map_of_mem hslot))]
    rw [attributeGap, attributeGap, lastAttributeGap?, lastAttributeGap?, hslots, hfilter]

/-- A new attribute is grafted into its tag. -/
lemma grafted_attach (h : t.WellFormed) {i : Nat} (hend : t.attributesEnd? tag = some i)
    (a : Assignment) :
    Grafted t ((Edit.attach tag i (t.attributeGap tag) a).run t)
      (attributeRow t.size a.name a.value) tag ((t.node tag).slots.take i)
      ((t.node tag).slots.drop i) ((t.node tag).slots.drop i) (t.attributeGap tag) := by
  have hrun : (Edit.attach tag i (t.attributeGap tag) a).run t = (t.insertAttribute tag a).2 := by
    simp only [Edit.run, insertAttribute, hend]
  rcases insertAttribute_cases h tag a with ⟨hnone, -⟩ | ⟨j, hj, -, hg⟩
  · rw [hend] at hnone
    cases hnone
  · obtain rfl := Option.some.inj (hend.symm.trans hj)
    rw [hrun]
    exact hg

namespace Fits

variable {e : Edit} (hfits : Fits t tag e) (h : t.Shaped) (htag : (t.kind tag).isTag = true)
include hfits h htag

/-- An edit changes nothing, or amends the module at its place. -/
lemma amends : e = .keep ∨ ∃ place, e.place? = some place ∧ Amends t (e.run t) place id := by
  cases hfits with
  | keep => exact .inl rfl
  | rewrite text ha hv =>
      exact .inr ⟨_, rfl, h.amends_overwrite (mem_childrenThatAre.mp ha).2 hv text⟩
  | attach a hend =>
      exact .inr ⟨_, rfl, (grafted_attach h.toWellFormed hend a).amends_attribute h htag hend⟩

/-- Running a fitting edit keeps the tree in shape. -/
lemma shaped : (e.run t).Shaped := by
  cases hfits with
  | keep => exact h
  | rewrite text ha hv => exact h.overwrite (mem_childrenThatAre.mp ha).2 hv text
  | attach a hend =>
      exact .grafted_attribute (grafted_attach h.toWellFormed hend a) h htag hend

/-- Other tags are undisturbed by an edit at a tag. -/
theorem undisturbed {g : NodeId} (hg : (t.kind g).isTag = true) (hne : g ≠ tag) :
    Undisturbed t (e.run t) g := by
  rcases hfits.amends h htag with rfl | ⟨place, hplace, hamends⟩
  · exact .refl t g
  · cases hfits with
    | keep => cases hplace
    | @rewrite a literal q s text ha hv =>
        cases hplace
        have hattr := mem_childrenThatAre.mp ha
        refine hamends.undisturbed h hg ?_ fun b hb literal' hc hk => ?_
        · rintro rfl
          rw [(stringValue?_spec hv).2.2.1] at hg
          cases hg
        · refine not_under_of_ne h hattr.2 hv (fun heq => hne ?_) hc hk
          -- the same attribute would have both tags as its parent
          have hpb := h.parent_of_mem (mem_childrenThatAre.mp hb).1
          rw [heq, h.parent_of_mem hattr.1, Option.some.injEq] at hpb
          exact hpb.symm
    | attach a hend =>
        cases hplace
        exact hamends.undisturbed h hg hne fun _ _ literal' _ hk =>
          ((h.regular literal').quiet_string hk).not_under_tag htag

omit htag in
/-- Edits at two tags have different places. -/
lemma place?_ne {g place : NodeId} {e' : Edit} (hfits' : Fits t g e') (hne : g ≠ tag)
    (htag : (t.kind tag).isTag = true) (hg : (t.kind g).isTag = true)
    (hplace : e.place? = some place) : e'.place? ≠ some place := by
  intro hplace'
  cases hfits with
  | keep => cases hplace
  | rewrite text ha hv =>
      cases hplace
      cases hfits' with
      | keep => cases hplace'
      | rewrite text' ha' hv' =>
          cases hplace'
          -- one string is the value of one attribute, which stands in one tag
          have hp := h.parent_of_mem (stringValue?_spec hv).1
          rw [h.parent_of_mem (stringValue?_spec hv').1, Option.some.injEq] at hp
          have hpa := h.parent_of_mem (mem_childrenThatAre.mp ha).1
          rw [← hp, h.parent_of_mem (mem_childrenThatAre.mp ha').1, Option.some.injEq] at hpa
          exact hne hpa
      | attach a hend =>
          cases hplace'
          rw [(stringValue?_spec hv).2.2.1] at hg
          cases hg
  | attach a hend =>
      cases hplace
      cases hfits' with
      | keep => cases hplace'
      | rewrite text' ha' hv' =>
          cases hplace'
          rw [(stringValue?_spec hv').2.2.1] at htag
          cases htag
      | attach a' hend' =>
          cases hplace'
          exact hne rfl

end Fits

end Restyle.SyntaxTree
