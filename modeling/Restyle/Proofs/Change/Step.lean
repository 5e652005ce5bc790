import Restyle.Proofs.Search.Attribute

/-!
What a modification does at a point of the module, and what it answers.

* `Holds`: a point of the module; every point that is located in a tree is one of it
  (`holds_of_mem_points`);
* `Fulfils`: a point at which the module is as a modification wants it;
* `Step`, `step_applyAt`: a modification is left out, finds what it wants, or makes one of four
  changes;
* `Tells`, `Step.tells`: the four changes show in the text of the module, and all else leaves the
  tree as it was.
-/

namespace Restyle.SyntaxTree

open ClassList (ofValue isValid missing append)

variable {t t' : SyntaxTree} {settings : TransformSettings} {m : Modification} {tag : Tag}
  {point : Point} {r : Outcome × SyntaxTree}

/-! ### Points of the module -/

/-- A point of the module: its tag is there, and its attribute is one of the tag's. -/
def Holds (t : SyntaxTree) : Point → Prop
  | .moduleTop => True
  | .openingTag tag => t.Located tag
  | .classAttribute tag a => t.Located tag ∧ a ∈ t.children tag.node ∧ t.kind a = .attribute

/-- The point of a tag names the tag. -/
lemma tag?_pointAt (t : SyntaxTree) (classAttributes : List String) (action : ModificationAction)
    (tag : Tag) : (t.pointAt classAttributes action tag).tag? = some tag := by
  unfold pointAt
  split
  · split <;> rfl
  · rfl
  · rfl

/-- The point of a located tag holds in the tree. -/
lemma holds_pointAt (ht : t.Located tag) (classAttributes : List String)
    (action : ModificationAction) : t.Holds (t.pointAt classAttributes action tag) := by
  cases action with
  | addClass =>
      rw [pointAt]
      split
      · next a ha => exact ⟨ht, mem_of_findAttribute? ha⟩
      · exact ht
  | addProp => exact ht
  | wrapElement => exact ht

/-- Every point listed holds in the tree. -/
theorem holds_of_mem_points {classAttributes : List String}
    (hp : point ∈ t.points classAttributes m) : t.Holds point := by
  obtain ⟨tag, ht, rfl⟩ := exists_of_mem_points hp
  exact holds_pointAt ht _ _

lemma holds_of_mem_pointsBefore {classAttributes : List String} {pending : List Modification}
    (hp : point ∈ t.pointsBefore classAttributes m pending) : t.Holds point := by
  rw [pointsBefore, List.mem_filter] at hp
  exact holds_of_mem_points hp.1

/-- The tag of a point that holds is located. -/
lemma Holds.located (hp : t.Holds point) (htag : point.tag? = some tag) : t.Located tag := by
  cases point with
  | moduleTop => cases htag
  | openingTag _ =>
      cases htag
      exact hp
  | classAttribute _ _ =>
      cases htag
      exact hp.1

/-! ### Steps -/

/-- The module is at a point as a modification wants it: the string of the attribute holds the
classes, the first attribute of the name has the value, or the element has the name of the wrapper
or is inside such a one. -/
def Fulfils (t : SyntaxTree) (m : Modification) (point : Point) : Prop :=
  match m.action with
  | .addClass => ∃ tag a literal quote classes, point = .classAttribute tag a
      ∧ t.stringValue? a = some (literal, quote, classes)
      ∧ (Text.contains classes (" ".intercalate (ofValue m.value)) = true
        ∨ ∀ c ∈ ofValue m.value, c ∈ Text.words classes)
  | .addProp => ∃ tag assigned a literal quote, point.tag? = some tag
      ∧ Assignment.ofText? m.value = some assigned
      ∧ t.attribute? tag.node assigned.name = some a
      ∧ t.stringValue? a = some (literal, quote, assigned.value)
  | .wrapElement => ∃ tag, point.tag? = some tag
      ∧ (tag.name = Text.trim m.value ∨ t.isInside tag.element (Text.trim m.value) = true)

/-- What a modification can do at a point, and what it then answers. -/
inductive Step (t : SyntaxTree) (m : Modification) (point : Point) : Outcome × SyntaxTree → Prop
    where
  | leftOut {o : Outcome} : o.isLeftOut = true → Step t m point (o, t)
  | present : t.Fulfils m point → Step t m point (.alreadyPresent, t)
  | extended {tag : Tag} {a literal : NodeId} {quote : Char} {classes : String} :
      m.action = .addClass → point = .classAttribute tag a →
      t.stringValue? a = some (literal, quote, classes) →
      missing (ofValue m.value) classes ≠ [] →
      Step t m point (.applied, t.overwrite literal
        (quoted quote (append classes (missing (ofValue m.value) classes))))
  | assigned {tag : Tag} {assigned : Assignment} {a literal : NodeId} {quote : Char}
      {current : String} :
      m.action = .addProp → point.tag? = some tag →
      Assignment.ofText? m.value = some assigned →
      t.attribute? tag.node assigned.name = some a →
      t.stringValue? a = some (literal, quote, current) → current ≠ assigned.value →
      Step t m point (.applied, t.overwrite literal
        (quoted (if assigned.value.toList.contains quote then '"' else quote) assigned.value))
  | added {tag : Tag} {assigned : Assignment} {i : Nat} {t' : SyntaxTree} :
      m.action = .addProp → point.tag? = some tag →
      Assignment.ofText? m.value = some assigned →
      t.attribute? tag.node assigned.name = none → t.attributesEnd? tag.node = some i →
      t.insertAttribute tag.node assigned = (.applied, t') →
      Grafted t t' (attributeRow t.size assigned.name assigned.value) tag.node
        ((t.node tag.node).slots.take i) ((t.node tag.node).slots.drop i)
        ((t.node tag.node).slots.drop i) (t.attributeGap tag.node) →
      Step t m point (.applied, t')
  | wrapped {tag : Tag} {p : NodeId} {l r : List Slot} {gap : String} {t' : SyntaxTree} :
      m.action = .wrapElement → point.tag? = some tag →
      Wrapped t t' (Text.trim m.value) tag.element p l r gap → Step t m point (.applied, t')

/-- Adding classes at their attribute is a step. -/
lemma step_addClass (hm : m.action = .addClass) {a : NodeId}
    (hpoint : point = .classAttribute tag a) : Step t m point (t.addClass a m.value) := by
  rw [addClass]
  split
  · exact .leftOut rfl
  · split
    · exact .leftOut rfl
    · next literal quote classes hv =>
        split
        · next hnone =>
            refine .present ?_
            rw [Fulfils, hm]
            exact ⟨tag, a, literal, quote, classes, hpoint, hv,
              ClassList.missing_eq_nil_iff.mp hnone⟩
        · next hlacking => exact .extended hm hpoint hv hlacking

/-- Setting the value of an attribute of the right name is a step. -/
lemma step_changeValue (hm : m.action = .addProp) (htag : point.tag? = some tag)
    {assigned : Assignment} (hof : Assignment.ofText? m.value = some assigned) {a : NodeId}
    (ha : t.attribute? tag.node assigned.name = some a) :
    Step t m point (t.changeValue a assigned.value) := by
  rw [changeValue]
  split
  · exact .leftOut rfl
  · next literal quote current hv =>
      split
      · next heq =>
          refine .present ?_
          rw [Fulfils, hm]
          exact ⟨tag, assigned, a, literal, quote, htag, hof, ha, heq ▸ hv⟩
      · next hne => exact .assigned hm htag hof ha hv hne

/-- Setting a property of a tag is a step. -/
lemma step_addProp (h : t.WellFormed) (hm : m.action = .addProp) (htag : point.tag? = some tag)
    (synthesize : Bool) : Step t m point (t.addProp tag.node m.value synthesize) := by
  rw [addProp]
  cases hof : Assignment.ofText? m.value with
  | none => exact .leftOut rfl
  | some assigned =>
      dsimp only
      cases ha : t.attribute? tag.node assigned.name with
      | some a => exact step_changeValue hm htag hof ha
      | none =>
          dsimp only
          split
          · rcases insertAttribute_cases h tag.node assigned with
              ⟨-, heq⟩ | ⟨i, hend, happ, hg⟩
            · rw [heq]
              exact .leftOut rfl
            · have hins := Prod.eta (t.insertAttribute tag.node assigned)
              rw [happ] at hins
              rw [← hins]
              exact .added hm htag hof ha hend hins.symm hg
          · exact .leftOut rfl

/-- Wrapping the element of a tag is a step. -/
lemma step_wrapElement (h : t.Document) (hm : m.action = .wrapElement)
    (htag : point.tag? = some tag) (ht : t.Located tag) :
    Step t m point (t.wrapElement tag m.value) := by
  rcases wrapElement_cases h.toWellFormed tag m.value with
    hun | ⟨happ, -, -, -, p, l, r, gap, hw⟩
  · have hsame := hun.unchanged h ht
    generalize t.wrapElement tag m.value = result at hun hsame
    cases hun with
    | nameless _ => exact .leftOut rfl
    | present hthere =>
        refine .present ?_
        rw [Fulfils, hm]
        exact ⟨tag, htag, hthere⟩
    | alone _ => exact .leftOut rfl
    | placeless _ _ =>
        rw [show t.plant _ = t from hsame]
        exact .leftOut rfl
  · rw [← Prod.eta (t.wrapElement tag m.value), happ]
    exact .wrapped hm htag hw

/-- What a modification does at a point of the module. -/
theorem Document.step_applyAt (h : t.Document) (settings : TransformSettings) (m : Modification)
    (hp : t.Holds point) : Step t m point (t.applyAt settings m point) := by
  unfold SyntaxTree.applyAt
  split
  · exact .leftOut rfl
  · next tag a hm => exact step_addClass hm rfl
  · exact .leftOut rfl
  · next tag hm => exact step_addProp h.toWellFormed hm rfl _
  · next tag a hm => exact step_addProp h.toWellFormed hm rfl _
  · next tag hm => exact step_wrapElement h hm rfl (hp.located rfl)
  · next tag a hm => exact step_wrapElement h hm rfl (hp.located rfl)

/-! ### What shows in the text -/

/-- Replacing a text by another one changes what is rendered. -/
lemma Replaces.render_ne {id : NodeId} {new : String} (hr : t.Replaces t' id new)
    (hne : new ≠ t.text id) : t'.render ≠ t.render := by
  obtain ⟨pre, post, -, heq, heq'⟩ := hr
  rw [heq, heq']
  exact fun hsame =>
    hne ((String.append_right_inj pre).mp ((String.append_left_inj post).mp hsame))

/-- Inserting a text changes what is rendered. -/
lemma InsertsBefore.render_ne {slot : Slot} {new : String} (hi : t.InsertsBefore t' slot new)
    (hne : new ≠ "") : t'.render ≠ t.render := by
  obtain ⟨pre, post, -, heq, heq'⟩ := hi
  rw [heq, heq']
  intro hsame
  have hlength := congrArg String.length ((String.append_left_inj _).mp hsame)
  rw [String.length_append] at hlength
  exact hne (String.length_eq_zero_iff.mp (by omega))

lemma quoted_inj {q q' : Char} {v v' : String} (h : quoted q v = quoted q' v') : v = v' := by
  have hlist := congrArg String.toList h
  simp only [quoted, String.toList_append, String.toList_singleton, List.cons_append,
    List.nil_append, List.cons.injEq] at hlist
  exact String.toList_injective (List.append_inj_left' hlist.2 rfl)

/-- Classes that are put behind others show. -/
lemma append_missing_ne {classes : List String} {existing : String}
    (hsolid : ∀ c ∈ classes, Text.Solid c.toList) (hne : missing classes existing ≠ []) :
    append existing (missing classes existing) ≠ existing := fun heq => by
  have hmissing : ∀ c ∈ missing classes existing, Text.Solid c.toList := fun c hc =>
    hsolid c (ClassList.mem_of_mem_missing hc)
  have hwords := ClassList.words_append existing hmissing
  rw [heq, List.self_eq_append_right] at hwords
  exact hne hwords

/-- The answer tells whether the text changes, and unless it does the tree is as before. -/
def Tells (t : SyntaxTree) (r : Outcome × SyntaxTree) : Prop :=
  (r.1 = .applied ↔ r.2.render ≠ t.render) ∧ (r.1 ≠ .applied → r.2 = t)

lemma tells_of_ne {o : Outcome} (h : o ≠ .applied) : t.Tells (o, t) :=
  ⟨⟨fun happ => absurd happ h, fun hne => absurd rfl hne⟩, fun _ => rfl⟩

lemma tells_of_render_ne (h : t'.render ≠ t.render) : t.Tells (.applied, t') :=
  ⟨⟨fun _ => h, fun _ => rfl⟩, fun hne => absurd rfl hne⟩

/-- The string of an attribute of the module gets another inner text. -/
lemma render_overwrite_ne (h : t.WellFormed) {a literal : NodeId} {q q' : Char} {v v' : String}
    (ha : a ∈ t.descendants root) (hv : t.stringValue? a = some (literal, q, v)) (hne : v' ≠ v) :
    (t.overwrite literal (quoted q' v')).render ≠ t.render := by
  obtain ⟨hmem, -, -, hquote⟩ := stringValue?_spec hv
  refine (replaces_overwrite h (child_mem_descendants h.toLinked ha hmem) _).render_ne ?_
  rw [(quoted_of_quotationOf? hquote).2]
  exact fun heq => hne (quoted_inj heq)

/-- A step reports `applied` just when it changes the text, and else leaves the tree alone. -/
theorem Step.tells (hs : Step t m point r) (h : t.Document) (hp : t.Holds point) : t.Tells r := by
  have hl := h.toLinked
  cases hs with
  | leftOut ho =>
      refine tells_of_ne fun heq => ?_
      rw [heq] at ho
      cases ho
  | present _ => exact tells_of_ne (by decide)
  | extended hm hpoint hv hlacking =>
      subst hpoint
      refine tells_of_render_ne (render_overwrite_ne h.toWellFormed
        (child_mem_descendants hl hp.1.mem hp.2.1) hv ?_)
      exact append_missing_ne (fun c => ClassList.solid_of_mem_ofValue) hlacking
  | assigned hm htag hof ha hv hne =>
      refine tells_of_render_ne (render_overwrite_ne h.toWellFormed
        (child_mem_descendants hl (hp.located htag).mem (mem_of_findAttribute? ha).1) hv ?_)
      exact hne.symm
  -- An attribute has at least its `=`, so something is inserted.
  | added hm htag hof ha hend hins hg =>
      have hbefore := insertsBefore_insertAttribute h.toWellFormed (hp.located htag).mem _
        (congrArg Prod.fst hins)
      obtain ⟨_, stop, -, -, -, -, hi⟩ := hbefore
      rw [hins] at hi
      refine tells_of_render_ne (hi.render_ne fun hempty => ?_)
      have hlength := congrArg String.length hempty
      simp [String.length_append] at hlength
  -- The tags around it make the element's text longer.
  | wrapped hm htag hw =>
      have hmem := (hp.located htag).element_mem hl h.kind_root
      refine tells_of_render_ne ((hw.replaces h.toWellFormed
        (parent_mem_descendants hl hmem hw.parent_eq)).render_ne fun heq => ?_)
      have hlength := congrArg String.length heq
      simp only [String.length_append, show "<".length = 1 from rfl] at hlength
      omega

/-- A modification that is applied at a point of the module answers whether the text changes. -/
theorem Document.tells_applyAt (h : t.Document) (settings : TransformSettings) (m : Modification)
    (hp : t.Holds point) : t.Tells (t.applyAt settings m point) :=
  (h.step_applyAt settings m hp).tells h hp

end Restyle.SyntaxTree
