import Restyle.Proofs.Change.Advance

/-!
Modules that differ in the strings of attributes only.

* `Retouched`: the same is found in both modules, and only strings of attributes are put together
  differently;
* `Retouched.text_eq`: if the tags hold the same, the modules are written the same;
* `Requoted.render_eq_iff`: if only quotes differ, the modules are written the same only then;
* `Application.retouched`: a modification that has nothing to add and no wrapper to put only
  retouches the module.
-/

namespace Restyle.SyntaxTree

variable {t t' t'' : SyntaxTree}

/-- Only strings of attributes differ. -/
structure Retouched (t t' : SyntaxTree) : Prop where
  grows : Grows t t'
  back : Grows t' t
  attributes_eq : ∀ tag, t.Located tag →
    t'.childrenThatAre tag.node .attribute = t.childrenThatAre tag.node .attribute
  value_eq : ∀ a, t.kind a = .attribute →
    (t'.stringValue? a).map Prod.fst = (t.stringValue? a).map Prod.fst
  /-- A node is put together as before, or it is the string of an attribute. -/
  alike_or_value : ∀ x, t.Alike t' x ∨ ∃ tag a, t.Located tag
    ∧ a ∈ t.childrenThatAre tag.node .attribute ∧ (t.stringValue? a).map Prod.fst = some x

namespace Retouched

/-- A tree is retouched by nothing. -/
theorem refl (t : SyntaxTree) : Retouched t t where
  grows := .refl t
  back := .refl t
  attributes_eq := fun _ _ => rfl
  value_eq := fun _ _ => rfl
  alike_or_value := fun _ => .inl ⟨rfl, rfl, rfl⟩

lemma size_eq (h : Retouched t t') : t'.size = t.size :=
  Nat.le_antisymm h.back.size_le h.grows.size_le

lemma kind_eq (h : Retouched t t') (x : NodeId) : t'.kind x = t.kind x := by
  rcases Nat.lt_or_ge x t.size with hlt | hge
  · exact h.grows.kind_eq x hlt
  · rw [kind, kind, t.node_of_size_le hge, t'.node_of_size_le (h.size_eq ▸ hge)]

lemma located_iff (h : Retouched t t') (hl : t.Linked) (hl' : t'.Linked) {tag : Tag} :
    t'.Located tag ↔ t.Located tag :=
  ⟨h.back.located hl', h.grows.located hl⟩

/-- Retouching twice is retouching. -/
theorem trans (h : Retouched t t') (h' : Retouched t' t'') (hl : t.Linked) (hl' : t'.Linked) :
    Retouched t t'' where
  grows := h.grows.trans h'.grows
  back := h'.back.trans h.back
  attributes_eq := fun tag ht =>
    (h'.attributes_eq tag (h.grows.located hl ht)).trans (h.attributes_eq tag ht)
  value_eq := fun a ha => (h'.value_eq a ((h.kind_eq a).trans ha)).trans (h.value_eq a ha)
  alike_or_value := fun x => by
    rcases h.alike_or_value x with halike | hvalue
    · rcases h'.alike_or_value x with halike' | ⟨tag, a, ht, ha, hx⟩
      · exact .inl ⟨halike'.slots_eq.trans halike.slots_eq,
          halike'.literal_eq.trans halike.literal_eq, halike'.ending_eq.trans halike.ending_eq⟩
      · have ht' := h.back.located hl' ht
        rw [h.attributes_eq tag ht'] at ha
        rw [h.value_eq a (mem_childrenThatAre.mp ha).2] at hx
        exact .inr ⟨tag, a, ht', ha, hx⟩
    · exact .inr hvalue

/-- A module in which the tags hold the same is written the same. -/
theorem text_eq (hr : Retouched t t') (h : t.WellFormed) (h' : t'.WellFormed)
    (hsame : ∀ tag, t.Located tag → t'.properties tag.node = t.properties tag.node) (x : NodeId) :
    t'.text x = t.text x := by
  -- By induction from the leaves up: a node is alike, or it is the value of a property, which is
  -- the same.
  induction x using h.toLinked.inductBelow with
  | step x ih =>
      rcases hr.alike_or_value x with ⟨hslots, hliteral, hending⟩ | ⟨tag, a, ht, ha, hx⟩
      · rw [h.text_eq, h'.text_eq, hliteral, textBelow, textBelow, hslots, hending]
        congr 3
        refine List.map_congr_left fun slot hslot => ?_
        rw [ih slot.child (List.mem_map_of_mem hslot)]
      · have hprop := hsame tag ht
        rw [properties, properties, hr.attributes_eq tag ht] at hprop
        have heq := congrArg Property.string (List.map_inj_left.mp hprop a ha)
        have hx' := (hr.value_eq a (mem_childrenThatAre.mp ha).2).trans hx
        obtain ⟨⟨literal, q, v⟩, hv, rfl⟩ := Option.map_eq_some_iff.mp hx
        obtain ⟨⟨literal', q', v'⟩, hv', hliteral⟩ := Option.map_eq_some_iff.mp hx'
        dsimp only at hliteral
        subst hliteral
        rw [propertyOf, propertyOf, hv, hv'] at heq
        have hstring : (q', v') = (q, v) := Option.some.inj heq
        rw [Prod.mk.injEq] at hstring
        obtain ⟨rfl, rfl⟩ := hstring
        rw [(quoted_of_quotationOf? (stringValue?_spec hv).2.2.2).2,
          (quoted_of_quotationOf? (stringValue?_spec hv').2.2.2).2]

end Retouched

/-! ### Strings in other quotes -/

lemma length_quoted (q : Char) (v : String) : (quoted q v).toList.length = v.toList.length + 2 := by
  rw [quoted, String.toList_append, String.toList_append, List.length_append, List.length_append,
    String.toList_singleton, List.length_singleton]
  omega

/-- Joined texts are as long as texts of the same lengths. -/
lemma length_join {α : Type} {l : List α} {f g : α → String}
    (h : ∀ a ∈ l, (f a).toList.length = (g a).toList.length) :
    (String.join (l.map f)).toList.length = (String.join (l.map g)).toList.length := by
  induction l with
  | nil => rfl
  | cons a l ih =>
      rw [List.map_cons, List.map_cons, String.join_cons, String.join_cons, String.toList_append,
        String.toList_append, List.length_append, List.length_append, h a List.mem_cons_self,
        ih fun b hb => h b (List.mem_cons_of_mem _ hb)]

/-- Rows of texts of the same lengths are the same only if the texts are. -/
lemma join_inj {α : Type} {l : List α} {f g : α → String}
    (h : ∀ a ∈ l, (f a).toList.length = (g a).toList.length)
    (heq : String.join (l.map f) = String.join (l.map g)) : ∀ a ∈ l, f a = g a := by
  induction l with
  | nil => exact fun _ ha => absurd ha List.not_mem_nil
  | cons a l ih =>
      rw [List.map_cons, List.map_cons, String.join_cons, String.join_cons, ← String.toList_inj,
        String.toList_append, String.toList_append] at heq
      obtain ⟨hhead, htail⟩ := List.append_inj heq (h a List.mem_cons_self)
      intro b hb
      rcases List.mem_cons.mp hb with rfl | hb
      · exact String.toList_inj.mp hhead
      · exact ih (fun c hc => h c (List.mem_cons_of_mem _ hc)) (String.toList_inj.mp htail) b hb

/-- Only strings of attributes differ, and those only in their quotes. -/
structure Requoted (t t' : SyntaxTree) : Prop extends Retouched t t' where
  shaped : t'.Shaped
  names_eq : ∀ tag, t.Located tag →
    (t'.properties tag.node).map Property.name = (t.properties tag.node).map Property.name
  inner_eq : ∀ tag, t.Located tag →
    (t'.properties tag.node).map Property.inner = (t.properties tag.node).map Property.inner

/-- What a string of an attribute becomes in other quotes. -/
lemma Requoted.exists_quote (hr : Requoted t t') {tag : Tag} (ht : t.Located tag) {a : NodeId}
    (ha : a ∈ t.childrenThatAre tag.node .attribute) {x : NodeId} {q : Char} {v : String}
    (hv : t.stringValue? a = some (x, q, v)) : ∃ q', t'.stringValue? a = some (x, q', v) := by
  have hinner := hr.inner_eq tag ht
  rw [properties, properties, hr.attributes_eq tag ht, List.map_map, List.map_map] at hinner
  have heq := List.map_inj_left.mp hinner a ha
  have hx := hr.value_eq a (mem_childrenThatAre.mp ha).2
  rw [hv] at hx
  obtain ⟨⟨x', q', v'⟩, hv', hx'⟩ := Option.map_eq_some_iff.mp hx
  have hxx : x' = x := hx'
  subst hxx
  rw [Function.comp_apply, Function.comp_apply, propertyOf, propertyOf, hv, hv'] at heq
  have hvv : v' = v := Option.some.inj heq
  exact ⟨q', hvv ▸ hv'⟩

/-- The string of an attribute is written in other quotes at most. -/
lemma Requoted.text_value (hr : Requoted t t') {tag : Tag} (ht : t.Located tag) {a x : NodeId}
    (ha : a ∈ t.childrenThatAre tag.node .attribute)
    (hx : (t.stringValue? a).map Prod.fst = some x) :
    ∃ q q' v, t.text x = quoted q v ∧ t'.text x = quoted q' v := by
  obtain ⟨⟨literal, q, v⟩, hv, rfl⟩ := Option.map_eq_some_iff.mp hx
  obtain ⟨q', hv'⟩ := hr.exists_quote ht ha hv
  exact ⟨q, q', v, (quoted_of_quotationOf? (stringValue?_spec hv).2.2.2).2,
    (quoted_of_quotationOf? (stringValue?_spec hv').2.2.2).2⟩

/-- Every node is written in as many characters as before. -/
theorem Requoted.length_text (hr : Requoted t t') (h : t.WellFormed) (x : NodeId) :
    (t'.text x).toList.length = (t.text x).toList.length := by
  induction x using h.toLinked.inductBelow with
  | step x ih =>
      rcases hr.alike_or_value x with ⟨hslots, hliteral, hending⟩ | ⟨tag, a, ht, ha, hx⟩
      · rw [h.text_eq, hr.shaped.toWellFormed.text_eq, hliteral]
        cases (t.node x).literal with
        | some s => rw [Option.getD_some, Option.getD_some]
        | none =>
            rw [Option.getD_none, Option.getD_none, textBelow, textBelow, hslots, hending,
              String.toList_append, String.toList_append, List.length_append, List.length_append]
            refine congrArg (· + _) (length_join fun slot hslot => ?_)
            rw [String.toList_append, String.toList_append, List.length_append,
              List.length_append, ih slot.child (List.mem_map_of_mem hslot)]
      · obtain ⟨q, q', v, hold, hnew⟩ := hr.text_value ht ha hx
        rw [hold, hnew, length_quoted, length_quoted]

/-- What is written in other quotes shows in the text of the node that holds it. -/
lemma Requoted.text_child (hr : Requoted t t') (h : t.WellFormed) {x c : NodeId}
    (hx : t.kind x ≠ .stringLiteral) (hc : c ∈ t.children x) (heq : t'.text x = t.text x) :
    t'.text c = t.text c := by
  rcases hr.alike_or_value x with ⟨hslots, hliteral, hending⟩ | ⟨tag, a, -, -, hvalue⟩
  · cases hlit : (t.node x).literal with
    | some s =>
        rw [children, Node.children, h.slots_of_literal hlit] at hc
        exact absurd hc List.not_mem_nil
    | none =>
        rw [h.text_of_no_literal hlit, hr.shaped.toWellFormed.text_of_no_literal
          (hliteral.trans hlit), textBelow, textBelow, hslots, hending, ← String.toList_inj,
          String.toList_append, String.toList_append] at heq
        have hlen : ∀ slot ∈ (t.node x).slots, (slot.gap ++ t'.text slot.child).toList.length
            = (slot.gap ++ t.text slot.child).toList.length := fun slot _ => by
          rw [String.toList_append, String.toList_append, List.length_append, List.length_append,
            hr.length_text h]
        have hjoin := String.toList_inj.mp (List.append_inj heq (length_join hlen)).1
        obtain ⟨slot, hslot, rfl⟩ := List.mem_map.mp hc
        exact (String.append_right_inj _).mp (join_inj hlen hjoin slot hslot)
  · obtain ⟨⟨literal, q, v⟩, hv, rfl⟩ := Option.map_eq_some_iff.mp hvalue
    exact absurd (stringValue?_spec hv).2.2.1 hx

/-- What is written in other quotes at an attribute shows in the text of the module. -/
theorem Requoted.text_attribute (hr : Requoted t t') (h : t.Shaped) {x a : NodeId}
    (hx : x < t.size) (ha : a ∈ t.descendants x) (hk : t.kind a = .attribute)
    (heq : t'.text x = t.text x) : t'.text a = t.text a := by
  induction x using h.toLinked.inductBelow with
  | step x ih =>
      rcases (mem_descendants_iff h.toLinked hx).mp ha with rfl | ⟨c, hc, hac⟩
      · exact heq
      · have hstring : t.kind x ≠ .stringLiteral := fun hstring =>
          ((h.regular x).quiet_string hstring).not_under_attribute hk
            (under_of_mem_descendants h.toLinked hx ha)
        exact ih c hc (h.lt_of_mem hc) hac (hr.text_child h.toWellFormed hstring hc heq)

/-- The module is written the same exactly if the strings keep their quotes. -/
theorem Requoted.render_eq_iff (hr : Requoted t t') (h : t.Shaped) :
    t'.render = t.render
      ↔ ∀ tag, t.Located tag → t'.properties tag.node = t.properties tag.node := by
  refine ⟨fun heq tag ht => ?_, fun hsame =>
    hr.text_eq h.toWellFormed hr.shaped.toWellFormed hsame root⟩
  have hnames := hr.names_eq tag ht
  rw [properties, properties, hr.attributes_eq tag ht, List.map_map, List.map_map] at hnames
  rw [properties, properties, hr.attributes_eq tag ht]
  refine List.map_congr_left fun a ha => ?_
  have hname := List.map_inj_left.mp hnames a ha
  rw [Function.comp_apply, Function.comp_apply] at hname
  obtain ⟨hmem, hk⟩ := mem_childrenThatAre.mp ha
  have hstring : t'.stringValue? a = t.stringValue? a := by
    cases hv : t.stringValue? a with
    | none =>
        have := hr.value_eq a hk
        rw [hv] at this
        exact Option.map_eq_none_iff.mp this
    | some s =>
        obtain ⟨x, q, v⟩ := s
        -- The value may have got another quote; its text says that it has not.
        obtain ⟨q', hv'⟩ := hr.exists_quote ht ha hv
        have htext := hr.text_child h.toWellFormed (by rw [hk]; decide) (stringValue?_spec hv).1
          (hr.text_attribute h h.root_lt (child_mem_descendants h.toLinked ht.mem hmem) hk heq)
        have hquote := (stringValue?_spec hv').2.2.2
        rw [htext, (stringValue?_spec hv).2.2.2, Option.some.injEq, Prod.mk.injEq] at hquote
        rw [hv', hquote.1]
  rw [propertyOf, propertyOf, hstring]
  exact congrArg₂ Property.mk hname rfl

/-! ### Changes that only retouch -/

/-- Overwriting the string of an attribute. -/
lemma Shaped.retouched_overwrite (h : t.Shaped) {tag : Tag} (ht : t.Located tag) {a : NodeId}
    (hmem : a ∈ t.childrenThatAre tag.node .attribute) {literal : NodeId} {q : Char} {v : String}
    (hv : t.stringValue? a = some (literal, q, v)) {quote : Char}
    (hquote : quote = '"' ∨ quote = '\'') (s : String) :
    Retouched t (t.overwrite literal (quoted quote s)) := by
  have ha := (mem_childrenThatAre.mp hmem).2
  have hamends := h.amends_overwrite ha hv (quoted quote s)
  refine ⟨hamends.grows h, hamends.grows_back h (size_overwrite _ _ _), fun tag' ht' => ?_,
    fun b hb => ?_, fun x => ?_⟩
  · refine hamends.attributes_of_kept h (children_overwrite hv (fun hk => ?_) _)
    have := ht'.isTag
    rw [hk] at this
    cases this
  -- The attribute's own value is the new one, and no other attribute's value is written to.
  · by_cases hba : b = a
    · subst hba
      rw [stringValue?_overwrite h ha hv hquote, hv]
      rfl
    · rcases Nat.lt_or_ge b t.size with hlt | hge
      · rw [hamends.stringValue?_eq h hlt hb fun literal' hc hk =>
          not_under_of_ne h ha hv hba hc hk]
      · rw [kind, t.node_of_size_le hge] at hb
        cases hb
  · by_cases hx : x = literal
    · subst hx
      exact .inr ⟨tag, a, ht, hmem, by rw [hv]; rfl⟩
    · have hnode := node_overwrite_of_ne (t := t) hx (quoted quote s)
      exact .inl ⟨by rw [hnode], by rw [hnode], by rw [hnode]⟩

variable {settings : TransformSettings} {m : Modification} {tag : Tag}

/-- A modification finds an attribute to reword, or is not about to add one. -/
def Finds (t : SyntaxTree) (settings : TransformSettings) (m : Modification) (tag : Tag) : Prop :=
  ∀ a, assigned? m = some a → t.adds settings tag.node = true →
    ((t.properties tag.node).map Property.name).findIdx?
      (Property.picks settings.actualClassAttributes m) ≠ none

/-- A modification finds its wrapper around an element, or is not about to put one. -/
def Wears (t : SyntaxTree) (m : Modification) (tag : Tag) : Prop :=
  m.action = .wrapElement → isDottedName (Text.trim m.value) = true →
    tag.name = Text.trim m.value ∨ t.isInside tag.element (Text.trim m.value) = true

/-- A modification that has nothing to add and no wrapper to put only retouches the module. -/
theorem Application.retouched (ha : Application t t' settings m tag) (h : t.Shaped)
    (ht : t.Located tag) (hfinds : t.Finds settings m tag) (hwears : t.Wears m tag) :
    Retouched t t' := by
  cases ha with
  | same heq =>
      subst heq
      exact .refl t'
  | reworded _ hi _ hr =>
      rcases hr with ⟨rfl, -⟩ | ⟨literal, q, v, hv, rfl⟩
      · exact .refl t'
      · have hquote := reword_quote (m := m) (s := (q, v))
          (quoted_of_quotationOf? (stringValue?_spec hv).2.2.2).1
        exact h.retouched_overwrite ht (List.mem_of_getElem? hi) hv hquote _
  | added ha hnone hadds => exact absurd hnone (hfinds _ ha hadds)
  | wrapped hm hname hinside hdotted =>
      rcases hwears hm hdotted with heq | heq
      · exact absurd heq hname
      · rw [hinside] at heq
        cases heq

end Restyle.SyntaxTree
