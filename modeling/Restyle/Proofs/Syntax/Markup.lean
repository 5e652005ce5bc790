import Restyle.Proofs.Syntax.AttributeRow

/-!
How tags, elements, strings and names are read.

* `Cst.TagRow`, `ReadBy.tagRow`: a tag is an angle bracket, a name with attributes, and a token at
  the end;
* `Cst.ElementRow`, `ReadBy.elementRow`: an element starts with its only opening tag;
* `ReadBy.words_of_string`, `ReadBy.words_of_attribute`: strings and the names of attributes are
  made of words;
* `ReadBy.eq_element`, `ReadBy.eq_tag`: opening tags stand in elements only, and attributes in tags
  only.
-/

namespace Restyle.Syntax

open Grammar SyntaxTree Cst

variable {reserved : String → Bool} {name : Option Construct} {role : Option Role} {r : Rule}
  {place : Nat} {source front text rest : List Char} {trees children : List Cst} {c : Construct}

namespace Cst

/-- The kinds of what stands in a tag between its angle bracket and its end. -/
def partKinds : List NodeKind :=
  [.comment, .identifier, .other, .attribute, .expressionContainer]

/-- The kinds of what names and strings are made of. -/
def wordKinds : List NodeKind :=
  [.comment, .identifier, .other, .token]

/-- The children of a tag: an angle bracket, a name and attributes, and the token at the end. -/
inductive TagRow (source : List Char) : List Cst → Prop
  | row {bracket stop : Cst} {parts : List Cst} (hbracket : bracket.label = .token "<")
    (hrole : bracket.role = none) (hspelled : slice source bracket.start bracket.stop = "<")
    (hkinds : ∀ c ∈ parts, c.label.kind ∈ partKinds)
    (hnames : ∀ c ∈ parts, c.role = some .name → ∀ sub ∈ c.preorder, sub.label.kind ∈ wordKinds)
    (hstop : stop.label.kind = .token) (hnone : stop.role = none) :
    TagRow source (bracket :: (parts ++ [stop]))

/-- The children of an element: its opening tag, which has no like behind it. -/
inductive ElementRow : List Cst → Prop
  | row {opening : Cst} {others : List Cst} (hopening : opening.label = .named .openingTag)
    (hrole : opening.role = some .openTag) (hroles : ∀ c ∈ others, c.role ≠ some .openTag)
    (hkinds : ∀ c ∈ others, c.label.kind ≠ .openingTag ∧ c.label.kind ≠ .object) :
    ElementRow (opening :: others)

end Cst

/-! ### Names, attributes and contents -/

/-- What names are made of. -/
abbrev nameConstructs : List Construct :=
  [.anyMarkupName, .dashedName, .identifier, .namespacedName, .nestedIdentifier, .attributeName]

lemma nameScope_closed : (Scope.of nameConstructs [.identifier, .member, .propertyName] true
    [.name]).Closed fun _ => true :=
  Scope.of_closed (by decide) fun _ _ => rfl

/-- The names of a tag and its attributes. -/
lemma nameScope_admits : (Scope.of nameConstructs [.identifier, .member, .propertyName] true
    [.name]).Admits fun label => label.kind ∈ wordKinds :=
  Scope.of_admits (by decide) (by decide) fun _ _ => by
    change NodeKind.token ∈ wordKinds
    decide

/-- What stands in a tag behind its bracket. -/
abbrev partConstructs : List Construct :=
  [.anyMarkupName, .dashedName, .identifier, .namespacedName, .nestedIdentifier, .typeArguments,
    .anyAttribute, .attribute, .container]

lemma partScope_closed {slots : List Role} :
    (Scope.of partConstructs [.identifier, .member] false slots).Closed isPassedOver :=
  Scope.of_closed rfl fun _ h => h

lemma partScope_admits {slots : List Role} :
    (Scope.of partConstructs [.identifier, .member] false slots).Admits
      fun label => label.kind ∈ partKinds :=
  Scope.of_admits (by decide) (by decide) nofun

/-- What stands in an element behind its opening tag. -/
abbrev contentConstructs : List Construct :=
  [.elementChild, .text, .characterReference, .anyElement, .element, .selfClosingElement,
    .container, .closingTag]

lemma contentScope_closed :
    (Scope.of contentConstructs [] false [.closeTag]).Closed isPassedOver :=
  Scope.of_closed rfl fun _ h => h

lemma contentScope_admits : (Scope.of contentConstructs [] false [.closeTag]).Admits
    fun label => label.kind ≠ .openingTag ∧ label.kind ≠ .object :=
  Scope.of_admits (by decide) (by decide) nofun

/-- What strings are made of between their quotes. -/
abbrev fragmentConstructs : List Construct :=
  [.doubleFragment, .singleFragment, .doubleMarkupFragment, .singleMarkupFragment, .escapeSequence,
    .characterReference]

lemma fragmentScope_closed :
    (Scope.of fragmentConstructs [.stringFragment] true []).Closed fun _ => true :=
  Scope.of_closed rfl fun _ _ => rfl

lemma fragmentScope_admits : (Scope.of fragmentConstructs [.stringFragment] true []).Admits
    fun label => label.kind ∈ wordKinds :=
  Scope.of_admits (by decide) (by decide) fun _ _ => by
    change NodeKind.token ∈ wordKinds
    decide

namespace Reads

/-- A weight decides between readings and changes none. -/
lemma weighed_iff {weight : Int} :
    Reads reserved name role (.weighed weight r) place text rest trees
      ↔ Reads reserved name role r place text rest trees := by
  refine ⟨fun h => ?_, .weighed⟩
  cases h
  assumption

/-- What stands in a slot is read with its role. -/
lemma slot_iff {own : Role} :
    Reads reserved name role (.slot own r) place text rest trees
      ↔ Reads reserved name (some own) r place text rest trees := by
  refine ⟨fun h => ?_, .slot⟩
  cases h
  assumption

/-- What fills the slot of the name in a tag is made of words. -/
lemma words_of_name (h : Reads reserved none (some .name) r place text rest trees)
    (hr : r.isWithin (.of nameConstructs [.identifier, .member, .propertyName] true [.name]) none
      = true) :
    ∀ sub ∈ preorderAll trees, sub.label.kind ∈ wordKinds :=
  h.labels nameScope_closed nameScope_admits hr fun own hown => by
    rw [Option.mem_some] at hown
    exact hown ▸ rfl

/-- What stands in a tag behind the name is none. -/
lemma role_ne_name (h : Reads reserved none none r place text rest trees)
    (hr : r.isWithin (.of partConstructs [.identifier, .member] false [.attribute]) none = true) :
    ∀ t ∈ trees, t.role ≠ some .name := fun t ht heq =>
  absurd ((h.tops partScope_closed partScope_admits hr nofun t ht).2 _ heq) (by decide)

/-- The parts of a tag behind its bracket. -/
lemma of_parts {parts : Rule} (hparts : openingTagStart = .seq (.spelled "<") parts)
    (h : Reads reserved none none parts place text rest trees) :
    (∀ t ∈ trees, t.label.kind ∈ partKinds)
      ∧ ∀ t ∈ trees, t.role = some .name → ∀ sub ∈ t.preorder, sub.label.kind ∈ wordKinds := by
  obtain rfl := (Rule.seq.inj hparts).2
  refine ⟨fun t ht => (h.tops (s := .of partConstructs [.identifier, .member] false
    [.name, .attribute]) partScope_closed partScope_admits rfl nofun t ht).1, ?_⟩
  rcases alt_iff.mp h with h | h
  -- The name comes first, maybe with type arguments, and the attributes have a role of their own.
  · obtain ⟨_, _, first, second, -, rfl, hfirst, hsecond⟩ := seq_iff.mp h
    have hback := hsecond.role_ne_name rfl
    refine List.forall_mem_append.mpr ⟨?_, fun t ht hname => absurd hname (hback t ht)⟩
    rcases alt_iff.mp hfirst with hfirst | hfirst
    · have hwords := (slot_iff.mp hfirst).words_of_name rfl
      exact fun t ht _ sub hsub => hwords sub (mem_preorderAll.mpr ⟨t, ht, hsub⟩)
    · obtain ⟨_, _, _, _, -, rfl, hname, harguments⟩ := seq_iff.mp hfirst
      have hwords := (slot_iff.mp hname).words_of_name rfl
      have hnone := harguments.role_ne_name rfl
      exact List.forall_mem_append.mpr
        ⟨fun t ht _ sub hsub => hwords sub (mem_preorderAll.mpr ⟨t, ht, hsub⟩),
          fun t ht hname => absurd hname (hnone t ht)⟩
  · obtain ⟨-, rfl⟩ := blank_iff.mp h
    exact nofun

end Reads

/-- A tag is read as a row of its parts. -/
theorem ReadBy.tagRow {spelling : String} {parts : Rule}
    (hparts : openingTagStart = .seq (.spelled "<") parts)
    (h : ReadBy reserved source c (.weighed (-1) (.seq (.the .openingTagStart) (.spelled spelling)))
      children) :
    TagRow source children := by
  obtain ⟨-, -, comments, front, text, rest, hsource, hreads, hcomments, hhead⟩ := h
  obtain ⟨start, back, _, _, rfl, htrees, hstart, hstop⟩ :=
    Reads.seq_iff.mp (Reads.weighed_iff.mp hreads)
  have hstart := hstart.of_inlined (r := openingTagStart) rfl rfl
  rw [hparts] at hstart
  obtain ⟨_, middle, _, trees, rfl, rfl, hbracket, htags⟩ := Reads.seq_iff.mp hstart
  obtain ⟨layout, lead, rfl, rfl, hlead⟩ := hbracket.of_spelled_tree
  obtain ⟨layout', lead', rfl, rfl, hlead'⟩ := hstop.of_spelled_tree
  obtain ⟨hkinds, hnames⟩ := htags.of_parts hparts
  have hspelled : slice source (front.length + layout.length)
      (front.length + layout.length + 1) = "<" := by
    have hfront : source = (front ++ layout) ++ ("<".toList
        ++ (middle ++ (layout' ++ spelling.toList) ++ rest)) := by
      rw [hsource]
      simp only [List.append_assoc]
    have hmiddle := slice_middle (front ++ layout) "<".toList
      (middle ++ (layout' ++ spelling.toList) ++ rest)
    rw [← hfront, List.length_append] at hmiddle
    exact hmiddle
  -- comments in front of the bracket are handed up and do not belong to the tag
  rw [List.append_assoc lead, List.append_assoc lead, List.singleton_append,
    List.cons_append, ← List.append_assoc trees] at htrees
  rw [eq_of_behind_comments htrees hcomments hhead (fun t ht => (hlead t ht).1) nofun]
  refine .row rfl rfl hspelled (List.forall_mem_append.mpr ⟨hkinds, fun t ht => ?_⟩)
    (List.forall_mem_append.mpr ⟨hnames, fun t ht hname => ?_⟩) rfl rfl
  · rw [(hlead' t ht).1]
    decide
  · rw [(hlead' t ht).2] at hname
    cases hname

/-- An element is read as a row that starts with its opening tag. -/
theorem ReadBy.elementRow
    (h : ReadBy reserved source .element (.seq (.seq (.slot .openTag (.the .openingTag))
      (.any (.the .elementChild))) (.slot .closeTag (.the .closingTag))) children) :
    ElementRow children := by
  obtain ⟨-, -, comments, front, text, rest, -, hreads, hcomments, hhead⟩ := h
  obtain ⟨_, _, _, closing, rfl, htrees, hfront, hclosing⟩ := Reads.seq_iff.mp hreads
  obtain ⟨_, _, _, content, rfl, rfl, hopening, hcontent⟩ := Reads.seq_iff.mp hfront
  obtain ⟨lead, below, rfl, -, hlead, -⟩ := (Reads.slot_iff.mp hopening).of_shows rfl rfl rfl
  rw [List.append_assoc, List.append_assoc, List.singleton_append] at htrees
  rw [eq_of_behind_comments htrees hcomments hhead hlead nofun]
  have hothers := List.forall_mem_append.mpr
    ⟨hcontent.tops contentScope_closed contentScope_admits rfl nofun,
      hclosing.tops contentScope_closed contentScope_admits rfl nofun⟩
  refine .row rfl rfl (fun t ht heq => ?_) fun t ht => (hothers t ht).1
  exact absurd ((hothers t ht).2 _ heq) (by decide)

/-- What a string is read as is made of words. -/
theorem ReadBy.words_of_string {c : Construct} (hc : c = .string ∨ c = .markupString)
    (h : ReadBy reserved source c r children) :
    ∀ sub ∈ preorderAll children, sub.label.kind ∈ wordKinds := by
  obtain ⟨hrule, -, comments, front, text, rest, -, hreads, -, -⟩ := h
  have hwithin : r.isWithin (.of fragmentConstructs [.stringFragment] true []) none = true := by
    rcases hc with rfl | rfl <;> cases hrule <;> rfl
  have hall := hreads.labels fragmentScope_closed fragmentScope_admits hwithin nofun
  exact fun sub hsub => hall sub (mem_preorderAll_append.mpr (.inr hsub))

/-- The first child of an attribute with a name of its own is made of words. -/
theorem ReadBy.words_of_attribute
    (h : ReadBy reserved source .attribute
      (.seq (.the .attributeName) (.maybe (.seq (.spelled "=") (.the .attributeValue)))) children) :
    ∀ t ∈ children.find? fun c => c.label.isNamed, ∀ sub ∈ t.preorder,
      sub.label.kind ∈ wordKinds := by
  obtain ⟨-, -, comments, front, text, rest, -, hreads, hcomments, hhead⟩ := h
  obtain ⟨_, _, _, more, -, htrees, hname, -⟩ := Reads.seq_iff.mp hreads
  have hwords := hname.labels nameScope_closed nameScope_admits rfl nofun
  obtain ⟨lead, node, rfl, hlead, hnamed, hnot⟩ := hname.of_attributeName
  rw [List.append_assoc, List.singleton_append] at htrees
  have hfind : (node :: more).find? (fun c => c.label.isNamed) = some node :=
    List.find?_cons_of_pos hnamed
  rw [eq_of_behind_comments htrees hcomments hhead hlead hnot, hfind]
  intro t ht sub hsub
  rw [Option.mem_some] at ht
  exact hwords sub (mem_preorderAll.mpr ⟨node, by simp, ht ▸ hsub⟩)

/-! ### Where tags and attributes stand -/

/-- An opening tag stands in elements only. -/
theorem ReadBy.eq_element (h : ReadBy reserved source c r children) {t : Cst} (ht : t ∈ children)
    (hlabel : t.label = .named .openingTag) : c = .element := by
  by_contra hne
  have hclosed : (Scope.without [.openingTag]).Closed isPassedOver :=
    Scope.without_closed (fun c => by cases c <;> rfl)
  obtain ⟨hrule, -, comments, front, text, rest, -, hreads, -, -⟩ := h
  have hwithin : ((rule? c).all fun r => r.isWithin (.without [.openingTag]) none
      || decide (c = .element)) = true := by
    cases c
    all_goals rfl
  rw [hrule, Option.all_some, decide_eq_false hne, Bool.or_false] at hwithin
  have hall := hreads.tops hclosed (Scope.without_admits (by decide)) hwithin nofun
  exact (hall t (List.mem_append_right _ ht)).1 _ List.mem_cons_self hlabel

/-- An attribute stands in tags only. -/
theorem ReadBy.eq_tag (h : ReadBy reserved source c r children) {t : Cst} (ht : t ∈ children)
    (hlabel : t.label = .named .attribute) : c = .openingTag ∨ c = .selfClosingElement := by
  by_contra hne
  rw [not_or] at hne
  have hclosed : (Scope.without [.attribute, .anyAttribute, .openingTagStart]).Closed
      isPassedOver :=
    Scope.without_closed (fun c => by cases c <;> rfl)
  obtain ⟨hrule, hshows, comments, front, text, rest, -, hreads, -, -⟩ := h
  have hwithin : ((rule? c).all fun r =>
      r.isWithin (.without [.attribute, .anyAttribute, .openingTagStart]) none || isInlined c
        || decide (c = .openingTag) || decide (c = .selfClosingElement)) = true := by
    cases c
    all_goals rfl
  rw [hrule, Option.all_some, hshows, decide_eq_false hne.1, decide_eq_false hne.2, Bool.or_false,
    Bool.or_false, Bool.or_false] at hwithin
  have hall := hreads.tops hclosed (Scope.without_admits (by decide)) hwithin nofun
  exact (hall t (List.mem_append_right _ ht)).1 _ List.mem_cons_self hlabel

end Restyle.Syntax
