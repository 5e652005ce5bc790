import Restyle.Proofs.Search.Grammar
import Restyle.Proofs.Syntax.Markup
import Restyle.Proofs.Tree.Portrait

/-!
Components: what the grammar reads obeys it.

* `Grown.orderly`: every node that is read is as searches rely on;
* `Cst.Marked`, `Grown.marked`: attributes stand in tags, tags open with an angle bracket, and
  neither strings nor elements hold objects of their own;
* `Cst.Component`, `Cst.component_of_reads`: the tree of a component, which the grammar reads from
  its source;
* `Cst.KeysApart`: a component with no element in the keys of its objects.
-/

namespace Restyle.Syntax

open Grammar SyntaxTree Cst

variable {reserved : String → Bool} {source : List Char} {tree : Cst}

/-! ### Nodes of components -/

/-- Tags are read as opening tags or as self-closing elements. -/
lemma Label.isTag_iff {label : Label} : label.kind.isTag = true
    ↔ label = .named .openingTag ∨ label = .named .selfClosingElement := by
  constructor
  · intro h
    cases hk : label.kind
    case openingTag => exact .inl (Label.eq_of_kind (c := .openingTag) (by decide) hk)
    case selfClosingElement =>
      exact .inr (Label.eq_of_kind (c := .selfClosingElement) (by decide) hk)
    all_goals
      rw [hk] at h
      cases h
  · rintro (rfl | rfl) <;> rfl

/-- Elements are read as such, or as self-closing ones. -/
lemma Label.isElement_iff {label : Label} : label.kind.isElement = true
    ↔ label = .named .element ∨ label = .named .selfClosingElement := by
  constructor
  · intro h
    cases hk : label.kind
    case element => exact .inl (Label.eq_of_kind (c := .element) (by decide) hk)
    case selfClosingElement =>
      exact .inr (Label.eq_of_kind (c := .selfClosingElement) (by decide) hk)
    all_goals
      rw [hk] at h
      cases h
  · rintro (rfl | rfl) <;> rfl

namespace Grown

lemma tagRow (h : Grown reserved source tree) (htag : tree.label.kind.isTag = true) :
    TagRow source tree.children := by
  rcases Label.isTag_iff.mp htag with hlabel | hlabel
  · exact (h.readBy hlabel rfl (by decide)).tagRow rfl
  · exact (h.readBy hlabel rfl (by decide)).tagRow rfl

lemma elementRow (h : Grown reserved source tree) (hk : tree.label.kind = .element) :
    ElementRow tree.children :=
  (h.readBy (Label.eq_of_kind (c := .element) (by decide) hk) rfl (by decide)).elementRow

lemma words_of_string (h : Grown reserved source tree) (hk : tree.label.kind = .stringLiteral) :
    ∀ sub ∈ preorderAll tree.children, sub.label.kind ∈ wordKinds := by
  have hlabel := Label.eq_of_kind (c := .string) (by decide) hk
  cases h with
  | leaf hnil _ =>
      rw [hnil]
      exact fun sub hsub => nomatch hsub
  | @branch c _ hown hread =>
      refine hread.words_of_string (hown.imp (fun hown => ?_) fun ⟨name, hmem, hown⟩ => ?_)
      · exact Label.named.inj (hown.symm.trans hlabel)
      · obtain rfl : name = .string := Label.named.inj (hown.symm.trans hlabel)
        have hone : ∀ p ∈ aliases, p.1 = .string → p.2 = .markupString := by decide
        exact hone _ hmem rfl

/-- A node that shows as a construct without a rule, or as a token, has nothing below it. -/
lemma children_eq_nil (h : Grown reserved source tree)
    (hk : tree.label.kind = .text ∨ tree.label.kind = .token) : tree.children = [] := by
  cases h with
  | leaf hnil _ => exact hnil
  | @branch c r hown hread =>
      have hnamed : ∃ c', tree.label = .named c' :=
        hown.elim (fun h => ⟨_, h⟩) fun ⟨_, _, h⟩ => ⟨_, h⟩
      obtain ⟨c', hlabel⟩ := hnamed
      have hkinds : ∀ c' : Construct, c'.kind ≠ .token := fun c' => by
        cases c'
        all_goals decide
      have htext : tree.label = .named .text := Label.eq_of_kind (by decide)
        (hk.resolve_right fun h => hkinds c' (by rw [hlabel] at h; exact h))
      rcases hown with hown | ⟨name, hmem, hown⟩
      · obtain rfl : c = .text := Label.named.inj (hown.symm.trans htext)
        cases hread.rule_eq
      · obtain rfl : name = .text := Label.named.inj (hown.symm.trans htext)
        have hnone : ∀ p ∈ aliases, p.1 ≠ .text := by decide
        exact absurd rfl (hnone _ hmem)

/-- An opening tag is read in an element only. -/
lemma isElement_of_opening (h : Grown reserved source tree) {c : Cst} (hc : c ∈ tree.children)
    (hk : c.label.kind = .openingTag) : tree.label.kind = .element := by
  have hlabel := Label.eq_of_kind (c := .openingTag) (by decide) hk
  cases h with
  | leaf hnil _ =>
      rw [hnil] at hc
      exact absurd hc List.not_mem_nil
  | branch hown hread =>
      obtain rfl := hread.eq_element hc hlabel
      rcases hown with hown | ⟨name, hmem, -⟩
      · rw [hown]
        rfl
      · have hnone : ∀ p ∈ aliases, p.2 ≠ .element := by decide
        exact absurd rfl (hnone _ hmem)

/-- An attribute is read in a tag only. -/
lemma isTag_of_attribute (h : Grown reserved source tree) {c : Cst} (hc : c ∈ tree.children)
    (hk : c.label.kind = .attribute) : tree.label.kind.isTag = true := by
  have hlabel := Label.eq_of_kind (c := .attribute) (by decide) hk
  cases h with
  | leaf hnil _ =>
      rw [hnil] at hc
      exact absurd hc List.not_mem_nil
  | @branch c' _ hown hread =>
      have hc' := hread.eq_tag hc hlabel
      rcases hown with hown | ⟨name, hmem, -⟩
      · rw [hown]
        rcases hc' with rfl | rfl <;> rfl
      · have hnone : ∀ p ∈ aliases, p.2 ≠ .openingTag ∧ p.2 ≠ .selfClosingElement := by decide
        exact (hc'.elim (hnone _ hmem).1 (hnone _ hmem).2).elim

end Grown

lemma isQuiet_of_words (h : ∀ sub ∈ tree.preorder, sub.label.kind ∈ wordKinds) :
    tree.isQuiet = true := by
  have hkinds : ∀ k ∈ wordKinds, (!k.isTag && k != .attribute) = true := by decide
  exact List.all_eq_true.mpr fun sub hsub => hkinds _ (h sub hsub)

lemma forall_mem_preorder {P : Cst → Prop} (htree : P tree)
    (hbelow : ∀ sub ∈ preorderAll tree.children, P sub) : ∀ sub ∈ tree.preorder, P sub := by
  match tree, htree, hbelow with
  | .node _ _ _ _ _, htree, hbelow =>
    rw [preorder]
    exact List.forall_mem_cons.mpr ⟨htree, hbelow⟩

/-! ### Rows of children -/

namespace Cst

variable {children : List Cst}

/-- What holds of tokens and of all parts of tags holds of the children of one. -/
lemma TagRow.forall_kinds (h : TagRow source children) {P : NodeKind → Prop} (htoken : P .token)
    (hparts : ∀ k ∈ partKinds, P k) : ∀ c ∈ children, P c.label.kind := by
  cases h with
  | row hbracket _ _ hkinds _ hstop _ =>
      refine List.forall_mem_cons.mpr ⟨?_, List.forall_mem_append.mpr
        ⟨fun c hc => hparts _ (hkinds c hc), List.forall_mem_singleton.mpr ?_⟩⟩
      · rw [hbracket]
        exact htoken
      · rw [hstop]
        exact htoken

/-- A child of a tag that has the slot of its name is one of the parts, not a token at the ends. -/
lemma TagRow.words_of_name (h : TagRow source children) : ∀ c ∈ children, c.role = some .name →
    ∀ sub ∈ c.preorder, sub.label.kind ∈ wordKinds := by
  cases h with
  | row _ hrole _ _ hnames _ hnone =>
      refine List.forall_mem_cons.mpr ⟨fun hname => ?_, List.forall_mem_append.mpr
        ⟨hnames, List.forall_mem_singleton.mpr fun hname => ?_⟩⟩
      · rw [hrole] at hname
        cases hname
      · rw [hnone] at hname
        cases hname

/-- The parts of a tag are no tokens, so that the first token behind the bracket is the last
child. -/
lemma TagRow.behind_parts (h : TagRow source children) :
    (children.map fun c => c.label.kind).tail.dropWhile (· != .token) = [.token] := by
  cases h with
  | @row bracket stop parts _ _ _ hkinds _ hstop _ =>
      have hpart : ∀ k ∈ partKinds, (k != .token) = true := by decide
      have hparts : ∀ k ∈ parts.map fun c => c.label.kind, (k != .token) = true :=
        List.forall_mem_map.mpr fun c hc => hpart _ (hkinds c hc)
      rw [List.map_cons, List.tail_cons, List.map_append, List.dropWhile_append_of_pos hparts,
        List.map_singleton, hstop]
      rfl

/-- Of the children of an element, the first one and no other is its opening tag. -/
lemma ElementRow.opening_iff (h : ElementRow children) :
    (∀ c ∈ children, c.label.kind = .openingTag ↔ c.role = some .openTag)
      ∧ some .openTag ∉ (children.map Cst.role).tail := by
  cases h with
  | row hopening hrole hroles hkinds =>
      refine ⟨List.forall_mem_cons.mpr ⟨iff_of_true (by rw [hopening]; rfl) hrole, fun c hc =>
        iff_of_false (hkinds c hc).1 (hroles c hc)⟩, fun hmem => ?_⟩
      obtain ⟨c, hc, hopen⟩ := List.mem_map.mp hmem
      exact hroles c hc hopen

lemma ElementRow.ne_object (h : ElementRow children) : ∀ c ∈ children, c.label.kind ≠ .object := by
  cases h with
  | row hopening _ _ hkinds =>
      exact List.forall_mem_cons.mpr ⟨by rw [hopening]; decide, fun c hc => (hkinds c hc).2⟩

end Cst

/-- Every node that the grammar reads obeys it. -/
theorem Grown.orderly (h : Grown reserved source tree) : tree.Orderly := by
  -- Each rule is read off the rows that tags, elements, strings and names are made of.
  constructor
  case leaf => exact h.children_eq_nil
  case opening_in_element =>
    intro c hc hk
    have helement := h.isElement_of_opening hc hk
    exact ⟨helement, ((h.elementRow helement).opening_iff.1 c hc).mp hk⟩
  case opening_first =>
    intro hk
    obtain ⟨hopening, htail⟩ := (h.elementRow hk).opening_iff
    exact ⟨fun c hc => (hopening c hc).mpr, htail⟩
  case no_element_in_tag =>
    exact fun htag => (h.tagRow htag).forall_kinds (P := fun k => k.isElement = false) rfl
      (by decide)
  case quiet_string =>
    intro hk
    have hwords := h.words_of_string hk
    have hkinds : ∀ k ∈ wordKinds, (!k.isTag && k != .attribute) = true := by decide
    exact List.all_eq_true.mpr (forall_mem_preorder (by rw [hk]; rfl)
      fun sub hsub => hkinds _ (hwords sub hsub))
  case quiet_name =>
    exact fun htag c hc hname => isQuiet_of_words ((h.tagRow htag).words_of_name c hc hname)
  case quiet_attribute_name =>
    intro hk
    have hread := h.readBy (Label.eq_of_kind (c := .attribute) (by decide) hk) rfl (by decide)
    have hwords := hread.words_of_attribute
    cases hfind : tree.children.find? fun c => c.label.isNamed with
    | none => rfl
    | some c => exact isQuiet_of_words (hwords c hfind)
  case attributes_first =>
    intro htag
    rw [(h.tagRow htag).behind_parts]
    decide

/-! ### Components -/

namespace Cst

/-- What the grammar says of the marks of a node: where attributes stand, how tags open, and that
strings and elements hold no calls and objects of their own. -/
structure Marked (source : List Char) (tree : Cst) : Prop where
  attribute_in_tag : tree.label.kind.isTag = false → ∀ c ∈ tree.children,
    c.label.kind ≠ .attribute
  tag_opens : tree.label.kind.isTag = true → ∃ c ∈ tree.children,
    c.label.kind = .token ∧ slice source c.start c.stop = "<"
  string_bare : tree.label.kind = .stringLiteral → ∀ sub ∈ tree.preorder,
    sub.label.kind ≠ .call ∧ sub.label.kind ≠ .object
  element_bare : tree.label.kind.isElement = true → ∀ c ∈ tree.children, c.label.kind ≠ .object

instance (source : List Char) (tree : Cst) : Decidable (tree.Marked source) :=
  decidable_of_iff
    ((tree.label.kind.isTag = false → ∀ c ∈ tree.children, c.label.kind ≠ .attribute)
      ∧ (tree.label.kind.isTag = true → ∃ c ∈ tree.children,
        c.label.kind = .token ∧ slice source c.start c.stop = "<")
      ∧ (tree.label.kind = .stringLiteral → ∀ sub ∈ tree.preorder,
        sub.label.kind ≠ .call ∧ sub.label.kind ≠ .object)
      ∧ (tree.label.kind.isElement = true → ∀ c ∈ tree.children, c.label.kind ≠ .object))
    ⟨fun ⟨h₁, h₂, h₃, h₄⟩ => ⟨h₁, h₂, h₃, h₄⟩, fun ⟨h₁, h₂, h₃, h₄⟩ => ⟨h₁, h₂, h₃, h₄⟩⟩

/-- No element lies in the key of a pair. -/
def KeysApart (tree : Cst) : Prop :=
  ∀ pair ∈ tree.preorder, pair.label.kind = .pair → ∀ key ∈ pair.children, key.role = some .key →
    ∀ sub ∈ key.preorder, sub.label.kind.isElement = false

instance (tree : Cst) : Decidable tree.KeysApart :=
  inferInstanceAs (Decidable (∀ pair ∈ tree.preorder, _ → ∀ key ∈ pair.children, _ → _))

/-- The tree of a component, as it is read in a source. -/
structure Component (source : List Char) (tree : Cst) : Prop
    extends tree.LaidOut source, tree.Grammatical where
  marked : ∀ sub ∈ tree.preorder, sub.Marked source

end Cst

/-- What the grammar reads is marked: attributes stand in tags, tags open with their bracket. -/
theorem Grown.marked (h : Grown reserved source tree) : tree.Marked source := by
  constructor
  case attribute_in_tag =>
    intro htag c hc hk
    rw [h.isTag_of_attribute hc hk] at htag
    cases htag
  case tag_opens =>
    intro htag
    have hrow := h.tagRow htag
    generalize tree.children = children at hrow
    cases hrow with
    | row hbracket _ hspelled _ _ _ _ =>
        exact ⟨_, List.mem_cons_self, by rw [hbracket]; rfl, hspelled⟩
  case string_bare =>
    intro hk
    have hkinds : ∀ k ∈ wordKinds, k ≠ .call ∧ k ≠ .object := by decide
    exact forall_mem_preorder (by rw [hk]; decide)
      fun sub hsub => hkinds _ (h.words_of_string hk sub hsub)
  case element_bare =>
    intro helement
    rcases Label.isElement_iff.mp helement with hlabel | hlabel
    · exact (h.elementRow (by rw [hlabel]; rfl)).ne_object
    · exact (h.tagRow (by rw [hlabel]; rfl)).forall_kinds (P := (· ≠ .object)) (by decide)
        (by decide)

/-- What the grammar reads at the start of a source is the tree of a component. -/
theorem Cst.component_of_reads {text rest : List Char}
    (h : Reads reserved none none (.the .program) 0 text rest [tree]) :
    tree.Component (text ++ rest) where
  toLaidOut := laidOut_of_reads h
  isProgram := by
    obtain ⟨comments, children, htrees, -⟩ := h.of_shows rfl rfl rfl
    obtain ⟨-, hnode⟩ :=
      (List.append_eq_singleton_iff.mp htrees.symm).resolve_right fun h => nomatch h.2
    rw [← List.singleton_inj.mp hnode]
    rfl
  orderly := fun sub hsub =>
    (h.grown rfl (List.nil_append _).symm rfl sub (mem_preorderAll_singleton.mpr hsub)).orderly
  marked := fun sub hsub =>
    (h.grown rfl (List.nil_append _).symm rfl sub (mem_preorderAll_singleton.mpr hsub)).marked

end Restyle.Syntax
