import Restyle.Proofs.Change.ClassList
import Restyle.Proofs.Search.Attribute

/-!
The classes of an attribute, read as the words of its string.

* `ClassList.words_append_missing`: the words of a string that gets the classes it lacks;
* `AddsClasses`: what adding the classes of a value to an attribute comes to, for the string that it
  had;
* `Sealed`: a string that no class added elsewhere writes differently, and
  `exists_words_addClasses`: adding classes, to whatever attributes, takes no word from it;
* `addClass_addsClasses`: the classes of every value are added so to every attribute that is a
  string.
-/

namespace Restyle

/-! ### Strings -/

namespace ClassList

/-- Classes that cannot be written into a string: there are none, or one holds a character that
no class may hold. -/
def Unwritable (classes : List String) : Prop :=
  classes = [] ∨ ∃ c ∈ classes, ∃ d ∈ c.toList, isForbidden d = true

/-- Classes that a string has: they stand together in it as they are, or each is one of its
words. -/
def Present (classes : List String) (existing : String) : Prop :=
  Text.contains existing (" ".intercalate classes) = true
    ∨ ∀ c ∈ classes, c ∈ Text.words existing

lemma isValid_iff {classes : List String} : isValid classes = true ↔ ¬ Unwritable classes := by
  simp [isValid, Unwritable]

lemma present_iff {classes : List String} {existing : String} :
    Present classes existing ↔ missing classes existing = [] :=
  missing_eq_nil_iff.symm

/-- The words of a string that gets the classes it lacks: its own, and then those classes. -/
theorem words_append_missing {value existing : String} (h : ¬ Present (ofValue value) existing) :
    Text.words (append existing (missing (ofValue value) existing))
      = Text.words existing ++ (ofValue value).filter fun c => c ∉ Text.words existing := by
  rw [words_append existing fun c hc => solid_of_mem_ofValue (mem_of_mem_missing hc), missing,
    if_neg fun hcontains => h (.inl hcontains)]
  congr 1
  refine List.filter_congr fun c _ => ?_
  rw [List.contains_eq_mem, decide_not]

/-- Classes that can be written bring no character that none of them may hold. -/
lemma not_mem_append {classes : List String} (hvalid : isValid classes = true) {existing : String}
    {q : Char} (hforbidden : isForbidden q = true) (hq : q ∉ existing.toList) :
    q ∉ (append existing (missing classes existing)).toList := by
  have hno : q ∉ (" ".intercalate (missing classes existing)).toList := fun hmem => by
    obtain ⟨c, hc, hqc⟩ := mem_intercalate (fun heq => by subst heq; cases hforbidden) hmem
    exact isValid_iff.mp hvalid (.inr ⟨c, mem_of_mem_missing hc, q, hqc, hforbidden⟩)
  rw [toList_append]
  split
  · exact hno
  · intro hmem
    rcases List.mem_append.mp hmem with hmem | hmem
    · exact hq (Text.mem_of_mem_trimRight hmem)
    · rcases List.mem_cons.mp hmem with rfl | hmem
      · cases hforbidden
      · exact hno hmem

end ClassList

namespace SyntaxTree

variable {t : SyntaxTree} {a literal : NodeId} {q : Char} {s : String}

open ClassList (Unwritable Present ofValue missing append)

/-! ### Strings that are overwritten in any tree -/

lemma text_of_own {id : NodeId} (hid : id < t.size) {s : String}
    (hs : (t.node id).literal = some s) : t.text id = s := by
  obtain ⟨n, hn⟩ := Nat.exists_eq_succ_of_ne_zero (Nat.ne_zero_of_lt hid)
  rw [text, hn, textWithin, hs]

lemma kind_overwrite {id : NodeId} (hid : id < t.size) (new : String) (x : NodeId) :
    (t.overwrite id new).kind x = t.kind x := by
  rw [kind, node_overwrite hid]
  split <;> rfl

/-- Rewriting one node leaves the roles below every other. -/
lemma childIn?_overwrite {id x : NodeId} (hid : id < t.size) (hx : x ≠ id) (new : String)
    (role : Role) : (t.overwrite id new).childIn? x role = t.childIn? x role := by
  have hrole : ∀ c, (t.overwrite id new).role c = t.role c := fun c => by
    rw [SyntaxTree.role, node_overwrite hid]
    split <;> rfl
  have hchildren : (t.overwrite id new).children x = t.children x := by
    rw [children, node_overwrite_of_ne hx]
    rfl
  simp only [childIn?, hchildren, hrole]

/-! ### Attributes that are strings -/

/-- An attribute whose value is a string in quotes that do not occur in it. -/
structure HasString (t : SyntaxTree) (a literal : NodeId) (q : Char) (s : String) : Prop where
  kind_eq : t.kind a = .attribute
  value_eq : t.stringValue? a = some (literal, q, s)
  closed : q ∉ s.toList

namespace HasString

variable (h : t.HasString a literal q s)
include h

lemma kind_literal : t.kind literal = .stringLiteral := (stringValue?_spec h.value_eq).2.2.1

lemma lt_size : literal < t.size := lt_size_of_kind (by rw [h.kind_literal]; decide)

/-- An attribute is no string. -/
lemma ne_of_string {x : NodeId} (hx : t.kind x = .stringLiteral) : a ≠ x := fun heq => by
  rw [← heq, h.kind_eq] at hx
  cases hx

lemma isForbidden_quote : ClassList.isForbidden q = true := by
  rcases (quoted_of_quotationOf? (stringValue?_spec h.value_eq).2.2.2).1 with rfl | rfl <;> rfl

/-- The string gets a new text in its quotes. -/
lemma overwrite {new : String} (hnew : q ∉ new.toList) :
    (t.overwrite literal (quoted q new)).HasString a literal q new where
  kind_eq := (kind_overwrite h.lt_size _ a).trans h.kind_eq
  value_eq := by
    obtain ⟨-, hchild, hkind, hquote⟩ := stringValue?_spec h.value_eq
    have htext : (t.overwrite literal (quoted q new)).text literal = quoted q new :=
      text_of_own (by rw [size_overwrite]; exact h.lt_size)
        (by rw [node_overwrite h.lt_size, if_pos rfl])
    rw [stringValue?, childIn?_overwrite h.lt_size (h.ne_of_string hkind), hchild]
    dsimp only
    rw [quotation?, if_pos ((kind_overwrite h.lt_size _ literal).trans hkind), htext,
      quotationOf?_quoted (quoted_of_quotationOf? hquote).1]
    rfl
  closed := hnew

/-- Another string gets a new text, and this one is written as before. -/
lemma overwrite_other {other : NodeId} (hother : t.kind other = .stringLiteral) {new : String}
    (htext : (t.overwrite other new).text literal = t.text literal) :
    (t.overwrite other new).HasString a literal q s where
  kind_eq := (kind_overwrite (lt_size_of_kind (by rw [hother]; decide)) _ a).trans h.kind_eq
  value_eq := by
    have hlt : other < t.size := lt_size_of_kind (by rw [hother]; decide)
    have hv := h.value_eq
    rw [stringValue?] at hv ⊢
    rw [childIn?_overwrite hlt (h.ne_of_string hother)]
    rw [(stringValue?_spec h.value_eq).2.1] at hv ⊢
    dsimp only at hv ⊢
    rwa [quotation?, kind_overwrite hlt, htext]
  closed := h.closed

end HasString

/-! ### Adding classes -/

/-- Adds classes to several attributes, one after the other. -/
def addClasses (t : SyntaxTree) (calls : List (NodeId × String)) : SyntaxTree :=
  calls.foldl (fun t call => (t.addClass call.1 call.2).2) t

/-- Adding classes changes no kind. -/
lemma kind_addClass (t : SyntaxTree) (b : NodeId) (value : String) (x : NodeId) :
    (t.addClass b value).2.kind x = t.kind x := by
  rcases t.addClass_cases b value with ⟨-, heq⟩ | ⟨literal, q, s, hv, -, -, heq⟩
  · rw [heq]
  · rw [heq, kind_overwrite]
    exact lt_size_of_kind (by rw [(stringValue?_spec hv).2.2.1]; decide)

/-- A string that no class added elsewhere writes differently: it has been overwritten, or the
module is in shape, so that no attribute lies in it. -/
def Sealed (t : SyntaxTree) (literal : NodeId) : Prop :=
  (t.node literal).literal.isSome = true ∨ t.Shaped

/-- A sealed literal stays sealed when another string is rewritten. -/
lemma Sealed.overwrite (h : t.Sealed literal) {b other : NodeId} {q' : Char} {s' : String}
    (hb : t.kind b = .attribute) (hv : t.stringValue? b = some (other, q', s')) (new : String) :
    (t.overwrite other new).Sealed literal := by
  rcases h with h | h
  · refine .inl ?_
    have hlt : other < t.size := lt_size_of_kind (by rw [(stringValue?_spec hv).2.2.1]; decide)
    rw [node_overwrite hlt]
    split
    · rfl
    · exact h
  · exact .inr (h.overwrite hb hv new)

/-- The string is written as before when another attribute's is overwritten. -/
lemma Sealed.text_overwrite (hf : t.Sealed literal) (h : t.HasString a literal q s)
    {b other : NodeId} {q' : Char} {s' : String} (hb : t.kind b = .attribute)
    (hv : t.stringValue? b = some (other, q', s')) (hne : other ≠ literal) (new : String) :
    (t.overwrite other new).text literal = t.text literal := by
  rcases hf with hown | hshaped
  · obtain ⟨own, hown⟩ := Option.isSome_iff_exists.mp hown
    rw [text_of_own h.lt_size hown]
    refine text_of_own (by rw [size_overwrite]; exact h.lt_size) ?_
    rw [node_overwrite_of_ne hne.symm]
    exact hown
  · have hba : a ≠ b := fun heq => hne (by
      have := heq ▸ h.value_eq
      rw [hv, Option.some.injEq, Prod.mk.injEq] at this
      exact this.1)
    have hunder := not_under_of_ne hshaped hb hv hba (stringValue?_spec h.value_eq).2.1
      h.kind_literal
    exact (onlyAt_overwrite t other new).text_eq hshaped.toWellFormed
      (hshaped.overwrite hb hv new).toWellFormed h.lt_size hunder

/-- Classes added to any attribute take no word from the string. -/
lemma Sealed.step (hf : t.Sealed literal) (h : t.HasString a literal q s) {b : NodeId}
    (hb : t.kind b = .attribute) (value : String) :
    (t.addClass b value).2.Sealed literal
      ∧ ∃ s', (t.addClass b value).2.HasString a literal q s' ∧ Text.words s <+: Text.words s' := by
  rcases t.addClass_cases b value with ⟨-, heq⟩ | ⟨other, q', s', hv, hvalid, -, heq⟩
  · rw [heq]
    exact ⟨hf, s, h, List.prefix_rfl⟩
  · rw [heq]
    refine ⟨hf.overwrite hb hv _, ?_⟩
    by_cases hne : other = literal
    · -- the string is the one that gets the classes
      subst hne
      have hsame := (stringValue?_spec h.value_eq).2.2.2.symm.trans (stringValue?_spec hv).2.2.2
      rw [Option.some.injEq, Prod.mk.injEq] at hsame
      obtain ⟨rfl, rfl⟩ := hsame
      refine ⟨_, h.overwrite (ClassList.not_mem_append hvalid h.isForbidden_quote h.closed), ?_⟩
      rw [ClassList.words_append s fun c hc =>
        ClassList.solid_of_mem_ofValue (ClassList.mem_of_mem_missing hc)]
      exact List.prefix_append _ _
    · exact ⟨s, h.overwrite_other (stringValue?_spec hv).2.2.1
        (hf.text_overwrite h hb hv hne _), List.prefix_rfl⟩

/-- Adding classes, to whatever attributes, takes no word from a string. -/
theorem exists_words_addClasses (hf : t.Sealed literal) (h : t.HasString a literal q s)
    {calls : List (NodeId × String)} (hcalls : ∀ call ∈ calls, t.kind call.1 = .attribute) :
    ∃ s', (t.addClasses calls).HasString a literal q s' ∧ Text.words s <+: Text.words s' := by
  induction calls generalizing t s with
  | nil => exact ⟨s, h, List.prefix_rfl⟩
  | cons call calls ih =>
      obtain ⟨hf', s', h', hwords⟩ := hf.step h (hcalls call List.mem_cons_self) call.2
      obtain ⟨s'', h'', hwords'⟩ := ih hf' h' fun c hc =>
        (kind_addClass t _ _ _).trans (hcalls c (List.mem_cons_of_mem _ hc))
      exact ⟨s'', h'', hwords.trans hwords'⟩

/-! ### The classes of a value -/

/-- What adding the classes of a value to an attribute comes to, where the attribute had the string
`s` in the quotes `q`. -/
structure AddsClasses (t : SyntaxTree) (a literal : NodeId) (q : Char) (s value : String)
    (r : Outcome × SyntaxTree) : Prop where
  invalid_iff : r.1 = .invalidValue ↔ Unwritable (ofValue value)
  present_iff : r.1 = .alreadyPresent ↔ ¬ Unwritable (ofValue value) ∧ Present (ofValue value) s
  applied_iff : r.1 = .applied ↔ ¬ Unwritable (ofValue value) ∧ ¬ Present (ofValue value) s
  unchanged : r.1 ≠ .applied → r.2 = t
  /-- The string keeps its quotes and its words, and gets the classes that were none of them. -/
  written : r.1 = .applied → ∃ s', r.2.HasString a literal q s'
    ∧ Text.words s' = Text.words s ++ (ofValue value).filter fun c => c ∉ Text.words s
  again : r.1 ≠ .invalidValue → r.2.addClass a value = (.alreadyPresent, r.2)
  /-- No class that is added later, to this or to other attributes, takes a word away. -/
  kept : r.1 = .applied ∨ t.Shaped → ∀ s', r.2.HasString a literal q s' →
    ∀ later : List (NodeId × String), (∀ call ∈ later, t.kind call.1 = .attribute) →
      ∃ s'', (r.2.addClasses later).HasString a literal q s'' ∧ Text.words s' <+: Text.words s''

/-- The three ways in which classes are added to a string. -/
lemma addClass_of_string (hv : t.stringValue? a = some (literal, q, s)) (value : String) :
    Unwritable (ofValue value) ∧ t.addClass a value = (.invalidValue, t)
      ∨ ¬ Unwritable (ofValue value) ∧ Present (ofValue value) s
        ∧ t.addClass a value = (.alreadyPresent, t)
      ∨ ¬ Unwritable (ofValue value) ∧ ¬ Present (ofValue value) s
        ∧ t.addClass a value = (.applied, t.overwrite literal
            (quoted q (append s (missing (ofValue value) s)))) := by
  rw [← ClassList.isValid_iff, ClassList.present_iff, addClass, hv]
  cases hvalid : ClassList.isValid (ofValue value) with
  | false =>
      refine .inl ⟨?_, rfl⟩
      by_contra hno
      rw [ClassList.isValid_iff.mpr hno] at hvalid
      cases hvalid
  | true =>
      cases hmissing : missing (ofValue value) s with
      | nil => exact .inr (.inl ⟨rfl, rfl, by simp only [hmissing]; rfl⟩)
      | cons c lacking =>
          exact .inr (.inr ⟨rfl, List.cons_ne_nil _ _, by simp only [hmissing]; rfl⟩)

/-- Where classes were added, or the module is in shape, the string is written so from then on. -/
lemma HasString.sealed_addClass (h : t.HasString a literal q s) (value : String)
    (hfirm : (t.addClass a value).1 = .applied ∨ t.Shaped) :
    (t.addClass a value).2.Sealed literal := by
  rcases addClass_of_string h.value_eq value with ⟨-, heq⟩ | ⟨-, -, heq⟩ | ⟨-, -, heq⟩
  · rw [heq] at hfirm ⊢
    exact .inr (hfirm.resolve_left nofun)
  · rw [heq] at hfirm ⊢
    exact .inr (hfirm.resolve_left nofun)
  · rw [heq]
    refine .inl ?_
    rw [node_overwrite h.lt_size, if_pos rfl]
    rfl

/-- The classes of a value are added to an attribute that is a string: in any tree, those that are
none of its words come behind them, once and for all. -/
theorem addClass_addsClasses (h : t.HasString a literal q s) (value : String) :
    AddsClasses t a literal q s value (t.addClass a value) := by
  have hkept : ∀ s', (t.addClass a value).1 = .applied ∨ t.Shaped →
      (t.addClass a value).2.HasString a literal q s' →
      ∀ later : List (NodeId × String), (∀ call ∈ later, t.kind call.1 = .attribute) →
        ∃ s'', ((t.addClass a value).2.addClasses later).HasString a literal q s''
          ∧ Text.words s' <+: Text.words s'' := fun s' hfirm hs' later hlater =>
    exists_words_addClasses (h.sealed_addClass value hfirm) hs' fun call hcall =>
      (kind_addClass t a value call.1).trans (hlater call hcall)
  -- The three outcomes of the call; what later calls keep is the same for all of them.
  rcases addClass_of_string h.value_eq value with
    ⟨hun, heq⟩ | ⟨hun, hpresent, heq⟩ | ⟨hun, hmissing, heq⟩
  · rw [heq] at hkept ⊢
    exact {
      invalid_iff := iff_of_true rfl hun
      present_iff := iff_of_false nofun fun hno => hno.1 hun
      applied_iff := iff_of_false nofun fun hno => hno.1 hun
      unchanged := fun _ => rfl
      written := fun hno => nomatch hno
      again := fun hno => absurd rfl hno
      kept := fun hfirm s' => hkept s' hfirm }
  · rw [heq] at hkept ⊢
    exact {
      invalid_iff := iff_of_false nofun hun
      present_iff := iff_of_true rfl ⟨hun, hpresent⟩
      applied_iff := iff_of_false nofun fun hno => hno.2 hpresent
      unchanged := fun _ => rfl
      written := fun hno => nomatch hno
      again := fun _ => heq
      kept := fun hfirm s' => hkept s' hfirm }
  · have hvalid := ClassList.isValid_iff.mpr hun
    have hwritten := h.overwrite (ClassList.not_mem_append hvalid h.isForbidden_quote h.closed)
    -- Once the missing classes are written, none is missing.
    have hthere : Present (ofValue value) (append s (missing (ofValue value) s)) :=
      ClassList.present_iff.mpr (ClassList.missing_append_missing s
        (fun c hc => ClassList.solid_of_mem_ofValue hc) (mt ClassList.present_iff.mpr hmissing))
    rw [heq] at hkept ⊢
    exact {
      invalid_iff := iff_of_false nofun hun
      present_iff := iff_of_false nofun fun hno => hmissing hno.2
      applied_iff := iff_of_true rfl ⟨hun, hmissing⟩
      unchanged := fun hno => absurd rfl hno
      written := fun _ => ⟨_, hwritten, ClassList.words_append_missing hmissing⟩
      again := fun _ => by
        rcases addClass_of_string hwritten.value_eq value with
          ⟨hno, -⟩ | ⟨-, -, hagain⟩ | ⟨-, hno, -⟩
        · exact absurd hno hun
        · exact hagain
        · exact absurd hthere hno
      kept := fun hfirm s' => hkept s' hfirm }

/-- The concrete tree of the tag `<a x=' b '/>`. -/
def spacedTag : Syntax.Cst :=
  .node (.named .program) none 0 12
    [.node (.named .selfClosingElement) none 0 12
      [.node (.token "<") none 0 1 [], .node (.named .identifier) (some .name) 1 2 [],
        .node (.named .attribute) (some .attribute) 3 10
          [.node (.named .propertyName) none 3 4 [], .node (.token "=") none 4 5 [],
            .node (.named .string) none 5 10 []],
        .node (.token "/>") none 10 12 []]]

/-- Of the classes `b  c c`, the second is added behind the blank that ends the string ` b `. -/
theorem addsClasses_spacedTag :
    let t := ofConcrete "<a x=' b '/>".toList spacedTag
    (t.HasString 4 7 '\'' " b " ∧ (t.addClass 4 "b  c c").1 = .applied
        ∧ (t.addClass 4 "b  c c").2.render = "<a x=' b c'/>")
      ∧ AddsClasses t 4 7 '\'' " b " "b  c c" (t.addClass 4 "b  c c") := by
  intro t
  have h : t.HasString 4 7 '\'' " b " :=
    ⟨by decide +kernel, by decide +kernel, by decide +kernel⟩
  exact ⟨⟨h, by decide +kernel, by decide +kernel⟩, addClass_addsClasses h _⟩

end SyntaxTree

end Restyle
