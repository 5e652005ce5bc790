import Restyle.Proofs.Change.Sticky
import Restyle.Proofs.Syntax.Reading
import Restyle.Proofs.Tree.Placed

/-!
Which names of wrappers are names of elements. A wrapper's name has parts with dots between them,
and dashes in any part; the grammar knows names with dots and names with dashes, but none with both.

* `word_plain`, `dashedName_dashed`: which characters the tokens of names take;
* `splitList_snoc`, `dots_induction`: the last part of a text;
* `Reads.nestedIdentifier_plain`, `Reads.elementName_named`: what is read as a name is one;
* `exists_reads_plain`, `IsElementName.exists_reads`: what is a name is read as one;
* `nameOfElement?_soleStatement`: the element that is read has that name;
* `wrapElement_elementName_iff`: a wrapper's name is read if and only if it has no dots or no
  dashes, and does not begin with a reserved word.
-/

namespace Restyle.Syntax

open Grammar Lexeme

variable {reserved : String → Bool} {name : Option Construct} {role : Option Role} {place : Nat}
  {w text rest : List Char} {trees : List Cst}

/-! ### The characters of names -/

lemma isPlain_or_dash (c : Char) : (isPlain c || decide (c = '-')) = isNameChar c := by
  simp only [isPlain, isLetter, isDigit, isNameChar, Bool.or_assoc]
  ac_rfl

lemma isPlain_of_isNameChar {c : Char} (h : isNameChar c = true) (hdash : c ≠ '-') :
    isPlain c = true := by
  rwa [← isPlain_or_dash, decide_eq_false hdash, Bool.or_false] at h

/-- A name starts with a letter, an underscore or a dollar sign. -/
lemma isMarkupName_start {c : Char} (h : isMarkupName (String.ofList (c :: text)) = true) :
    isPlain c = true ∧ isDigit c = false := by
  rw [isMarkupName, String.toList_ofList, Bool.and_eq_true] at h
  exact isPlain_of_start h.1

/-! ### The tokens of names -/

lemma head_mem_take {c : Char} {n : Nat} (hn : 0 < n) : c ∈ (c :: text).take n := by
  cases n with
  | zero => cases hn
  | succ n => exact List.mem_cons_self

/-- A word without escapes has word characters only. -/
lemma wordTail_plain (fuel : Nat) (text : List Char) (h : '\\' ∉ text.take (wordTail fuel text)) :
    ∀ c ∈ text.take (wordTail fuel text), isWordChar c = true := by
  induction fuel generalizing text with
  | zero => simp [wordTail]
  | succ fuel ih =>
      cases text with
      | nil => simp
      | cons c text =>
          by_cases hc : isWordChar c = true
          · rw [wordTail, if_pos hc, Nat.add_comm, List.take_succ_cons] at h ⊢
            rw [List.mem_cons, not_or] at h
            rw [List.forall_mem_cons]
            exact ⟨hc, ih text h.2⟩
          · rw [wordTail, if_neg hc] at h ⊢
            split at h
            · next n hescape =>
                obtain ⟨rfl, hn⟩ := unicodeEscape_eq_some hescape
                exact absurd (head_mem_take (by omega)) h
            · simp

/-- A word without escapes has the characters of words only. -/
lemma word_plain {n : Nat} (hword : word text = some n) (hback : '\\' ∉ text.take n) :
    ∀ c ∈ text.take n, isWordChar c = true := by
  unfold word at hword
  split at hword
  · cases hword
  · next c text =>
      split at hword
      · next hc =>
          cases hword
          rw [Nat.add_comm, List.take_succ_cons, List.mem_cons, not_or] at hback
          rw [Nat.add_comm, List.take_succ_cons, List.forall_mem_cons]
          exact ⟨(Bool.and_eq_true _ _ ▸ hc).1, wordTail_plain _ _ hback.2⟩
      · obtain ⟨m, hescape, rfl⟩ := Option.map_eq_some_iff.mp hword
        obtain ⟨rfl, hm⟩ := unicodeEscape_eq_some hescape
        exact absurd (head_mem_take (by omega)) hback

lemma dashedName_cons (c : Char) (text : List Char) :
    dashedName (c :: text) = if isPlain c && !isDigit c then
        match (c :: text).drop ((c :: text).takeWhile isPlain).length with
        | '-' :: more => some (((c :: text).takeWhile isPlain).length + 1
            + (more.takeWhile isNameChar).length)
        | _ => none
      else none := by
  have hname : isNameChar = fun c => isPlain c || decide (c = '-') :=
    funext fun c => (isPlain_or_dash c).symm
  rw [hname]
  rfl

/-- A token for names with dashes has a dash in it, and the characters of names only. -/
lemma dashedName_dashed {n : Nat} (h : dashedName text = some n) :
    '-' ∈ text.take n ∧ ∀ c ∈ text.take n, isNameChar c = true := by
  cases text with
  | nil => cases h
  | cons c text =>
      rw [dashedName_cons] at h
      split at h
      · obtain ⟨tail, htail⟩ := List.takeWhile_prefix isPlain (l := c :: text)
        split at h
        · next more hmore =>
            obtain ⟨back, hback⟩ := List.takeWhile_prefix isNameChar (l := more)
            -- the dash stands where the plain characters end
            have htail' : tail = '-' :: more := by
              have hdrop := @List.drop_left _ ((c :: text).takeWhile isPlain) tail
              rw [htail, hmore] at hdrop
              exact hdrop.symm
            have htake : (c :: text).take n
                = (c :: text).takeWhile isPlain ++ '-' :: more.takeWhile isNameChar := by
              cases h
              have htext : c :: text = ((c :: text).takeWhile isPlain
                  ++ '-' :: more.takeWhile isNameChar) ++ back := by
                rw [List.append_assoc, List.cons_append, hback, ← htail', htail]
              refine (congrArg (List.take _) htext).trans (List.take_left' ?_)
              simp only [List.length_append, List.length_cons]
              omega
            rw [htake]
            refine ⟨by simp, fun d hd => ?_⟩
            rcases List.mem_append.mp hd with hd | hd
            · rw [← isPlain_or_dash, List.mem_takeWhile_imp hd, Bool.true_or]
            · rcases List.mem_cons.mp hd with rfl | hd
              · decide
              · exact List.mem_takeWhile_imp hd
        · cases h
      · cases h

/-- A name with a dash is one such token. -/
lemma dashedName_append (hw : isMarkupName (String.ofList w) = true) (hdash : '-' ∈ w)
    (hrest : ∀ c ∈ rest.head?, isNameChar c = false) : dashedName (w ++ rest) = some w.length := by
  -- The scan takes plain characters up to the first dash, and name characters behind it.
  obtain ⟨front, back, rfl, hfront⟩ := List.eq_append_cons_of_mem hdash
  have hchars := (isMarkupName_spec hw).2
  rw [String.toList_ofList, List.forall_mem_append, List.forall_mem_cons] at hchars
  obtain ⟨hplain, -, hback⟩ := hchars
  have hplain : ∀ c ∈ front, isPlain c = true := fun c hc =>
    isPlain_of_isNameChar (hplain c hc) fun h => hfront (h ▸ hc)
  have htail : (back ++ rest).takeWhile isNameChar = back := by
    rw [List.takeWhile_append_of_pos hback]
    cases rest with
    | nil => simp
    | cons d rest => rw [List.takeWhile_cons_of_neg (by simp [hrest d rfl]), List.append_nil]
  have hhead : (front ++ '-' :: (back ++ rest)).takeWhile isPlain = front := by
    rw [List.takeWhile_append_of_pos hplain, List.takeWhile_cons_of_neg (by decide),
      List.append_nil]
  cases front with
  | nil => exact absurd (isMarkupName_start hw).1 (by decide)
  | cons c front =>
      obtain ⟨hc, hdigit⟩ := isMarkupName_start hw
      have hstart : (isPlain c && !isDigit c) = true := by rw [hc, hdigit]; rfl
      rw [List.append_assoc, List.cons_append, List.cons_append, dashedName_cons, if_pos hstart,
        ← List.cons_append, hhead, List.drop_left]
      simp only [htail, List.length_append, List.length_cons, Option.some.injEq]
      omega

/-! ### The parts of a text -/

/-- What stands in front of the first dot. -/
def firstWord (w : List Char) : List Char :=
  w.takeWhile (· ≠ '.')

/-- What the grammar admits as the name of an element: words with dots between them, the first of
which is not reserved, or one name with dashes. -/
def IsElementName (reserved : String → Bool) (w : List Char) : Prop :=
  ('-' ∉ w ∧ reserved (String.ofList (firstWord w)) = false) ∨ ('-' ∈ w ∧ '.' ∉ w)

lemma firstWord_of_not_mem (h : '.' ∉ w) : firstWord w = w :=
  List.takeWhile_eq_self_iff.mpr fun _ hc => decide_eq_true fun hdot => h (hdot ▸ hc)

/-- The first word ends at the first dot. -/
lemma firstWord_append (front back : List Char) :
    firstWord (front ++ '.' :: back) = firstWord front := by
  induction front with
  | nil => rfl
  | cons d front ih =>
      rw [firstWord, firstWord, List.cons_append, List.takeWhile_cons, List.takeWhile_cons]
      exact ite_congr rfl (fun _ => congrArg (d :: ·) ih) fun _ => rfl

/-- Without a dot the whole is one part. -/
lemma splitList_of_not_mem (h : '.' ∉ w) : Text.splitList (· = '.') w = [w] := by
  induction w with
  | nil => rfl
  | cons c w ih =>
      rw [List.mem_cons, not_or] at h
      rw [Text.splitList, if_neg (by simpa using Ne.symm h.1), ih h.2]

lemma splitList_ne_nil (w : List Char) : Text.splitList (· = '.') w ≠ [] := by
  cases w with
  | nil => exact List.cons_ne_nil _ _
  | cons c w =>
      rw [Text.splitList]
      split
      · exact List.cons_ne_nil _ _
      · split <;> exact List.cons_ne_nil _ _

/-- A text has the parts of what stands before its last dot, and the part behind it. -/
lemma splitList_snoc {back : List Char} (h : '.' ∉ back) (front : List Char) :
    Text.splitList (· = '.') (front ++ '.' :: back)
      = Text.splitList (· = '.') front ++ [back] := by
  induction front with
  | nil => exact congrArg ([] :: ·) (splitList_of_not_mem h)
  | cons c front ih =>
      rw [List.cons_append, Text.splitList, Text.splitList, ih]
      split
      · rfl
      · cases hparts : Text.splitList (· = '.') front with
        | nil => exact absurd hparts (splitList_ne_nil front)
        | cons part parts => rfl

/-- Induction on the number of dots in a text. -/
lemma dots_induction {P : List Char → Prop} (plain : ∀ w, '.' ∉ w → P w)
    (snoc : ∀ front back, '.' ∉ back → P front → P (front ++ '.' :: back)) (w : List Char) :
    P w := by
  by_cases hdot : '.' ∈ w
  · obtain ⟨back, front, hw, hback⟩ := List.eq_append_cons_of_mem (List.mem_reverse.mpr hdot)
    have hsplit : w = front.reverse ++ '.' :: back.reverse := by
      rw [← List.reverse_reverse w, hw]
      simp
    have hlength : front.reverse.length < w.length := by simp [hsplit]
    rw [hsplit]
    exact snoc _ _ (fun h => hback (List.mem_reverse.mp h))
      (dots_induction plain snoc front.reverse)
  · exact plain w hdot
termination_by w.length

/-- Every character but the dot is in one of the parts. -/
lemma mem_part_of_mem {c : Char} (hc : c ∈ w) (hdot : c ≠ '.') :
    ∃ part ∈ Text.splitList (· = '.') w, c ∈ part := by
  induction w using dots_induction with
  | plain w hw => exact ⟨w, by rw [splitList_of_not_mem hw]; exact List.mem_singleton_self w, hc⟩
  | snoc front back hback ih =>
      rw [splitList_snoc hback]
      rcases List.mem_append.mp hc with hc | hc
      · obtain ⟨part, hpart, hc⟩ := ih hc
        exact ⟨part, List.mem_append_left _ hpart, hc⟩
      · exact ⟨back, by simp, (List.mem_cons.mp hc).resolve_left hdot⟩

/-! ### What is read as a name -/

/-- Whether a text has no other characters than names with dots. -/
def IsNamelike (text : List Char) : Prop :=
  ∀ c ∈ text, isNameChar c = true ∨ c = '.'

lemma IsNamelike.not_mem (h : IsNamelike text) {c : Char} (hc : isNameChar c = false)
    (hdot : c ≠ '.') : c ∉ text := fun hmem =>
  (h c hmem).elim (fun hname => Bool.false_ne_true (hc.symm.trans hname)) hdot

/-- A name has no blanks. -/
lemma IsNamelike.solid (h : IsNamelike text) {c : Char} (hc : c ∈ text) : isBlank c = false := by
  rcases h c hc with hname | rfl
  · by_cases hdash : c = '-'
    · rw [hdash]
      decide
    · have hword := isWordChar_of_isPlain (isPlain_of_isNameChar hname hdash)
      rw [isWordChar, Bool.not_eq_true', Bool.or_eq_false_iff, Bool.or_eq_false_iff] at hword
      exact hword.1.2
  · decide

/-- No layout stands in such a text. -/
lemma IsNamelike.layout_eq_nil {layout body : List Char} (h : IsNamelike (layout ++ body))
    (hlayout : Layout place layout rest trees) : layout = [] :=
  (hlayout.eq_nil fun c hc => by
    have hmem : c ∈ layout ++ body := List.mem_append_left _ (List.mem_of_mem_head? hc)
    exact ⟨h.solid hmem, fun hslash => h.not_mem (by decide) (by decide) (hslash ▸ hmem)⟩).1

namespace Reads

/-- A name read as an identifier has no dash and no dot, and is not reserved. -/
lemma identifier_plain (hw : IsNamelike text)
    (h : Reads reserved name role (.the .identifier) place text rest trees) :
    '-' ∉ text ∧ '.' ∉ text ∧ reservedAs reserved name (String.ofList text) = false := by
  obtain ⟨layout, body, comments, rfl, hlayout, -, hscan, -⟩ := h.of_token rfl
  cases hw.layout_eq_nil hlayout
  obtain ⟨hword, hfree⟩ := Option.filter_eq_some_iff.mp hscan
  have htake : (body ++ rest).take body.length = body := List.take_left
  have hchars := word_plain hword (by rw [htake]; exact hw.not_mem (by decide) (by decide))
  rw [htake] at hchars hfree
  refine ⟨fun hdash => ?_, fun hdot => ?_, by simpa using hfree⟩
  · exact absurd (hchars _ hdash) (by decide)
  · exact absurd (hchars _ hdot) (by decide)

/-- A name read as a dashed one has a dash and no dot. -/
lemma dashedName_named (hw : IsNamelike text)
    (h : Reads reserved name role (.the .dashedName) place text rest trees) :
    '-' ∈ text ∧ '.' ∉ text := by
  obtain ⟨layout, body, comments, rfl, hlayout, -, hscan, -⟩ := h.of_token rfl
  cases hw.layout_eq_nil hlayout
  obtain ⟨hdash, hchars⟩ := dashedName_dashed hscan
  rw [List.take_left] at hdash hchars
  exact ⟨hdash, fun hdot => absurd (hchars _ hdot) (by decide)⟩

/-- What is read with dots in it has no dashes, and does not begin with a reserved word. -/
lemma nestedIdentifier_plain (hw : IsNamelike text)
    (h : Reads reserved name role (.the .nestedIdentifier) place text rest trees) :
    '-' ∉ text ∧ reserved (String.ofList (firstWord text)) = false := by
  -- what stands in front of the last dot is shorter
  induction hn : text.length using Nat.strong_induction_on
    generalizing text name role place rest trees with
  | _ n ih =>
  obtain ⟨_, _, -, h, -⟩ := h.of_shows (r := .bound (.level .member) none
    (.seq (.seq (.alt (.the .identifier) (.shown .member (.the .nestedIdentifier))) (.spelled "."))
      (.shown .propertyName (.the .identifier)))) rfl rfl (Bool.or_true _)
  rw [bound_iff, seq_iff] at h
  obtain ⟨front, back, _, _, rfl, -, h, hback⟩ := h
  obtain ⟨first, dot, _, _, rfl, -, hfirst, hdot⟩ := seq_iff.mp h
  obtain ⟨hw, hwback⟩ := List.forall_mem_append.mp hw
  obtain ⟨hwfirst, hwdot⟩ := List.forall_mem_append.mp hw
  obtain ⟨layout, _, rfl, hlayout⟩ := hdot.of_spelled
  cases IsNamelike.layout_eq_nil hwdot hlayout
  obtain ⟨hback, -, -⟩ := identifier_plain hwback (shown_iff.mp hback)
  have hsplit : first ++ ([] ++ ".".toList) ++ back = first ++ '.' :: back := by simp
  have hfront : '-' ∉ first ∧ reserved (String.ofList (firstWord first)) = false := by
    rcases alt_iff.mp hfirst with hfirst | hfirst
    · obtain ⟨hdash, hnodot, hfree⟩ := identifier_plain hwfirst hfirst
      rw [firstWord_of_not_mem hnodot]
      exact ⟨hdash, hfree⟩
    · exact ih first.length (by simp [← hn]) hwfirst (shown_iff.mp hfirst) rfl
  rw [hsplit, firstWord_append]
  refine ⟨fun hdash => ?_, hfront.2⟩
  rcases List.mem_append.mp hdash with hdash | hdash
  · exact hfront.1 hdash
  · exact hback ((List.mem_cons.mp hdash).resolve_left (by decide))

/-- A name read as a markup name is an element name. -/
lemma anyMarkupName_named (hw : IsNamelike text)
    (h : Reads reserved none role (.the .anyMarkupName) place text rest trees) :
    IsElementName reserved text := by
  have h := h.of_inlined
    (r := .alt (.shown .identifier (.the .dashedName)) (.the .identifier)) rfl rfl
  rcases alt_iff.mp h with h | h
  · exact .inr (dashedName_named hw (shown_iff.mp h))
  · obtain ⟨hdash, hdot, hfree⟩ := identifier_plain hw h
    exact .inl ⟨hdash, by rw [firstWord_of_not_mem hdot]; exact hfree⟩

/-- What is read as the name of an element is one. -/
lemma elementName_named (hw : IsNamelike text)
    (h : Reads reserved none role (.the .elementName) place text rest trees) :
    IsElementName reserved text := by
  have h := h.of_inlined (r := .alt (.the .anyMarkupName)
    (.alt (.shown .member (.the .nestedIdentifier)) (.the .namespacedName))) rfl rfl
  rcases alt_iff.mp h with h | h
  · exact anyMarkupName_named hw h
  rcases alt_iff.mp h with h | h
  · exact .inl (nestedIdentifier_plain hw (shown_iff.mp h))
  · -- a colon would stand in the text
    obtain ⟨_, _, _, h⟩ := h.of_rule (r := .seq (.seq (.the .anyMarkupName) (.spelled ":"))
      (.the .anyMarkupName)) rfl
    obtain ⟨front, back, _, _, rfl, -, h, -⟩ := seq_iff.mp h
    obtain ⟨first, colon, _, _, rfl, -, -, hcolon⟩ := seq_iff.mp h
    obtain ⟨layout, _, rfl, -⟩ := hcolon.of_spelled
    exact absurd (show ':' ∈ first ++ (layout ++ ":".toList) ++ back by simp)
      (hw.not_mem (by decide) (by decide))

end Reads

/-! ### Names are read -/

/-- What a name shows as. -/
def nameConstruct (w : List Char) : Construct :=
  if '.' ∈ w then .member else .identifier

/-- Whether all parts between dots are names in markup. -/
def IsDotted (w : List Char) : Prop :=
  ∀ part ∈ Text.splitList (· = '.') w, isMarkupName (String.ofList part) = true

lemma IsDotted.isNamelike (h : IsDotted w) : IsNamelike w := by
  intro c hc
  by_cases hdot : c = '.'
  · exact .inr hdot
  · obtain ⟨part, hpart, hc⟩ := mem_part_of_mem hc hdot
    exact .inl ((isMarkupName_spec (h part hpart)).2 c (by rwa [String.toList_ofList]))

/-- A markup name without a dash is read as an identifier unless it is reserved. -/
lemma reads_identifier (hw : isMarkupName (String.ofList w) = true) (hdash : '-' ∉ w)
    (hfree : reservedAs reserved name (String.ofList w) = false)
    (hrest : ∀ c ∈ rest.head?, isWordChar c = false ∧ c ≠ '\\') :
    Reads reserved name role (.the .identifier) place w rest
      [.node (.named (name.getD .identifier)) role place (place + w.length) []] := by
  have hplain : ∀ c ∈ w, isWordChar c = true := fun c hc => isWordChar_of_isPlain
    (isPlain_of_isNameChar ((isMarkupName_spec hw).2 c (by rwa [String.toList_ofList]))
      fun h => hdash (h ▸ hc))
  have hword : word (w ++ rest) = some w.length := by
    cases w with
    | nil => exact absurd rfl (isMarkupName_spec hw).1
    | cons c w =>
        obtain ⟨hc, hw'⟩ := List.forall_mem_cons.mp hplain
        refine word_append ?_ hw' hrest
        rw [isWordStart, hc, (isMarkupName_start hw).2]
        rfl
  have hlabel : tokenLabel name .identifier = .named (name.getD .identifier) := by
    cases name <;> rfl
  rw [← hlabel]
  refine Reads.token_here rfl ?_
  rw [Option.filter_eq_some_iff]
  exact ⟨hword, by rw [List.take_left, hfree]; rfl⟩

/-- Words with dots between them are read as an identifier or a member. -/
lemma exists_reads_plain (role : Option Role) (place : Nat) (hw : IsDotted w) (hdash : '-' ∉ w)
    (hfree : reserved (String.ofList (firstWord w)) = false)
    (hrest : ∀ c ∈ rest.head?, isWordChar c = false ∧ c ≠ '\\') :
    ∃ kids, Reads reserved none role
      (.alt (.the .identifier) (.shown .member (.the .nestedIdentifier))) place w rest
      [.node (.named (nameConstruct w)) role place (place + w.length) kids] := by
  -- By induction on the dots: the member's object is the name up to the last one.
  induction w using dots_induction generalizing rest role with
  | plain w hdot =>
      rw [IsDotted, splitList_of_not_mem hdot, List.forall_mem_singleton] at hw
      rw [firstWord_of_not_mem hdot] at hfree
      rw [nameConstruct, if_neg hdot]
      exact ⟨[], .first (reads_identifier hw hdash hfree hrest)⟩
  | snoc front back hback ih =>
      rw [IsDotted, splitList_snoc hback, List.forall_mem_append, List.forall_mem_singleton] at hw
      rw [List.mem_append, not_or, List.mem_cons, not_or] at hdash
      rw [firstWord_append] at hfree
      have hdot : ∀ c ∈ (".".toList ++ (back ++ rest)).head?, isWordChar c = false ∧ c ≠ '\\' := by
        simpa using (by decide : isWordChar '.' = false)
      obtain ⟨kids, hfront⟩ := ih none hw.1 hdash.1 hfree hdot
      have hback' : Reads reserved none none (.shown .propertyName (.the .identifier))
          (place + (front ++ ".".toList).length) back rest _ :=
        -- Behind a dot a word names a property, so none is reserved there.
        .shown (reads_identifier hw.2 hdash.2.2 rfl hrest)
      have hmember : Reads reserved (some .member) role (.the .nestedIdentifier) place _ rest _ :=
        .construct_here rfl rfl rfl (.bound ((hfront.seq (.mark "." rfl)).seq hback'))
          (by rintro _ ⟨⟩; rw [nameConstruct]; split <;> exact nofun)
      have htext : front ++ ".".toList ++ back = front ++ '.' :: back := by simp
      rw [htext] at hmember
      rw [nameConstruct, if_pos (by simp)]
      exact ⟨_, .second (.shown hmember)⟩

/-- What is a name of an element is read as one, also in an opening tag. -/
lemma IsElementName.exists_reads (h : IsElementName reserved w) (hw : IsDotted w)
    (role : Option Role) (place : Nat) (rest : List Char)
    (hrest : ∀ c ∈ rest.head?, isWordChar c = false ∧ c ≠ '\\' ∧ c ≠ '-') :
    ∃ kids kids', Reads reserved none role (.the .elementName) place w rest
        [.node (.named (nameConstruct w)) role place (place + w.length) kids]
      ∧ Reads reserved none none
        (.alt (.slot .name (.alt (.the .anyMarkupName) (.the .namespacedName)))
          (.seq (.slot .name
            (.alt (.the .identifier) (.shown .member (.the .nestedIdentifier))))
            (.maybe (.the .typeArguments))))
        place w rest
        [.node (.named (nameConstruct w)) (some .name) place (place + w.length) kids'] := by
  -- Without a dash the name is an identifier or a member; with one it is a name of markup only.
  rcases h with ⟨hdash, hfree⟩ | ⟨hdash, hdot⟩
  · have hrest' : ∀ c ∈ rest.head?, isWordChar c = false ∧ c ≠ '\\' := fun c hc =>
      ⟨(hrest c hc).1, (hrest c hc).2.1⟩
    obtain ⟨kids, h⟩ := exists_reads_plain role place hw hdash hfree hrest'
    obtain ⟨kids', h'⟩ := exists_reads_plain (some .name) place hw hdash hfree hrest'
    have helement : Reads reserved none role (.the .elementName) place w rest
        [.node (.named (nameConstruct w)) role place (place + w.length) kids] := by
      refine .opens rfl rfl ?_
      rcases Reads.alt_iff.mp h with h | h
      · exact .first (.opens rfl rfl (.second h))
      · exact .second (.first h)
    exact ⟨kids, kids', helement, .second (Reads.slot h').seq_nothing⟩
  · rw [IsDotted, splitList_of_not_mem hdot, List.forall_mem_singleton] at hw
    have hscan : dashedName (w ++ rest) = some w.length := dashedName_append hw hdash fun c hc => by
      rw [Bool.eq_false_iff]
      intro hname
      have hword := isWordChar_of_isPlain (isPlain_of_isNameChar hname (hrest c hc).2.2)
      rw [(hrest c hc).1] at hword
      cases hword
    have hname : ∀ role, Reads reserved none role (.the .anyMarkupName) place w rest
        [.node (.named .identifier) role place (place + w.length) []] := fun role =>
      .opens rfl rfl (.first (.shown (.token_here rfl hscan)))
    rw [nameConstruct, if_neg hdot]
    exact ⟨[], [], .opens rfl rfl (.first (hname role)), .first (.slot (.first (hname _)))⟩

/-! ### Elements of that name -/

/-- An element with nothing in it. -/
def emptyElement (w : List Char) : List Char :=
  "<".toList ++ w ++ ">".toList ++ ("</".toList ++ w ++ ">".toList)

/-- The concrete tree of an element with nothing in it, whose name has `n` characters. -/
def emptyElementTree (name : Construct) (n : Nat) (kids kids' : List Cst) : Cst :=
  .node (.named .element) none 0 (n + n + 5)
    [.node (.named .openingTag) (some .openTag) 0 (n + 2)
      [.node (.token "<") none 0 1 [], .node (.named name) (some .name) 1 (n + 1) kids,
        .node (.token ">") none (n + 1) (n + 2) []],
      .node (.named .closingTag) (some .closeTag) (n + 2) (n + n + 5)
        [.node (.token "</") none (n + 2) (n + 4) [],
          .node (.named name) (some .name) (n + 4) (n + n + 4) kids',
          .node (.token ">") none (n + n + 4) (n + n + 5) []]]

/-- An element with nothing in it is an expression if its name is one of an element. -/
lemma IsElementName.exists_reads_element (h : IsElementName reserved w) (hw : IsDotted w) :
    ∃ kids kids', Reads reserved none none (.the .expression) 0 (emptyElement w) []
      [emptyElementTree (nameConstruct w) w.length kids kids'] := by
  obtain ⟨-, kids, -, hopen⟩ := h.exists_reads hw none 1
    (">".toList ++ ("</".toList ++ w ++ ">".toList ++ [])) (by simp; decide)
  obtain ⟨kids', -, hclose, -⟩ := h.exists_reads hw (some .name) (w.length + 2 + 2)
    (">".toList ++ []) (by simp; decide)
  have hstart : Reads reserved none none openingTagStart 0 _ _ _ :=
    (Reads.mark "<" rfl).seq (.first hopen.seq_nothing)
  -- The tags are read piece by piece and put together to the element.
  have hopening : Reads reserved none (some .openTag) (.the .openingTag) 0 _ _ _ :=
    .construct_here rfl rfl rfl (.weighed (.seq (.opens rfl rfl hstart) (.mark ">" rfl)))
      (by rintro _ ⟨⟩ ⟨⟩)
  have hclosing : Reads reserved none (some .closeTag) (.the .closingTag) (w.length + 2) _ [] _ :=
    .construct_here rfl rfl rfl
      (((Reads.mark "</" rfl).seq (.first (.slot hclose))).seq (.mark ">" rfl)) (by rintro _ ⟨⟩ ⟨⟩)
  have hplace : ("<".toList ++ w ++ ">".toList).length = w.length + 2 := by simp
  have helement : Reads reserved none none (.the .element) 0 _ _ _ :=
    .construct_here rfl rfl rfl ((Reads.slot hopening).seq_nothing.seq
      (.slot (by rwa [Nat.zero_add, hplace]))) (by rintro _ ⟨⟩ ⟨⟩)
  have hexpression : Reads reserved none none (.the .expression) 0 _ _ _ :=
    .hides rfl rfl rfl (.second (.second (.second (.second (.second
      (.first (.opens rfl rfl (.first helement))))))))
  refine ⟨kids, kids', ?_⟩
  convert hexpression using 1
  · rfl
  · simp [emptyElementTree, Cst.start]
    omega

/-- The concrete tree of a module that is one expression of `n` characters. -/
def soleStatement (n : Nat) (expression : Cst) : Cst :=
  .node (.named .program) none 0 n [.node (.named .expressionStatement) none 0 n [expression]]

lemma verdict_nil (setting : Semicolon.Setting) : Semicolon.verdict setting [] = .due := rfl

/-- An expression that is read from its first character is a module. -/
lemma reads_soleStatement {expression : Cst} (hstart : expression.start = 0)
    (hlabel : expression.label ≠ .named .comment)
    (h : Reads reserved none none (.the .expression) 0 text [] [expression]) :
    Reads reserved none none (.the .program) 0 text [] [soleStatement text.length expression] := by
  -- nothing follows, so that no semicolon is missing
  have hsemicolon : Reads reserved none none (.the .semicolon) (0 + text.length) [] [] [] :=
    .opens rfl rfl (.first (.semicolon .nothing rfl (verdict_nil ⟨false, false⟩)))
  have hstatement : Reads reserved none none (.the .expressionStatement) 0 (text ++ []) [] _ :=
    .construct_here rfl rfl rfl (.seq (.opens rfl rfl (.first h)) hsemicolon)
      (by rintro _ ⟨⟩; exact hlabel)
  have hprogram : Reads reserved none none (.the .program) 0 (text ++ []) [] _ :=
    .construct_here rfl rfl rfl
      (.nothing_seq (.first (.once (.hides rfl rfl rfl
        (.second (.second (.second (.first hstatement)))))))) (by rintro _ ⟨⟩ ⟨⟩)
  rw [List.append_nil] at hprogram
  convert hprogram using 1
  obtain ⟨label, role, start, stop, children⟩ := expression
  obtain rfl : start = 0 := hstart
  simp [soleStatement, Cst.start]

end Restyle.Syntax

namespace Restyle.SyntaxTree

open Syntax

lemma length_emptyElement (w : List Char) : (emptyElement w).length = w.length + w.length + 5 := by
  simp [emptyElement]
  omega

lemma slice_emptyElement (w : List Char) :
    slice (emptyElement w) 1 (w.length + 1) = String.ofList w := by
  have htext : emptyElement w
      = "<".toList ++ (w ++ (">".toList ++ ("</".toList ++ w ++ ">".toList))) := by
    simp [emptyElement]
  rw [slice, htext, List.drop_left' (by simp), Nat.add_sub_cancel, List.take_left]

/-- The element that is read has the name that was written. -/
lemma nameOfElement?_soleStatement (w : List Char) (name : Construct) (kids kids' : List Cst) :
    let element := emptyElementTree name w.length kids kids'
    let t := ofConcrete (emptyElement w) (soleStatement (emptyElement w).length element)
    ∃ statement e, t.children root = [statement] ∧ t.children statement = [e]
      ∧ t.nameOfElement? e = some (String.ofList w) := by
  intro element t
  have hlength := length_emptyElement w
  have hwell : t.WellFormed := wellFormed_ofConcrete _ _
  have hroot := (ofConcrete_spec (emptyElement w)
    (soleStatement (emptyElement w).length element)).2.2.forall₂
      (show NodeKind.program ≠ .attribute by decide) ⟨le_rfl, Nat.zero_le _, le_rfl, trivial⟩
  obtain ⟨statement, _, hstatement, hnil, hchildren⟩ := List.forall₂_cons_right_iff.mp hroot
  obtain rfl := List.forall₂_nil_right_iff.mp hnil
  have hbelow := hstatement.copies.forall₂
    (show NodeKind.expressionStatement ≠ .attribute by decide)
    ⟨le_rfl, Nat.zero_le _, hlength.ge, trivial⟩
  obtain ⟨e, _, he, hnil, hchild⟩ := List.forall₂_cons_right_iff.mp hbelow
  obtain rfl := List.forall₂_nil_right_iff.mp hnil
  refine ⟨statement, e, hchildren, hchild, ?_⟩
  -- down to the opening tag, and to the name in it
  have htags := he.copies.forall₂ (show NodeKind.element ≠ .attribute by decide)
    (by simp [element, emptyElementTree, Cst.Ordered, Cst.start, Cst.stop, Cst.children]; omega)
  obtain ⟨tag, htag, htagged⟩ := childIn?_of_forall₂ .openTag htags rfl
  have hparts := htagged.copies.forall₂ (show NodeKind.openingTag ≠ .attribute by decide)
    (by simp [Cst.Ordered, Cst.start, Cst.stop, Cst.children])
  obtain ⟨y, hy, hnamed⟩ := childIn?_of_forall₂ .name hparts rfl
  have htext : t.text y = String.ofList w := by
    rw [hwell.text_of_asRead (changed_ofConcrete _) hnamed.asRead_eq]
    exact slice_emptyElement w
  have hparent : t.parent tag = some e := hwell.parent_of_mem (childIn?_spec htag).1
  have hkind : t.kind e = .element := he.kind_eq
  have htagkind : t.kind tag = .openingTag := htagged.kind_eq
  rw [nameOfElement?, tagOfElement?, hkind]
  dsimp only
  rw [htag, Option.bind_some, tagAt?, hy, elementOfTag?, htagkind]
  dsimp only
  rw [hparent, Option.map_some, htext]

lemma isDotted_of_wrapElement {t : SyntaxTree} {tag : Tag} {value : String}
    (h : (t.wrapElement tag value).1 ≠ .invalidValue) : IsDotted (Text.trim value).toList := by
  intro part hpart
  rw [wrapElement] at h
  dsimp only at h
  split at h
  · exact absurd rfl h
  · next hdotted =>
      rw [Bool.not_eq_true', Bool.not_eq_false, isDottedName, Text.split, List.all_map] at hdotted
      exact List.all_eq_true.mp hdotted part hpart

/-- A wrapper's name that is not refused is read as the name of an element if and only if it has no
dots or no dashes and does not begin with a reserved word. If it is read, the element that is
written for it is an expression, and the module that it makes up has an element of that name. -/
theorem wrapElement_elementName_iff (reserved : String → Bool) (t : SyntaxTree) (tag : Tag)
    (value : String) (h : (t.wrapElement tag value).1 ≠ .invalidValue) :
    let w := (Text.trim value).toList
    ((∃ place rest trees, Reads reserved none none (.the .elementName) place w rest trees)
        ↔ IsElementName reserved w)
      ∧ (IsElementName reserved w → ∃ kids kids',
        let element := emptyElementTree (nameConstruct w) w.length kids kids'
        let tree := soleStatement (emptyElement w).length element
        Reads reserved none none (.the .expression) 0 (emptyElement w) [] [element]
          ∧ Reads reserved none none (.the .program) 0 (emptyElement w) [] [tree]
          ∧ ∃ statement e, (ofConcrete (emptyElement w) tree).children root = [statement]
            ∧ (ofConcrete (emptyElement w) tree).children statement = [e]
            ∧ (ofConcrete (emptyElement w) tree).nameOfElement? e = some (Text.trim value)) := by
  intro w
  have hw := isDotted_of_wrapElement h
  refine ⟨⟨fun ⟨_, _, _, hread⟩ => hread.elementName_named hw.isNamelike, fun hname => ?_⟩,
    fun hname => ?_⟩
  · obtain ⟨kids, -, hread, -⟩ := hname.exists_reads hw none 0 [] nofun
    exact ⟨_, _, _, hread⟩
  · obtain ⟨kids, kids', hread⟩ := hname.exists_reads_element hw
    have hfound := nameOfElement?_soleStatement w (nameConstruct w) kids kids'
    rw [String.ofList_toList] at hfound
    exact ⟨kids, kids', hread, reads_soleStatement rfl nofun hread, hfound⟩

/-- The concrete tree of a module with one element, `<div/>`. -/
def soleDivision : Cst :=
  .node (.named .program) none 0 6
    [.node (.named .expressionStatement) none 0 6
      [.node (.named .selfClosingElement) none 0 6
        [.node (.token "<") none 0 1 [], .node (.named .identifier) (some .name) 1 4 [],
          .node (.token "/>") none 4 6 []]]]

/-- A name with a dot, where `const` is reserved. -/
theorem wrapElement_elementName_member :
    let t := ofConcrete "<div/>".toList soleDivision
    let reserved := fun s => s == "const"
    (t.wrapElement ⟨2, 2, "div", some ⟨1, 1⟩⟩ " motion.const ").1 ≠ .invalidValue
      ∧ (∃ place rest trees, Reads reserved none none (.the .elementName) place
        "motion.const".toList rest trees)
      ∧ ∃ kids kids', Reads reserved none none (.the .expression) 0
        "<motion.const></motion.const>".toList [] [emptyElementTree .member 12 kids kids'] := by
  intro t reserved
  have hvalue : (t.wrapElement ⟨2, 2, "div", some ⟨1, 1⟩⟩ " motion.const ").1 ≠ .invalidValue := by
    decide +kernel
  have hname : IsElementName reserved (Text.trim " motion.const ").toList := by
    left
    decide +kernel
  obtain ⟨hread, helement⟩ := wrapElement_elementName_iff reserved t _ _ hvalue
  obtain ⟨kids, kids', hexpression, -⟩ := helement hname
  exact ⟨hvalue, hread.mpr hname, kids, kids', hexpression⟩

/-- A name with a dash and a dot, and a reserved word, are not refused, and wrappers are written
that are no elements. -/
theorem wrapElement_elementName_dashed :
    let t := ofConcrete "<div/>".toList soleDivision
    let tag : Tag := ⟨2, 2, "div", some ⟨1, 1⟩⟩
    (t.wrapElement tag "a-b.c").1 = .applied
      ∧ (t.wrapElement tag "a-b.c").2.render = "<a-b.c><div/></a-b.c>"
      ∧ (∀ reserved place rest trees,
        ¬ Reads reserved none none (.the .elementName) place "a-b.c".toList rest trees)
      ∧ (t.wrapElement tag "const").1 = .applied
      ∧ (t.wrapElement tag "const").2.render = "<const><div/></const>"
      ∧ ∀ place rest trees, ¬ Reads (fun s => s == "const") none none (.the .elementName) place
        "const".toList rest trees := by
  intro t tag
  refine ⟨by decide +kernel, by decide +kernel, fun reserved place rest trees h => ?_,
    by decide +kernel, by decide +kernel, fun place rest trees h => ?_⟩
  · rcases h.elementName_named (by simp [IsNamelike]; decide) with ⟨hdash, -⟩ | ⟨-, hdot⟩
    · exact hdash (by decide)
    · exact hdot (by decide)
  · rcases h.elementName_named (by simp [IsNamelike]; decide) with hfree | ⟨hdash, -⟩
    · exact absurd hfree (by decide)
    · exact absurd hdash (by decide)

end Restyle.SyntaxTree
