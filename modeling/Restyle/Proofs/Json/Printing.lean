import Mathlib.Data.List.DropRight
import Mathlib.Data.List.TakeWhile
import Mathlib.Tactic
import Restyle.Json.Reading

/-!
A value that is printed is read back, whether it is printed on one line or on many.

* `stringTail_quote`: what a printed string holds is read back as that string;
* `valueAt_append`: a number is read alike with more behind it, so that it may stand in a list;
* `Kept`: a value that is read again as it is printed on one line;
* `Layout`: where the blanks of a printed value stand; both ways of printing are layouts;
* `Layout.valueAt_text`: a value is read back in any layout if its numbers are;
* `kept_of_numbers`, `ofText_pretty`: so it is on one line, and so it is on many.
-/

namespace Restyle

namespace Reading

/-! ### Strings -/

lemma hexValue?_hexDigit : ∀ n < 16, hexValue? (Json.hexDigit n) = some n := by
  decide

/-- A control character is read back from its escape. -/
lemma escapeAt_control {c : Char} (h : c < ' ') (rest : List Char) :
    escapeAt ('u' :: '0' :: '0' :: Json.hexDigit (c.toNat / 16) :: Json.hexDigit (c.toNat % 16)
        :: rest)
      = .ok (.ok c, rest) := by
  have hc : c.toNat < 32 := h
  have hhigh := hexValue?_hexDigit (c.toNat / 16) (by omega)
  have hlow := hexValue?_hexDigit (c.toNat % 16) (by omega)
  have hzero : hexValue? '0' = some 0 := rfl
  have hval : ((0 * 16 + 0) * 16 + c.toNat / 16) * 16 + c.toNat % 16 = c.toNat := by omega
  have hlt : c.toNat < 0xD800 := by omega
  have hnot : ¬ 0xDC00 ≤ c.toNat := by omega
  simp only [escapeAt, hexEscape, hzero, hhigh, hlow, hval, hlt, hnot, decide_false,
    Bool.false_and, decide_true, Bool.true_or, if_true, Char.ofNat_toNat]
  rfl

/-- What a string holds is read back character by character. -/
lemma stringTail_escape (c : Char) (rest : List Char) (fuel : Nat) (read : List Char) :
    stringTail (fuel + 1) (Json.escape c ++ rest) (.ok read)
      = stringTail fuel rest (.ok (c :: read)) := by
  fun_cases Json.escape c with
  | case1 | case2 | case3 | case4 | case5 | case6 | case7 => rfl
  | case8 c hquote hback h1 h2 h3 h4 h5 h =>
    simp only [List.cons_append, List.nil_append, stringTail, escapeAt_control h]
  | case9 c hquote hback h1 h2 h3 h4 h5 h =>
    rw [List.cons_append, List.nil_append, stringTail.eq_def]
    simp [h, Except.map]

lemma length_escape_pos (c : Char) : 1 ≤ (Json.escape c).length := by
  fun_cases Json.escape c
  all_goals simp

/-- A string is read back from its escaped characters, up to the quote. -/
lemma stringTail_flatMap_escape (cs rest : List Char) {fuel : Nat} (h : cs.length < fuel)
    (read : List Char) :
    stringTail fuel (cs.flatMap Json.escape ++ '"' :: rest) (.ok read)
      = .ok (.ok (String.ofList (read.reverse ++ cs)), rest) := by
  induction cs generalizing fuel read with
  | nil =>
    cases fuel with
    | zero => cases h
    | succ fuel => rw [List.append_nil]; rfl
  | cons c cs ih =>
    cases fuel with
    | zero => cases h
    | succ fuel =>
      rw [List.flatMap_cons, List.append_assoc, stringTail_escape,
        ih (Nat.lt_of_succ_lt_succ h), List.reverse_cons, List.append_assoc]
      rfl

/-- A printed string is read back, and what follows it is left. -/
lemma stringTail_quote (s : String) (rest : List Char) :
    stringTail ((s.toList.flatMap Json.escape ++ '"' :: rest).length + 1)
        (s.toList.flatMap Json.escape ++ '"' :: rest) (.ok [])
      = .ok (.ok s, rest) := by
  have hlength : s.toList.length ≤ (s.toList.flatMap Json.escape).length := by
    have hone : ∀ m ∈ s.toList.map fun c => (Json.escape c).length, 1 ≤ m := by
      intro m hm
      obtain ⟨c, -, rfl⟩ := List.mem_map.mp hm
      exact length_escape_pos c
    rw [List.length_flatMap]
    simpa using List.length_le_sum_of_one_le _ hone
  rw [stringTail_flatMap_escape s.toList rest, List.reverse_nil, List.nil_append,
    String.ofList_toList]
  rw [List.length_append, List.length_cons]
  omega

/-! ### Numbers -/

/-- What a text that follows a value can start with: the text is at its end, or the list or the
object goes on or ends, maybe behind blanks. -/
def Closing (text : List Char) : Prop :=
  ∀ c ∈ text.head?, isBlank c = true ∨ c = ',' ∨ c = ']' ∨ c = '\x7d'

lemma isBlank_cases {c : Char} (h : isBlank c = true) :
    c = ' ' ∨ c = '\n' ∨ c = '\t' ∨ c = '\r' := by
  simpa [isBlank, or_assoc] using h

/-- What follows a value does not begin with a digit. -/
lemma Closing.takeWhile_isDigit {tail : List Char} (h : Closing tail) :
    tail.takeWhile isDigit = [] := by
  cases tail with
  | nil => rfl
  | cons c tail =>
    obtain hblank | rfl | rfl | rfl := h c rfl
    · obtain rfl | rfl | rfl | rfl := isBlank_cases hblank
      all_goals rfl
    all_goals rfl

/-- The digits at the front of a text end before what follows the text. -/
lemma takeWhile_isDigit_append {tail : List Char} (h : Closing tail) (text : List Char) :
    (text ++ tail).takeWhile isDigit = text.takeWhile isDigit := by
  rw [List.takeWhile_append]
  split
  · next hall =>
    rw [h.takeWhile_isDigit, List.append_nil, (List.takeWhile_prefix _).eq_of_length hall]
  · rfl

lemma drop_takeWhile_append (text tail : List Char) :
    (text ++ tail).drop (text.takeWhile isDigit).length
      = text.drop (text.takeWhile isDigit).length ++ tail :=
  List.drop_append_of_le_length (List.takeWhile_prefix _).length_le

section Append

variable {text rest tail : List Char} {left : Option (List Char)} {negative : Bool}
  {n : Except Complaint JsonNumber}

/-- If a text does not start with a character, it does not with more behind it either. -/
lemma append_ne_cons (h : Closing tail) {c : Char}
    (hc : isBlank c = false ∧ c ≠ ',' ∧ c ≠ ']' ∧ c ≠ '\x7d')
    (htext : ∀ rest, text = c :: rest → False) (rest : List Char) :
    text ++ tail = c :: rest → False := by
  cases text with
  | nil =>
    rintro rfl
    obtain hblank | rfl | rfl | rfl := h c rfl
    · rw [hc.1] at hblank
      cases hblank
    all_goals simp at hc
  | cons d text =>
    intro heq
    exact htext text (by rw [(List.cons.inj heq).1])

/-- The digits of an exponent end where they ended, whatever follows the value. -/
lemma exponentTail_append (h : Closing tail) {e : Int}
    (hread : exponentTail negative text = .ok (e, rest)) :
    exponentTail negative (text ++ tail) = .ok (e, rest ++ tail) := by
  simp only [exponentTail, takeWhile_isDigit_append h, drop_takeWhile_append] at hread ⊢
  split at hread
  · split at hread <;> cases hread
  · next hdigits =>
    cases hread
    rw [if_neg hdigits]

/-- An exponent ends where it ended, whatever follows the value. -/
lemma exponentAt_append (h : Closing tail) {e : Int}
    (hread : exponentAt text = .ok (e, rest)) :
    exponentAt (text ++ tail) = .ok (e, rest ++ tail) := by
  unfold exponentAt at hread
  split at hread
  · exact exponentTail_append h hread
  · exact exponentTail_append h hread
  · next hplus hminus =>
    rw [exponentAt]
    · exact exponentTail_append h hread
    · exact append_ne_cons h (by decide) hplus
    · exact append_ne_cons h (by decide) hminus

/-- What is read behind a fraction ends where it ended, whatever follows the value. -/
lemma fractionTail_append (h : Closing tail) {digits fraction : List Char}
    (hread : fractionTail negative digits fraction text = (.number n, left)) :
    ∃ rest, left = some rest
      ∧ fractionTail negative digits fraction (text ++ tail)
        = (.number n, some (rest ++ tail)) := by
  unfold fractionTail at hread
  split at hread
  · split at hread
    · cases hread
    · next e rest hexponent =>
      cases hread
      exact ⟨rest, rfl, by rw [List.cons_append, fractionTail, exponentAt_append h hexponent]⟩
  · split at hread
    · cases hread
    · next e rest hexponent =>
      cases hread
      exact ⟨rest, rfl, by rw [List.cons_append, fractionTail, exponentAt_append h hexponent]⟩
  · next hlower hupper =>
    cases hread
    refine ⟨text, rfl, ?_⟩
    rw [fractionTail]
    · exact append_ne_cons h (by decide) hlower
    · exact append_ne_cons h (by decide) hupper

/-- What is read behind the whole part ends where it ended, whatever follows the value. -/
lemma wholeTail_append (h : Closing tail) {digits : List Char}
    (hread : wholeTail negative digits text = (.number n, left)) :
    ∃ rest, left = some rest
      ∧ wholeTail negative digits (text ++ tail) = (.number n, some (rest ++ tail)) := by
  unfold wholeTail at hread
  split at hread
  · dsimp only at hread
    split at hread
    · split at hread <;> cases hread
    · next hfraction =>
      rw [List.cons_append, wholeTail]
      simp only [takeWhile_isDigit_append h, drop_takeWhile_append, if_neg hfraction]
      exact fractionTail_append h hread
  · exact fractionTail_append h hread
  · exact fractionTail_append h hread
  -- No point and no exponent stood there, and what follows begins with neither.
  · next hpoint hlower hupper =>
    cases hread
    refine ⟨text, rfl, ?_⟩
    rw [wholeTail]
    · exact append_ne_cons h (by decide) hpoint
    · exact append_ne_cons h (by decide) hlower
    · exact append_ne_cons h (by decide) hupper

/-- A number is read alike with more behind it. -/
lemma numberAt_append (h : Closing tail)
    (hread : numberAt negative text = (.number n, left)) :
    ∃ rest, left = some rest
      ∧ numberAt negative (text ++ tail) = (.number n, some (rest ++ tail)) := by
  unfold numberAt at hread ⊢
  rw [takeWhile_isDigit_append h]
  split at hread
  · split at hread <;> cases hread
  · cases hread
  · rw [drop_takeWhile_append]
    exact wholeTail_append h hread

/-- A word is read as a number only if it stands for one. -/
lemma eq_number_of_wordTail {word : List Char} {value : Reading}
    (hread : wordTail word value text = (.number n, left)) : value = .number n := by
  induction word generalizing text with
  | nil => exact (Prod.ext_iff.mp hread).1
  | cons w word ih =>
    cases text with
    | nil => cases hread
    | cons c text =>
      rw [wordTail] at hread
      split at hread
      · exact ih hread
      · cases hread

lemma skipBlanks_append (h : skipBlanks text ≠ []) :
    skipBlanks (text ++ tail) = skipBlanks text ++ tail := by
  have hany : ¬ (skipBlanks text).isEmpty := by simpa using h
  rw [skipBlanks, List.dropWhile_append]
  exact if_neg hany

lemma skipBlanks_append_of_eq_nil (h : skipBlanks text = []) :
    skipBlanks (text ++ tail) = skipBlanks tail := by
  have hall : (skipBlanks text).isEmpty := by rw [h]; rfl
  rw [skipBlanks, List.dropWhile_append]
  exact if_pos hall

/-- Only behind a sign and where a digit stands is a number read. -/
lemma exists_numberAt_of_valueAt {fuel : ℕ}
    (hread : valueAt (fuel + 1) text = (.number n, left)) :
    (∃ rest, skipBlanks text = '-' :: rest ∧ numberAt true rest = (.number n, left))
      ∨ ∃ c rest, skipBlanks text = c :: rest ∧ isDigit c
        ∧ numberAt false (c :: rest) = (.number n, left) := by
  rw [valueAt] at hread
  split at hread
  · cases hread
  · cases eq_number_of_wordTail hread
  · cases eq_number_of_wordTail hread
  · cases eq_number_of_wordTail hread
  · split at hread <;> cases hread
  · next rest heq => exact .inl ⟨rest, heq, hread⟩
  · cases hread
  · cases hread
  · next c rest _ _ _ _ _ _ _ heq =>
    split at hread
    · next hc => exact .inr ⟨c, rest, heq, hc, hread⟩
    · cases hread

/-- A value that is a number is read alike with more behind it. -/
lemma valueAt_append (h : Closing tail) {fuel : ℕ}
    (hread : valueAt fuel text = (.number n, left)) :
    ∃ rest, left = some rest
      ∧ ∀ fuel, valueAt (fuel + 1) (text ++ tail) = (.number n, some (rest ++ tail)) := by
  cases fuel with
  | zero => cases hread
  | succ fuel =>
    obtain ⟨behind, htext, hnumber⟩ | ⟨c, behind, htext, hc, hnumber⟩ :=
      exists_numberAt_of_valueAt hread
    · obtain ⟨rest, hrest, happend⟩ := numberAt_append h hnumber
      have hskip : skipBlanks (text ++ tail) = '-' :: (behind ++ tail) := by
        rw [skipBlanks_append (by rw [htext]; exact List.cons_ne_nil _ _), htext, List.cons_append]
      exact ⟨rest, hrest, fun fuel => by simp only [valueAt, hskip, happend]⟩
    · obtain ⟨rest, hrest, happend⟩ := numberAt_append h hnumber
      have hskip : skipBlanks (text ++ tail) = c :: (behind ++ tail) := by
        rw [skipBlanks_append (by rw [htext]; exact List.cons_ne_nil _ _), htext, List.cons_append]
      exact ⟨rest, hrest, fun fuel => by rw [valueAt_digit hc hskip]; exact happend⟩

end Append

/-! ### Values -/

section Values

variable {text behind mid rest tail : List Char} {v : Reading} {fuel : ℕ}

lemma skipBlanks_append_of_blank {blanks : List Char} (h : ∀ c ∈ blanks, isBlank c = true)
    (text : List Char) : skipBlanks (blanks ++ text) = skipBlanks text :=
  List.dropWhile_append_of_pos h

lemma skipBlanks_skipBlanks (text : List Char) : skipBlanks (skipBlanks text) = skipBlanks text :=
  List.dropWhile_idempotent _ _

lemma valueAt_skipBlanks (fuel : ℕ) (text : List Char) :
    valueAt fuel (skipBlanks text) = valueAt fuel text := by
  cases fuel with
  | zero => rfl
  | succ fuel => rw [valueAt, valueAt, skipBlanks_skipBlanks]

/-- A text says a value if the value is read and nothing but blanks follow it. -/
lemma exists_valueAt_of_ofText {text : String} (h : ofText text = ⟨v, false⟩) :
    ∃ left, valueAt (2 * text.toList.length + 2) text.toList = (v, left)
      ∧ ∀ rest ∈ left, skipBlanks rest = [] := by
  rcases hread : valueAt (2 * text.toList.length + 2) text.toList with ⟨r, left⟩
  simp only [ofText, hread] at h
  cases left with
  | none =>
    cases h
    exact ⟨none, rfl, nofun⟩
  | some rest =>
    obtain ⟨rfl, hmore⟩ := Document.mk.inj h
    refine ⟨some rest, rfl, ?_⟩
    rintro _ ⟨⟩
    simpa using hmore

lemma ofText_of_valueAt {text : String} (rest : List Char)
    (hread : valueAt (2 * text.toList.length + 2) text.toList = (v, some rest))
    (hrest : skipBlanks rest = []) : ofText text = ⟨v, false⟩ := by
  simp only [ofText, hread, hrest, List.isEmpty_nil, Bool.not_true]

/-- Where a value stands there is something, and no list ends. -/
lemma exists_cons_of_valueAt (hv : valueAt fuel text = (v, some rest)) :
    ∃ c behind, skipBlanks text = c :: behind ∧ c ≠ ']' := by
  cases fuel with
  | zero => cases hv
  | succ fuel =>
    cases htext : skipBlanks text with
    | nil => simp [valueAt, htext] at hv
    | cons c behind =>
      refine ⟨c, behind, rfl, ?_⟩
      rintro rfl
      simp [valueAt, htext, isDigit] at hv

/-- The first item is read without a comma. -/
lemma itemsAt_first {vs : List Reading} (hv : valueAt fuel text = (v, some rest))
    (hvs : itemsAt fuel false rest = (vs, none, some tail)) :
    itemsAt (fuel + 1) true text = (v :: vs, none, some tail) := by
  obtain ⟨c, behind, htext, hc⟩ := exists_cons_of_valueAt hv
  rw [← valueAt_skipBlanks, htext] at hv
  simp [itemsAt, htext, hv, hvs]

/-- Every later item is read behind a comma. -/
lemma itemsAt_next {vs : List Reading} (htext : skipBlanks text = ',' :: behind)
    (hv : valueAt fuel behind = (v, some rest))
    (hvs : itemsAt fuel false rest = (vs, none, some tail)) :
    itemsAt (fuel + 1) false text = (v :: vs, none, some tail) := by
  obtain ⟨c, behind', hbehind, hc⟩ := exists_cons_of_valueAt hv
  rw [← valueAt_skipBlanks, hbehind] at hv
  simp only [itemsAt, htext, Char.reduceEq, imp_self, Bool.false_eq_true, ↓reduceIte, hbehind]
  split
  · next heq => exact absurd (List.cons.inj heq).1 hc
  · next heq => cases heq
  · simp only [hv, hvs]

section Members

variable {key : Except Complaint String} {ms : List (Except Complaint String × Reading)}

/-- The first member is read without a comma. -/
lemma membersAt_first (htext : skipBlanks text = '"' :: behind)
    (hkey : stringTail (behind.length + 1) behind (.ok []) = .ok (key, ':' :: mid))
    (hv : valueAt fuel mid = (v, some rest))
    (hms : membersAt fuel false rest = (ms, none, some tail)) :
    membersAt (fuel + 1) true text = ((key, v) :: ms, none, some tail) := by
  have hcolon : skipBlanks (':' :: mid) = ':' :: mid := rfl
  simp [membersAt, htext, hkey, hcolon, hv, hms]

/-- Every later member is read behind a comma. -/
lemma membersAt_next {next : List Char} (htext : skipBlanks text = ',' :: next)
    (hnext : skipBlanks next = '"' :: behind)
    (hkey : stringTail (behind.length + 1) behind (.ok []) = .ok (key, ':' :: mid))
    (hv : valueAt fuel mid = (v, some rest))
    (hms : membersAt fuel false rest = (ms, none, some tail)) :
    membersAt (fuel + 1) false text = ((key, v) :: ms, none, some tail) := by
  have hcolon : skipBlanks (':' :: mid) = ':' :: mid := rfl
  simp [membersAt, htext, hnext, hkey, hcolon, hv, hms]

end Members

end Values

end Reading

namespace Json

/-! ### Printed values -/

mutual

/-- The numbers in a value, in order. -/
def numbers : Json → List JsonNumber
  | number n => [n]
  | array items => itemNumbers items
  | object members => memberNumbers members
  | _ => []

def itemNumbers : List Json → List JsonNumber
  | [] => []
  | v :: vs => numbers v ++ itemNumbers vs

def memberNumbers : List (String × Json) → List JsonNumber
  | [] => []
  | (_, v) :: ms => numbers v ++ memberNumbers ms

end

lemma itemNumbers_eq_flatMap (vs : List Json) : itemNumbers vs = vs.flatMap numbers := by
  induction vs with
  | nil => rfl
  | cons v vs ih => rw [itemNumbers, ih, List.flatMap_cons]

lemma memberNumbers_eq_flatMap (ms : List (String × Json)) :
    memberNumbers ms = ms.flatMap fun m => m.2.numbers := by
  induction ms with
  | nil => rfl
  | cons m ms ih => rw [memberNumbers, ih, List.flatMap_cons]

/-- A value that is read again as it is printed. -/
def Kept (v : Json) : Prop :=
  Reading.ofText v.compact = ⟨.ofJson v, false⟩

/-- A number that is kept is read back from its print, whatever follows it. -/
lemma Kept.valueAt_number {n : JsonNumber} (h : Kept (.number n)) {tail : List Char}
    (htail : Reading.Closing tail) (fuel : ℕ) :
    ∃ rest, Reading.valueAt (fuel + 1) ((compact (.number n)).toList ++ tail)
        = (.number (.ok n), some rest) ∧ Reading.skipBlanks rest = Reading.skipBlanks tail := by
  obtain ⟨left, hread, hleft⟩ := Reading.exists_valueAt_of_ofText h
  obtain ⟨rest, rfl, happend⟩ := Reading.valueAt_append htail hread
  exact ⟨rest ++ tail, happend fuel, Reading.skipBlanks_append_of_eq_nil (hleft rest rfl)⟩

lemma toList_quote (s : String) :
    (quote s).toList = '"' :: (s.toList.flatMap escape ++ ['"']) := by
  simp [quote]

/-- Where the blanks of a printed value stand. -/
structure Layout where
  /-- Before each item and member at a depth, and before the bracket that ends them. -/
  gap : ℕ → List Char
  /-- Behind the colon of a member. -/
  space : List Char
  isBlank_gap : ∀ indent, ∀ c ∈ gap indent, Reading.isBlank c = true
  isBlank_space : ∀ c ∈ space, Reading.isBlank c = true

namespace Layout

/-- The blanks before the bracket that ends a list or an object. -/
def ending (l : Layout) (indent : ℕ) (empty : Bool) : List Char :=
  if empty then [] else l.gap indent

mutual

/-- The text of a value in a layout. -/
def text (l : Layout) (indent : ℕ) : Json → List Char
  | .array vs =>
    '[' :: (itemsText l (indent + 1) true vs ++ (l.ending indent vs.isEmpty ++ [']']))
  | .object ms =>
    '\x7b' :: (membersText l (indent + 1) true ms ++ (l.ending indent ms.isEmpty ++ ['\x7d']))
  | v => v.compact.toList

def itemsText (l : Layout) (indent : ℕ) (first : Bool) : List Json → List Char
  | [] => []
  | v :: vs =>
    (if first then [] else [','])
      ++ (l.gap indent ++ (text l indent v ++ itemsText l indent false vs))

def membersText (l : Layout) (indent : ℕ) (first : Bool) : List (String × Json) → List Char
  | [] => []
  | (k, v) :: ms =>
    (if first then [] else [','])
      ++ (l.gap indent ++ ((quote k).toList
        ++ ':' :: (l.space ++ (text l indent v ++ membersText l indent false ms))))

end

section Text

variable {tail : List Char}

/-- What is printed in front of the closing bracket is blank. -/
lemma isBlank_ending (l : Layout) (indent : ℕ) (empty : Bool) :
    ∀ c ∈ l.ending indent empty, Reading.isBlank c = true := by
  unfold ending
  split
  · exact nofun
  · exact l.isBlank_gap indent

/-- Behind blanks the list or the object ends. -/
lemma closing_end {blanks : List Char} (hblanks : ∀ c ∈ blanks, Reading.isBlank c = true)
    {bracket : Char} (hbracket : bracket = ']' ∨ bracket = '\x7d') (tail : List Char) :
    Reading.Closing (blanks ++ bracket :: tail) := by
  cases blanks with
  | nil =>
    rintro _ ⟨⟩
    exact .inr (.inr hbracket)
  | cons c blanks =>
    rintro _ ⟨⟩
    exact .inl (hblanks c List.mem_cons_self)

/-- Behind an item come a comma and another one, or what follows the items. -/
lemma closing_itemsText (l : Layout) (indent : ℕ) (vs : List Json) (htail : Reading.Closing tail) :
    Reading.Closing (l.itemsText indent false vs ++ tail) := by
  cases vs with
  | nil => exact htail
  | cons v vs =>
    rintro _ ⟨⟩
    exact .inr (.inl rfl)

/-- Behind a member come a comma and another one, or what follows the members. -/
lemma closing_membersText (l : Layout) (indent : ℕ) (ms : List (String × Json))
    (htail : Reading.Closing tail) :
    Reading.Closing (l.membersText indent false ms ++ tail) := by
  cases ms with
  | nil => exact htail
  | cons m ms =>
    rintro _ ⟨⟩
    exact .inr (.inl rfl)

/-- Every value is printed as one character at least. -/
lemma one_le_length_text (l : Layout) (indent : ℕ) (v : Json)
    (hv : ∀ n ∈ v.numbers, Kept (.number n)) :
    1 ≤ (l.text indent v).length := by
  cases v with
  | null => simp [text, compact]
  | bool b => cases b <;> simp [text, compact]
  | number n =>
    by_contra hnil
    have hempty : compact (.number n) = "" := by simpa [text] using hnil
    have hkept := hv n (by simp [numbers])
    rw [Kept, hempty] at hkept
    cases congrArg Document.value hkept
  | string s => simp [text, compact, quote]
  | array vs => simp [text]
  | object ms => simp [text]

/-! A value takes one unit of fuel, and so does each item or member with the comma before it. Every
value is at least one character long, so twice the length of the text is enough. -/

mutual

/-- A value is read back in any layout, and what follows it is left. -/
lemma valueAt_text (l : Layout) (indent : ℕ) (v : Json) (hv : ∀ n ∈ v.numbers, Kept (.number n))
    (fuel : ℕ) (hfuel : 2 * (l.text indent v).length ≤ fuel) {tail : List Char}
    (htail : Reading.Closing tail) :
    ∃ rest, Reading.valueAt fuel (l.text indent v ++ tail) = (.ofJson v, some rest)
      ∧ Reading.skipBlanks rest = Reading.skipBlanks tail := by
  obtain ⟨fuel, rfl⟩ : ∃ k, fuel = k + 1 := by
    have := one_le_length_text l indent v hv
    exact ⟨fuel - 1, by omega⟩
  cases v with
  | null => exact ⟨tail, rfl, rfl⟩
  | bool b =>
    cases b with
    | false => exact ⟨tail, rfl, rfl⟩
    | true => exact ⟨tail, rfl, rfl⟩
  | number n =>
    rw [text]
    · exact Kept.valueAt_number (hv n (by simp [numbers])) htail fuel
    all_goals exact nofun
  | string s =>
    refine ⟨tail, ?_, rfl⟩
    have hstring := Reading.stringTail_quote s tail
    have hskip : Reading.skipBlanks ((quote s).toList ++ tail)
        = '"' :: (s.toList.flatMap escape ++ '"' :: tail) := by
      simp [toList_quote, Reading.skipBlanks, Reading.isBlank]
    simp only [text, compact, Reading.valueAt, hskip, hstring, Reading.ofJson]
  | array vs =>
    rw [text] at hfuel ⊢
    have hitems : Reading.itemsAt fuel true
          (l.itemsText (indent + 1) true vs ++ (l.ending indent vs.isEmpty ++ ']' :: tail))
        = (Reading.ofItems vs, none, some tail) :=
      itemsAt_text l (indent + 1) vs hv true fuel
        (by simp only [List.length_cons, List.length_append] at hfuel; omega)
        (isBlank_ending l indent _) rfl
    have hskip : Reading.skipBlanks ('[' :: (l.itemsText (indent + 1) true vs
          ++ (l.ending indent vs.isEmpty ++ [']'])) ++ tail)
        = '[' :: (l.itemsText (indent + 1) true vs
          ++ (l.ending indent vs.isEmpty ++ ']' :: tail)) := by
      simp [Reading.skipBlanks, Reading.isBlank]
    refine ⟨tail, ?_, rfl⟩
    simp only [Reading.valueAt, hskip, hitems, Reading.ofJson]
  | object ms =>
    rw [text] at hfuel ⊢
    have hmembers : Reading.membersAt fuel true
          (l.membersText (indent + 1) true ms ++ (l.ending indent ms.isEmpty ++ '\x7d' :: tail))
        = (Reading.ofMembers ms, none, some tail) :=
      membersAt_text l (indent + 1) ms hv true fuel
        (by simp only [List.length_cons, List.length_append] at hfuel; omega)
        (isBlank_ending l indent _) rfl
    have hskip : Reading.skipBlanks ('\x7b' :: (l.membersText (indent + 1) true ms
          ++ (l.ending indent ms.isEmpty ++ ['\x7d'])) ++ tail)
        = '\x7b' :: (l.membersText (indent + 1) true ms
          ++ (l.ending indent ms.isEmpty ++ '\x7d' :: tail)) := by
      simp [Reading.skipBlanks, Reading.isBlank]
    refine ⟨tail, ?_, rfl⟩
    simp only [Reading.valueAt, hskip, hmembers, Reading.ofJson]

-- Blanks are skipped on both sides, as the first item may be a number and nothing is known of how
-- its text starts.
/-- Items are read back from their text up to the bracket, with fuel for twice its length. -/
lemma itemsAt_text (l : Layout) (indent : ℕ) (vs : List Json)
    (hvs : ∀ n ∈ itemNumbers vs, Kept (.number n)) (first : Bool) (fuel : ℕ)
    (hfuel : 2 * (l.itemsText indent first vs).length < fuel) {text blanks tail : List Char}
    (hblanks : ∀ c ∈ blanks, Reading.isBlank c = true)
    (htext : Reading.skipBlanks text
      = Reading.skipBlanks (l.itemsText indent first vs ++ (blanks ++ ']' :: tail))) :
    Reading.itemsAt fuel first text = (Reading.ofItems vs, none, some tail) := by
  obtain ⟨fuel, rfl⟩ : ∃ k, fuel = k + 1 := ⟨fuel - 1, by omega⟩
  cases vs with
  | nil => exact Reading.itemsAt_close (htext.trans (Reading.skipBlanks_append_of_blank hblanks _))
  | cons v vs =>
    rw [itemsText] at hfuel htext
    have hv : ∀ n ∈ v.numbers, Kept (.number n) :=
      fun n hn => hvs n (by rw [itemNumbers]; exact List.mem_append_left _ hn)
    have hrest : ∀ n ∈ itemNumbers vs, Kept (.number n) :=
      fun n hn => hvs n (by rw [itemNumbers]; exact List.mem_append_right _ hn)
    -- A value is not empty, so what is left of the items is shorter and the fuel suffices.
    have hpos := one_le_length_text l indent v hv
    have hclosing := closing_itemsText l indent vs (closing_end hblanks (.inl rfl) tail)
    obtain ⟨rest, hread, hskip⟩ := valueAt_text l indent v hv fuel
      (by simp only [List.length_append] at hfuel; omega) hclosing
    have hlater : Reading.itemsAt fuel false rest = (Reading.ofItems vs, none, some tail) :=
      itemsAt_text l indent vs hrest false fuel
        (by simp only [List.length_append] at hfuel; omega) hblanks hskip
    have hvalue : Reading.valueAt fuel (l.gap indent
          ++ (l.text indent v ++ (l.itemsText indent false vs ++ (blanks ++ ']' :: tail))))
        = (.ofJson v, some rest) := by
      rw [← Reading.valueAt_skipBlanks, Reading.skipBlanks_append_of_blank (l.isBlank_gap indent),
        Reading.valueAt_skipBlanks]
      exact hread
    simp only [List.append_assoc] at htext
    -- Only the comma in front makes the later items different.
    cases first with
    | true =>
      refine Reading.itemsAt_first ?_ hlater
      rw [← Reading.valueAt_skipBlanks, htext]
      exact (Reading.valueAt_skipBlanks _ _).trans hvalue
    | false => exact Reading.itemsAt_next htext hvalue hlater

/-- Members are read back from their text up to the brace, with fuel for twice its length. -/
lemma membersAt_text (l : Layout) (indent : ℕ) (ms : List (String × Json))
    (hms : ∀ n ∈ memberNumbers ms, Kept (.number n)) (first : Bool) (fuel : ℕ)
    (hfuel : 2 * (l.membersText indent first ms).length < fuel) {text blanks tail : List Char}
    (hblanks : ∀ c ∈ blanks, Reading.isBlank c = true)
    (htext : Reading.skipBlanks text
      = Reading.skipBlanks (l.membersText indent first ms ++ (blanks ++ '\x7d' :: tail))) :
    Reading.membersAt fuel first text = (Reading.ofMembers ms, none, some tail) := by
  obtain ⟨fuel, rfl⟩ : ∃ k, fuel = k + 1 := ⟨fuel - 1, by omega⟩
  match ms with
  | [] => exact Reading.membersAt_close (htext.trans (Reading.skipBlanks_append_of_blank hblanks _))
  | (k, v) :: ms =>
    rw [membersText] at hfuel htext
    have hv : ∀ n ∈ v.numbers, Kept (.number n) :=
      fun n hn => hms n (by rw [memberNumbers]; exact List.mem_append_left _ hn)
    have hrest : ∀ n ∈ memberNumbers ms, Kept (.number n) :=
      fun n hn => hms n (by rw [memberNumbers]; exact List.mem_append_right _ hn)
    have hclosing := closing_membersText l indent ms (closing_end hblanks (.inr rfl) tail)
    obtain ⟨rest, hread, hskip⟩ := valueAt_text l indent v hv fuel
      (by simp only [List.length_append, List.length_cons] at hfuel; omega) hclosing
    have hlater : Reading.membersAt fuel false rest = (Reading.ofMembers ms, none, some tail) :=
      membersAt_text l indent ms hrest false fuel
        (by simp only [List.length_append, List.length_cons] at hfuel; omega) hblanks hskip
    -- The key, the colon, the value and the rest, in the order they are read.
    have hkey := Reading.stringTail_quote k (':' :: (l.space
      ++ (l.text indent v ++ (l.membersText indent false ms ++ (blanks ++ '\x7d' :: tail)))))
    have hvalue : Reading.valueAt fuel (l.space
          ++ (l.text indent v ++ (l.membersText indent false ms ++ (blanks ++ '\x7d' :: tail))))
        = (.ofJson v, some rest) := by
      rw [← Reading.valueAt_skipBlanks, Reading.skipBlanks_append_of_blank l.isBlank_space,
        Reading.valueAt_skipBlanks]
      exact hread
    have hquote : Reading.skipBlanks (l.gap indent ++ ((quote k).toList ++ ':' :: (l.space
          ++ (l.text indent v ++ (l.membersText indent false ms ++ (blanks ++ '\x7d' :: tail))))))
        = '"' :: (k.toList.flatMap escape ++ '"' :: (':' :: (l.space ++ (l.text indent v
          ++ (l.membersText indent false ms ++ (blanks ++ '\x7d' :: tail)))))) := by
      rw [Reading.skipBlanks_append_of_blank (l.isBlank_gap indent)]
      simp [toList_quote, Reading.skipBlanks, Reading.isBlank]
    simp only [List.append_assoc, List.cons_append] at htext
    cases first with
    | true => exact Reading.membersAt_first (htext.trans hquote) hkey hvalue hlater
    | false => exact Reading.membersAt_next htext hquote hkey hvalue hlater

end

end Text

/-- All on one line, without blanks. -/
def oneLine : Layout where
  gap _ := []
  space := []
  isBlank_gap _ := nofun
  isBlank_space := nofun

/-- Each item and member on a line of its own. -/
def manyLines : Layout where
  gap indent := (newLine indent).toList
  space := [' ']
  isBlank_gap indent c hc := by
    simp only [newLine, String.toList_append, String.toList_ofList] at hc
    obtain hc | hc := List.mem_append.mp hc
    · obtain rfl := List.mem_singleton.mp hc
      rfl
    · obtain rfl := List.eq_of_mem_replicate hc
      rfl
  isBlank_space c hc := by
    obtain rfl := List.mem_singleton.mp hc
    rfl

end Layout

/-! ### The two ways of printing -/

mutual

/-- The layout on one line is the compact print. -/
lemma text_oneLine (indent : ℕ) (v : Json) : Layout.oneLine.text indent v = v.compact.toList := by
  cases v with
  | array vs =>
    have hending : Layout.oneLine.ending indent vs.isEmpty = [] := ite_self _
    rw [Layout.text, itemsText_oneLine, hending]
    simp [compact]
  | object ms =>
    have hending : Layout.oneLine.ending indent ms.isEmpty = [] := ite_self _
    rw [Layout.text, membersText_oneLine, hending]
    simp [compact]
  | null | bool _ | number _ | string _ => rfl

lemma itemsText_oneLine (indent : ℕ) (first : Bool) (vs : List Json) :
    Layout.oneLine.itemsText indent first vs = (compactItems first vs).toList := by
  cases vs with
  | nil => rfl
  | cons v vs =>
    rw [Layout.itemsText, text_oneLine, itemsText_oneLine]
    cases first
    all_goals simp [compactItems, Layout.oneLine]

lemma membersText_oneLine (indent : ℕ) (first : Bool) (ms : List (String × Json)) :
    Layout.oneLine.membersText indent first ms = (compactMembers first ms).toList := by
  match ms with
  | [] => rfl
  | (k, v) :: ms =>
    rw [Layout.membersText, text_oneLine, membersText_oneLine]
    cases first
    all_goals simp [compactMembers, Layout.oneLine]

end

mutual

/-- The layout on many lines is the pretty print. -/
lemma text_manyLines (indent : ℕ) (v : Json) :
    Layout.manyLines.text indent v = (prettyAt indent v).toList := by
  match v with
  | .array [] => simp [Layout.text, Layout.itemsText, Layout.ending, prettyAt]
  | .array (v :: vs) =>
    rw [Layout.text, itemsText_manyLines]
    simp [prettyAt, Layout.ending, Layout.manyLines]
  | .object [] => simp [Layout.text, Layout.membersText, Layout.ending, prettyAt]
  | .object (m :: ms) =>
    rw [Layout.text, membersText_manyLines]
    simp [prettyAt, Layout.ending, Layout.manyLines]
  | .null | .bool _ | .number _ | .string _ => rfl

lemma itemsText_manyLines (indent : ℕ) (first : Bool) (vs : List Json) :
    Layout.manyLines.itemsText indent first vs = (prettyItems indent first vs).toList := by
  match vs with
  | [] => rfl
  | v :: vs =>
    rw [Layout.itemsText, text_manyLines, itemsText_manyLines]
    cases first
    all_goals simp [prettyItems, Layout.manyLines]

lemma membersText_manyLines (indent : ℕ) (first : Bool) (ms : List (String × Json)) :
    Layout.manyLines.membersText indent first ms = (prettyMembers indent first ms).toList := by
  match ms with
  | [] => rfl
  | (k, v) :: ms =>
    rw [Layout.membersText, text_manyLines, membersText_manyLines]
    cases first
    all_goals simp [prettyMembers, Layout.manyLines]

end

/-- A value whose numbers are kept is read back from its text, in either layout. -/
lemma Layout.ofText_text (l : Layout) (v : Json) (hv : ∀ n ∈ v.numbers, Kept (.number n))
    {text : String} (htext : l.text 0 v = text.toList) :
    Reading.ofText text = ⟨.ofJson v, false⟩ := by
  have htail : Reading.Closing [] := nofun
  obtain ⟨rest, hread, hrest⟩ := l.valueAt_text 0 v hv (2 * text.toList.length + 2)
    (by rw [htext]; omega) htail
  rw [List.append_nil, htext] at hread
  exact Reading.ofText_of_valueAt rest hread hrest

/-- A value is read again as it is printed on one line if its numbers are. -/
theorem kept_of_numbers (v : Json) (hv : ∀ n ∈ v.numbers, Kept (.number n)) : Kept v :=
  Layout.oneLine.ofText_text v hv (text_oneLine 0 v)

/-- A value is read again as it is printed on many lines if its numbers are. -/
theorem ofText_pretty (v : Json) (hv : ∀ n ∈ v.numbers, Kept (.number n)) :
    Reading.ofText v.pretty = ⟨.ofJson v, false⟩ :=
  Layout.manyLines.ofText_text v hv (text_manyLines 0 v)

end Json

end Restyle
