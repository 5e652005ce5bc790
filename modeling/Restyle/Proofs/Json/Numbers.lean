import Restyle.Proofs.Json.Printing

/-!
The whole numbers of JSON texts.

* `JsonNumber.InRange`: a number that a text can hold; the whole ones are those of 64 bits;
* `kept_whole`: such a whole number is read again as it is printed;
* `inRange_ofText`: all numbers that are read from a text are such numbers.
-/

namespace Restyle

/-- A number that a text can hold: the whole ones are those of 64 bits. -/
def JsonNumber.InRange : JsonNumber → Prop
  | .whole n => -2 ^ 63 ≤ n ∧ n < 2 ^ 64
  | .real _ => True

namespace Reading

/-! ### Digits -/

lemma digitChar_toNat : ∀ d < 10, (Nat.digitChar d).toNat - 48 = d := by
  decide

/-- One more digit makes the number ten times larger, as long as it fits. -/
lemma accumulate_append_singleton {digits : List Char} {start n : ℕ} {c : Char}
    (hdigits : accumulate digits start = (n, 0)) (hmax : n * 10 + (c.toNat - 48) ≤ maxWhole) :
    accumulate (digits ++ [c]) start = (n * 10 + (c.toNat - 48), 0) := by
  induction digits generalizing start with
  | nil =>
    cases hdigits
    simp [accumulate, hmax]
  | cons d digits ih =>
    rw [accumulate] at hdigits
    split at hdigits
    · cases hdigits
    · next hd => simp only [List.cons_append, accumulate, if_neg hd, ih hdigits]

/-- The digits of a number add up to it. -/
lemma accumulate_toDigits (n : ℕ) (hn : n ≤ maxWhole) :
    accumulate (Nat.toDigits 10 n) 0 = (n, 0) := by
  induction n using Nat.strong_induction_on with
  | h n ih =>
    obtain hsmall | hlarge := Nat.lt_or_ge n 10
    · rw [Nat.toDigits_of_lt_base hsmall]
      have hd := digitChar_toNat n hsmall
      simp [accumulate, hd, hn]
    · have hd := digitChar_toNat (n % 10) (Nat.mod_lt _ (by decide))
      have hsum : n / 10 * 10 + n % 10 = n := Nat.div_add_mod' n 10
      rw [Nat.toDigits_of_base_le (by decide) hlarge,
        accumulate_append_singleton (ih (n / 10) (by omega) (by omega))]
      · rw [hd, hsum]
      · rw [hd, hsum]
        exact hn

/-- Only zero starts with a zero. -/
lemma head?_toDigits (n : ℕ) (h : (Nat.toDigits 10 n).head? = some '0') : n = 0 := by
  induction n using Nat.strong_induction_on with
  | h n ih =>
    obtain hsmall | hlarge := Nat.lt_or_ge n 10
    · rw [Nat.toDigits_of_lt_base hsmall] at h
      have hzero : ∀ d < 10, Nat.digitChar d = '0' → d = 0 := by decide
      exact hzero n hsmall (by simpa using h)
    · rw [Nat.toDigits_of_base_le (by decide) hlarge] at h
      have := ih (n / 10) (by omega) (by
        rwa [List.head?_append_of_ne_nil _ Nat.toDigits_ne_nil] at h)
      omega

lemma isDigit_eq (c : Char) : isDigit c = c.isDigit := by
  simp only [isDigit, Char.isDigit, Char.le_def]

lemma isDigit_of_mem_toDigits {n : ℕ} {c : Char} (hc : c ∈ Nat.toDigits 10 n) :
    isDigit c = true := by
  rw [isDigit_eq]
  exact Nat.isDigit_of_mem_toDigits (by decide) (by decide) hc

lemma skipBlanks_digit {c : Char} (hc : isDigit c = true) (rest : List Char) :
    skipBlanks (c :: rest) = c :: rest := by
  refine List.dropWhile_cons_of_neg ?_
  simp only [isBlank, Bool.or_eq_true, decide_eq_true_eq]
  rintro (((rfl | rfl) | rfl) | rfl)
  all_goals cases hc

/-- The digits of a number are read as a whole number to their end. -/
lemma numberAt_toDigits (negative : Bool) (n : ℕ) :
    numberAt negative (Nat.toDigits 10 n)
      = (.number (wholeNumber negative (Nat.toDigits 10 n)), some []) := by
  have htake : (Nat.toDigits 10 n).takeWhile isDigit = Nat.toDigits 10 n :=
    List.takeWhile_eq_self_iff.mpr fun c hc => isDigit_of_mem_toDigits hc
  rw [numberAt, htake]
  split
  · next hnil => exact absurd hnil Nat.toDigits_ne_nil
  · next c rest hzero =>
    have hn := head?_toDigits n (by rw [hzero]; rfl)
    subst hn
    cases hzero
  · rw [List.drop_length]
    rfl

lemma wholeNumber_toDigits {n : ℕ} (hn : n ≤ maxWhole) :
    wholeNumber false (Nat.toDigits 10 n) = .ok (.whole n) := by
  rw [wholeNumber, accumulate_toDigits n hn]
  rfl

lemma wholeNumber_toDigits_neg {n : ℕ} (hpos : n ≠ 0) (hn : n ≤ Nat.pow 2 63) :
    wholeNumber true (Nat.toDigits 10 n) = .ok (.whole (-n)) := by
  have hmax : n ≤ maxWhole := hn.trans (by decide)
  rw [wholeNumber, accumulate_toDigits n hmax]
  simp [hpos, hn]

end Reading

namespace Json

open Reading

lemma toList_compact_ofNat (n : ℕ) :
    (compact (.number (.whole (Int.ofNat n)))).toList = Nat.toDigits 10 n := by
  have htext : toString (Int.ofNat n) = toString n := rfl
  rw [compact, numberText, htext, Nat.toString_eq_ofList_toDigits, String.toList_ofList]

lemma toList_compact_negSucc (n : ℕ) :
    (compact (.number (.whole (Int.negSucc n)))).toList = '-' :: Nat.toDigits 10 (n + 1) := by
  have htext : toString (Int.negSucc n) = "-" ++ toString (n + 1) := rfl
  rw [compact, numberText, htext, Nat.toString_eq_ofList_toDigits, String.toList_append,
    String.toList_ofList, String.toList_ofList, List.singleton_append]

/-- A whole number that a text can hold is read again as it is printed. -/
theorem kept_whole {n : ℤ} (hn : (JsonNumber.whole n).InRange) : Kept (.number (.whole n)) := by
  obtain ⟨hlow, hhigh⟩ := hn
  -- The two ways to print: with no sign, up to the largest unsigned number, and with one.
  cases n with
  | ofNat n =>
    have hmax : n ≤ maxWhole := by
      have hpow : maxWhole = 2 ^ 64 - 1 := rfl
      rw [Int.ofNat_eq_natCast] at hhigh
      omega
    obtain ⟨c, rest, hdigits⟩ := List.exists_cons_of_ne_nil (@Nat.toDigits_ne_nil n 10)
    have hmem : c ∈ Nat.toDigits 10 n := by
      rw [hdigits]
      exact List.mem_cons_self
    have hc := isDigit_of_mem_toDigits hmem
    have hskip : skipBlanks (Nat.toDigits 10 n) = c :: rest := by
      rw [hdigits]
      exact skipBlanks_digit hc rest
    refine ofText_of_valueAt [] ?_ rfl
    rw [toList_compact_ofNat, valueAt_digit hc hskip, ← hdigits, numberAt_toDigits,
      wholeNumber_toDigits hmax]
    rfl
  | negSucc n =>
    have hmax : n + 1 ≤ Nat.pow 2 63 := by
      have hpow : Nat.pow 2 63 = 2 ^ 63 := rfl
      rw [Int.negSucc_eq] at hlow
      omega
    have hskip : skipBlanks ('-' :: Nat.toDigits 10 (n + 1)) = '-' :: Nat.toDigits 10 (n + 1) :=
      rfl
    have hwhole := wholeNumber_toDigits_neg (Nat.succ_ne_zero n) hmax
    refine ofText_of_valueAt [] ?_ rfl
    rw [toList_compact_negSucc]
    simp only [valueAt, hskip, numberAt_toDigits, hwhole, ofJson]
    rfl

end Json

namespace Reading

/-! ### The numbers of a text -/

mutual

/-- The numbers in a reading, in order, without those that there is a complaint about. -/
def numbers : Reading → List JsonNumber
  | number (.ok n) => [n]
  | array items _ => itemNumbers items
  | object members _ => memberNumbers members
  | _ => []

def itemNumbers : List Reading → List JsonNumber
  | [] => []
  | v :: vs => numbers v ++ itemNumbers vs

def memberNumbers : List (Except Complaint String × Reading) → List JsonNumber
  | [] => []
  | (_, v) :: ms => numbers v ++ memberNumbers ms

end

lemma itemNumbers_eq_flatMap (vs : List Reading) : itemNumbers vs = vs.flatMap numbers := by
  induction vs with
  | nil => rfl
  | cons v vs ih => rw [itemNumbers, ih, List.flatMap_cons]

lemma memberNumbers_eq_flatMap (ms : List (Except Complaint String × Reading)) :
    memberNumbers ms = ms.flatMap fun m => numbers m.2 := by
  induction ms with
  | nil => rfl
  | cons m ms ih => rw [memberNumbers, ih, List.flatMap_cons]

/-- Reading digits never passes the largest whole number. -/
lemma accumulate_le {start : ℕ} (hstart : start ≤ maxWhole) (digits : List Char) :
    (accumulate digits start).1 ≤ maxWhole := by
  induction digits generalizing start with
  | nil => exact hstart
  | cons c digits ih =>
    rw [accumulate]
    split
    · exact hstart
    · next hsmall => exact ih (Nat.le_of_not_lt hsmall)

/-- A number read as a real one is in range. -/
lemma realNumber_inRange {negative : Bool} {whole fraction : List Char} {exponent : ℤ}
    {n : JsonNumber} (h : realNumber negative whole fraction exponent = .ok n) : n.InRange := by
  unfold realNumber at h
  dsimp only at h
  generalize scaled _ _ _ = r at h
  cases r with
  | error c => cases h
  | ok x =>
    cases h
    trivial

/-- A number read from its digits is in range. -/
lemma wholeNumber_inRange {negative : Bool} {digits : List Char} {n : JsonNumber}
    (h : wholeNumber negative digits = .ok n) : n.InRange := by
  have hmax : (accumulate digits 0).1 ≤ maxWhole := accumulate_le (Nat.zero_le _) digits
  have hpow : maxWhole = 2 ^ 64 - 1 := rfl
  unfold wholeNumber at h
  dsimp only at h
  split_ifs at h with hleft hsign hsmall
  · exact realNumber_inRange h
  · cases h
    constructor <;> omega
  · cases h
    trivial
  · cases h
    simp only [Bool.or_eq_true, decide_eq_true_eq, not_or, Nat.not_lt] at hsmall
    have hpow : Nat.pow 2 63 = 2 ^ 63 := rfl
    constructor <;> omega

/-- A reading whose numbers all lie in the range of those that a text can hold. -/
def InRange (v : Reading) : Prop :=
  ∀ n ∈ v.numbers, n.InRange

lemma inRange_of_numbers_eq_nil {v : Reading} (h : v.numbers = []) : InRange v := by
  rw [InRange, h]
  exact nofun

lemma inRange_array_iff {vs : List Reading} {fault : Option Fault} :
    InRange (.array vs fault) ↔ ∀ v ∈ vs, InRange v := by
  rw [InRange, numbers, itemNumbers_eq_flatMap, List.forall_mem_flatMap]
  rfl

lemma inRange_object_iff {ms : List (Except Complaint String × Reading)} {fault : Option Fault} :
    InRange (.object ms fault) ↔ ∀ m ∈ ms, InRange m.2 := by
  rw [InRange, numbers, memberNumbers_eq_flatMap, List.forall_mem_flatMap]
  rfl

/-- A number is in range unless it was read as one that is not. -/
lemma inRange_number {e : Except Complaint JsonNumber} (h : ∀ n, e = .ok n → n.InRange) :
    InRange (.number e) := by
  intro n hn
  cases e with
  | error c => cases hn
  | ok m =>
    obtain rfl := List.mem_singleton.mp hn
    exact h _ rfl

/-- What is read behind the fraction is in range. -/
lemma fractionTail_inRange (negative : Bool) (digits fraction rest : List Char) :
    InRange (fractionTail negative digits fraction rest).1 := by
  unfold fractionTail
  split
  · split
    · exact nofun
    · exact inRange_number fun n => realNumber_inRange
  · split
    · exact nofun
    · exact inRange_number fun n => realNumber_inRange
  · exact inRange_number fun n => realNumber_inRange

/-- What is read behind the whole part is in range. -/
lemma wholeTail_inRange (negative : Bool) (digits rest : List Char) :
    InRange (wholeTail negative digits rest).1 := by
  unfold wholeTail
  split
  · dsimp only
    split
    · split
      · exact nofun
      · exact nofun
    · exact fractionTail_inRange _ _ _ _
  · exact fractionTail_inRange _ _ _ _
  · exact fractionTail_inRange _ _ _ _
  · exact inRange_number fun n => wholeNumber_inRange

/-- What is read at a number is in range. -/
lemma numberAt_inRange (negative : Bool) (text : List Char) :
    InRange (numberAt negative text).1 := by
  unfold numberAt
  split
  · split
    · exact nofun
    · exact nofun
  · exact nofun
  · exact wholeTail_inRange _ _ _

lemma wordTail_inRange {word : List Char} {value : Reading} (hvalue : InRange value)
    (text : List Char) : InRange (wordTail word value text).1 := by
  induction word generalizing text with
  | nil => exact hvalue
  | cons w word ih =>
    cases text with
    | nil => exact inRange_of_numbers_eq_nil rfl
    | cons c text =>
      rw [wordTail]
      split
      · exact ih text
      · exact inRange_of_numbers_eq_nil rfl

section Next

variable {fuel : ℕ}

/-- An item and those behind it lie in range if values and items do. -/
lemma next_item_inRange (hvalue : ∀ text, InRange (valueAt fuel text).1)
    (hitems : ∀ first text, ∀ v ∈ (itemsAt fuel first text).1, InRange v) (text : List Char) :
    ∀ v ∈ (match valueAt fuel text with
      | (v, none) => ([v], none, none)
      | (v, some rest) =>
        let (vs, fault, rest) := itemsAt fuel false rest
        (v :: vs, fault, rest)).1, InRange v := by
  have hfirst := hvalue text
  split
  · next v hread =>
    rw [hread] at hfirst
    exact List.forall_mem_singleton.mpr hfirst
  · next v rest hread =>
    rw [hread] at hfirst
    exact List.forall_mem_cons.mpr ⟨hfirst, hitems false rest⟩

/-- A member and those behind it lie in range if values and members do. -/
lemma next_member_inRange (hvalue : ∀ text, InRange (valueAt fuel text).1)
    (hmembers : ∀ first text, ∀ m ∈ (membersAt fuel first text).1, InRange m.2)
    (text : List Char) :
    ∀ m ∈ (match stringTail (text.length + 1) text (.ok []) with
      | .error fault => ([], some fault, none)
      | .ok (key, rest) =>
        match skipBlanks rest with
        | ':' :: rest =>
          match valueAt fuel rest with
          | (v, none) => ([(key, v)], none, none)
          | (v, some rest) =>
            let (ms, fault, rest) := membersAt fuel false rest
            ((key, v) :: ms, fault, rest)
        | [] => ([(key, .unreached .eofObject)], none, none)
        | _ => ([(key, .unreached .expectedColon)], none, none)).1, InRange m.2 := by
  split
  · exact nofun
  · split
    -- Behind the key comes a colon and a value, or a fault, which has no numbers.
    · next behind _ =>
      have hfirst := hvalue behind
      split
      · next v hread =>
        rw [hread] at hfirst
        exact List.forall_mem_singleton.mpr hfirst
      · next v rest hread =>
        rw [hread] at hfirst
        exact List.forall_mem_cons.mpr ⟨hfirst, hmembers false rest⟩
    · exact List.forall_mem_singleton.mpr (inRange_of_numbers_eq_nil rfl)
    · exact List.forall_mem_singleton.mpr (inRange_of_numbers_eq_nil rfl)

end Next

/-- Whatever a text says, the numbers in it lie in range. -/
theorem inRange_within (fuel : ℕ) :
    (∀ text, InRange (valueAt fuel text).1)
      ∧ (∀ first text, ∀ v ∈ (itemsAt fuel first text).1, InRange v)
      ∧ ∀ first text, ∀ m ∈ (membersAt fuel first text).1, InRange m.2 := by
  induction fuel with
  | zero => exact ⟨fun _ => inRange_of_numbers_eq_nil rfl, fun _ _ => List.forall_mem_nil _,
      fun _ _ => List.forall_mem_nil _⟩
  | succ fuel ih =>
    obtain ⟨hvalue, hitems, hmembers⟩ := ih
    -- the three readers call each other with less fuel
    refine ⟨fun text => ?_, fun first text => ?_, fun first text => ?_⟩
    · rw [valueAt]
      split
      · exact inRange_of_numbers_eq_nil rfl
      · exact wordTail_inRange (inRange_of_numbers_eq_nil rfl) _
      · exact wordTail_inRange (inRange_of_numbers_eq_nil rfl) _
      · exact wordTail_inRange (inRange_of_numbers_eq_nil rfl) _
      · split
        · exact inRange_of_numbers_eq_nil rfl
        · exact inRange_of_numbers_eq_nil rfl
      · exact numberAt_inRange _ _
      · exact inRange_array_iff.mpr (hitems _ _)
      · exact inRange_object_iff.mpr (hmembers _ _)
      · split
        · exact numberAt_inRange _ _
        · exact inRange_of_numbers_eq_nil rfl
    · rw [itemsAt]
      dsimp only
      split
      · exact List.forall_mem_nil _
      · exact List.forall_mem_nil _
      · split_ifs
        · exact next_item_inRange hvalue hitems _
        · split
          · exact List.forall_mem_nil _
          · exact List.forall_mem_nil _
          · exact next_item_inRange hvalue hitems _
        · exact List.forall_mem_nil _
    · rw [membersAt]
      dsimp only
      split
      · exact List.forall_mem_nil _
      · exact List.forall_mem_nil _
      · split
        · exact next_member_inRange hvalue hmembers _
        · exact List.forall_mem_nil _
      · split_ifs
        · exact List.forall_mem_nil _
        · split
          · exact next_member_inRange hvalue hmembers _
          · exact List.forall_mem_nil _
          · exact List.forall_mem_nil _
          · exact List.forall_mem_nil _
        · exact List.forall_mem_nil _

/-- The whole numbers in a text are those of 64 bits. -/
theorem inRange_ofText (text : String) : InRange (ofText text).value := by
  have hvalue := (inRange_within (2 * text.toList.length + 2)).1 text.toList
  unfold ofText
  dsimp only
  split
  · next hread => rwa [hread] at hvalue
  · next hread => rwa [hread] at hvalue

end Reading

end Restyle
