import Mathlib.Data.List.TakeWhile
import Restyle.Number.Read
import Restyle.Number.Shortest
import Restyle.Proofs.Number.Rounding

/-!
A number is read again from its plain text.

* `Decimal.value`: the rational number that a decimal stands for; it does not change when zeros are
  dropped;
* `nearest_shortest`: the shortest decimal of a number is nearest to that number;
* `positional_cases`: the text of a decimal without exponent is a row of digits, or two of them with
  a point between;
* `ofUnsigned?_plain`: what is printed of a canonical number is read as the same number;
* `ofUnsigned?_again`: so is what is printed of any finite number that was read.
-/

namespace Restyle

/-- The rational number that a decimal stands for. -/
def Decimal.value (d : Decimal) : ℚ :=
  d.digits * 10 ^ d.exponent

namespace Decimal

lemma value_trimWithin (fuel : ℕ) (d : Decimal) : (trimWithin fuel d).value = d.value := by
  induction fuel generalizing d with
  | zero => rfl
  | succ fuel ih =>
    rw [trimWithin]
    split
    · next h =>
      simp only [Bool.and_eq_true, decide_eq_true_eq] at h
      have hdigits : d.digits = d.digits / 10 * 10 := by omega
      have hcast : (d.digits : ℚ) = (d.digits / 10 : ℕ) * 10 := by exact_mod_cast hdigits
      rw [ih, value, value, hcast, zpow_add_one₀ (by norm_num)]
      ring
    · rfl

lemma value_trim (d : Decimal) : d.trim.value = d.value :=
  value_trimWithin _ d

end Decimal

namespace Binary64

open Decimal

/-! ### The shortest decimal -/

section Shortest

variable {m n d : ℕ} {e : ℤ} {x : Binary64}

/-- The quotient of a finite number has its value, over a power of two. -/
lemma exists_ratio (m : ℕ) (e : ℤ) :
    ∃ k, (ratio m e).2 = 2 ^ k ∧ ((ratio m e).1 : ℚ) / 2 ^ k = m * 2 ^ e := by
  obtain he | he := le_or_gt 0 e
  · obtain ⟨k, rfl⟩ := Int.eq_ofNat_of_zero_le he
    refine ⟨0, ?_, ?_⟩
    · rw [ratio, if_pos he]
      rfl
    · rw [ratio, if_pos he, pow_zero, div_one]
      exact_mod_cast rfl
  · obtain ⟨k, rfl⟩ : ∃ k : ℕ, e = -(k : ℤ) := ⟨e.natAbs, by omega⟩
    refine ⟨k, ?_, ?_⟩
    · rw [ratio, if_neg (by omega), neg_neg]
      rfl
    · rw [ratio, if_neg (by omega), zpow_neg, zpow_natCast, div_eq_mul_inv]

/-- In full, a quotient by a power of two is exact. -/
lemma value_inFull (n k : ℕ) : (inFull n (2 ^ k)).value = n / 2 ^ k := by
  have hten : (10 : ℚ) ^ k = 5 ^ k * 2 ^ k := by
    rw [← mul_pow]
    norm_num
  have hfive : (5 : ℚ) ^ k ≠ 0 := by positivity
  rw [Decimal.value, inFull, Nat.log2_two_pow, zpow_neg, zpow_natCast, hten, ← div_eq_mul_inv]
  rw [Nat.pow_eq, mul_comm ((5 : ℚ) ^ k)]
  push_cast
  exact mul_div_mul_right _ _ hfive

/-- Digits are taken only if the number is the nearest one to them. -/
lemma nearest_of_withDigits {count : ℕ} {a : Decimal} (h : withDigits x n d count = some a) :
    nearest false a.value = x := by
  unfold withDigits at h
  dsimp only at h
  obtain ⟨digits, hfind, rfl⟩ := Option.map_eq_some_iff.mp h
  have hback := List.find?_some hfind
  rw [Decimal.value, ← ofDecimal_eq_nearest]
  exact eq_of_beq hback

/-- The shortest decimal of a number reads back as that number. -/
theorem nearest_shortest (h : Canonical m e) :
    nearest false (shortest m e).value = finite false m e := by
  obtain ⟨k, hden, hvalue⟩ := exists_ratio m e
  unfold shortest
  dsimp only
  rw [value_trim]
  cases hfound : (List.range 17).findSome? fun n =>
      withDigits (finite false m e) (ratio m e).1 (ratio m e).2 (n + 1) with
  | none =>
    rw [Option.getD_none, hden, value_inFull, hvalue]
    exact nearest_of_canonical h false
  | some a =>
    obtain ⟨n, -, hdigits⟩ := List.exists_of_findSome?_eq_some hfound
    exact nearest_of_withDigits hdigits

end Shortest

/-! ### Reading digits -/

section Digits

variable {ds whole fraction : List Char}

lemma digitsValue_eq (ds : List Char) : digitsValue ds = Nat.ofDigitChars 10 ds 0 := by
  have hstep : (fun n (c : Char) => n * 10 + (c.toNat - 48))
      = fun n (c : Char) => 10 * n + (c.toNat - '0'.toNat) := by
    funext n c
    rw [mul_comm]
    rfl
  rw [digitsValue, hstep]
  rfl

lemma isDigit_of_mem_toDigits {n : ℕ} {c : Char} (hc : c ∈ Nat.toDigits 10 n) :
    isDigit c = true := by
  have h := Nat.isDigit_of_mem_toDigits (by decide) (by decide) hc
  rw [← h]
  simp only [isDigit, Char.isDigit, Char.le_def]

lemma isDigit_of_mem_replicate {n : ℕ} {c : Char} (hc : c ∈ List.replicate n '0') :
    isDigit c = true := by
  obtain rfl := List.eq_of_mem_replicate hc
  rfl

/-- Digits alone are read as the number nearest to them. -/
lemma ofUnsigned?_whole (hne : ds ≠ []) (hds : ∀ c ∈ ds, isDigit c = true) :
    ofUnsigned? ds = some (nearest false (digitsValue ds)) := by
  have htake : ds.takeWhile isDigit = ds := List.takeWhile_eq_self_iff.mpr hds
  have hsplit : splitDecimal ds = some (ds, [], []) := by
    unfold splitDecimal
    simp only [htake, List.drop_length, List.isEmpty_iff, hne, if_false]
  rw [ofUnsigned?, hsplit]
  simp only [ofDigits, List.append_nil, ofDecimal_eq_nearest]
  simp

/-- A text of digits around a point is split at the point. -/
lemma splitDecimal_point (hne : whole ++ fraction ≠ []) (hwhole : ∀ c ∈ whole, isDigit c = true)
    (hfraction : ∀ c ∈ fraction, isDigit c = true) :
    splitDecimal (whole ++ '.' :: fraction) = some (whole, fraction, []) := by
  have htake : (whole ++ '.' :: fraction).takeWhile isDigit = whole := by
    rw [List.takeWhile_append_of_pos hwhole]
    exact List.append_nil whole
  have hrest : fraction.takeWhile isDigit = fraction := List.takeWhile_eq_self_iff.mpr hfraction
  have hsome : (whole.isEmpty && fraction.isEmpty) = false := by
    rwa [← Bool.not_eq_true, Bool.and_eq_true, List.isEmpty_iff, List.isEmpty_iff,
      ← List.append_eq_nil_iff]
  unfold splitDecimal
  simp only [htake, List.drop_left, hrest, hsome, List.drop_length, Bool.false_eq_true, if_false]

/-- Digits around a point are read as the number nearest to them. -/
lemma ofUnsigned?_point (hne : whole ++ fraction ≠ []) (hwhole : ∀ c ∈ whole, isDigit c = true)
    (hfraction : ∀ c ∈ fraction, isDigit c = true) :
    ofUnsigned? (whole ++ '.' :: fraction)
      = some (nearest false (digitsValue (whole ++ fraction) * 10 ^ (-(fraction.length : ℤ)))) := by
  rw [ofUnsigned?, splitDecimal_point hne hwhole hfraction]
  simp only [ofDigits, ofDecimal_eq_nearest, zero_sub]

end Digits

/-! ### The plain text -/

/-- A number that is neither infinite nor the one that is no number. -/
def IsFinite : Binary64 → Prop
  | finite .. => True
  | _ => False

instance : DecidablePred IsFinite
  | finite .. => .isTrue trivial
  | nan | infinity _ => .isFalse id

/-- The characters of a text without exponent. -/
def IsPlain (text : List Char) : Prop :=
  text ≠ [] ∧ ∀ c ∈ text, isDigit c = true ∨ c = '.'

lemma toList_text (d : Decimal) : d.text.toList = Nat.toDigits 10 d.digits :=
  String.toList_ofList

lemma toList_zeros (n : ℕ) : (zeros n).toList = List.replicate n '0' :=
  String.toList_ofList

/-- The text of a decimal without exponent: the point stands behind as many digits as the exponent
says. -/
lemma positional_cases (d : Decimal) :
    (∃ ds, d.positional.toList = ds ∧ ds ≠ [] ∧ (∀ c ∈ ds, isDigit c = true)
        ∧ (digitsValue ds : ℚ) = d.value)
      ∨ ∃ whole fraction, d.positional.toList = whole ++ '.' :: fraction ∧ whole ≠ []
        ∧ (∀ c ∈ whole, isDigit c = true) ∧ (∀ c ∈ fraction, isDigit c = true)
        ∧ digitsValue (whole ++ fraction) = d.digits ∧ -(fraction.length : ℤ) = d.exponent := by
  have hdigits : Nat.ofDigitChars 10 (Nat.toDigits 10 d.digits) 0 = d.digits :=
    Nat.ofDigitChars_toDigits (by decide) (by decide)
  have hpoint : d.point = (Nat.toDigits 10 d.digits).length + d.exponent := by
    rw [Decimal.point, ← String.length_toList, toList_text]
  unfold positional
  dsimp only
  split_ifs with he hp
  · -- zeros behind the digits
    obtain ⟨k, hk⟩ := Int.eq_ofNat_of_zero_le he
    refine .inl ⟨_, rfl, ?_, ?_, ?_⟩
    · rw [String.toList_append, toList_text]
      exact List.append_ne_nil_of_left_ne_nil Nat.toDigits_ne_nil _
    · rw [String.toList_append, toList_text, toList_zeros]
      exact fun c hc => (List.mem_append.mp hc).elim isDigit_of_mem_toDigits
        isDigit_of_mem_replicate
    · rw [String.toList_append, toList_text, toList_zeros, digitsValue_eq,
        Nat.ofDigitChars_append, hdigits, Nat.ofDigitChars_replicate_zero, Decimal.value, hk,
        Int.toNat_natCast, zpow_natCast]
      push_cast
      ring
  · -- zeros between the point and the digits
    refine .inr ⟨['0'], List.replicate (-d.point).toNat '0' ++ Nat.toDigits 10 d.digits, ?_,
      List.cons_ne_nil _ _, List.forall_mem_singleton.mpr rfl, ?_, ?_, ?_⟩
    · rw [String.toList_append, String.toList_append, toList_text, toList_zeros]
      rfl
    · exact fun c hc => (List.mem_append.mp hc).elim isDigit_of_mem_replicate
        isDigit_of_mem_toDigits
    · rw [digitsValue_eq, Nat.ofDigitChars_append, Nat.ofDigitChars_append,
        Nat.ofDigitChars_replicate_zero]
      exact hdigits
    · rw [List.length_append, List.length_replicate]
      omega
  · -- the point among the digits
    refine .inr ⟨(Nat.toDigits 10 d.digits).take d.point.toNat,
      (Nat.toDigits 10 d.digits).drop d.point.toNat, ?_, ?_, ?_, ?_, ?_, ?_⟩
    · rw [String.toList_append, String.toList_append, String.toList_ofList, String.toList_ofList,
        String.toList_ofList, toList_text, List.append_assoc]
      rfl
    · rw [Ne, List.take_eq_nil_iff, not_or]
      exact ⟨by omega, Nat.toDigits_ne_nil⟩
    · exact fun c hc => isDigit_of_mem_toDigits (List.mem_of_mem_take hc)
    · exact fun c hc => isDigit_of_mem_toDigits (List.mem_of_mem_drop hc)
    · rw [List.take_append_drop, digitsValue_eq, hdigits]
    · rw [List.length_drop]
      omega

/-- A decimal is read from its text without exponent. -/
theorem ofUnsigned?_positional (d : Decimal) :
    ofUnsigned? d.positional.toList = some (nearest false d.value) := by
  obtain ⟨ds, htext, hne, hds, hvalue⟩ | ⟨whole, fraction, htext, hne, hwhole, hfraction, hvalue,
    hlength⟩ := positional_cases d
  · rw [htext, ofUnsigned?_whole hne hds, hvalue]
  · have hsome := List.append_ne_nil_of_left_ne_nil hne fraction
    rw [htext, ofUnsigned?_point hsome hwhole hfraction, hvalue, hlength, Decimal.value]

/-- A decimal is written with digits and at most one point. -/
lemma isPlain_positional (d : Decimal) : IsPlain d.positional.toList := by
  obtain ⟨ds, htext, hne, hds, -⟩ | ⟨whole, fraction, htext, hne, hwhole, hfraction, -, -⟩ :=
    positional_cases d
  · rw [htext]
    exact ⟨hne, fun c hc => .inl (hds c hc)⟩
  · rw [htext]
    refine ⟨List.append_ne_nil_of_left_ne_nil hne _, fun c hc => ?_⟩
    obtain hc | hc := List.mem_append.mp hc
    · exact .inl (hwhole c hc)
    · obtain rfl | hc := List.mem_cons.mp hc
      · exact .inr rfl
      · exact .inl (hfraction c hc)

section Plain

variable {m : ℕ} {e : ℤ}

/-- Zero is written as one digit, and every other number with its shortest digits. -/
lemma toList_plain (m : ℕ) (e : ℤ) :
    (plain (finite false m e)).toList
      = if m = 0 then ['0'] else (shortest m e).positional.toList := by
  rw [plain]
  simp only [Bool.false_eq_true, if_false, String.empty_append]
  split
  all_goals rfl

/-- What is printed of a number is read as the same number. -/
theorem ofUnsigned?_plain (h : Canonical m e) :
    ofUnsigned? (plain (finite false m e)).toList = some (finite false m e) := by
  rw [toList_plain]
  split
  · next hm =>
    subst hm
    obtain hfull | rfl := h.full
    · cases hfull
    · rfl
  · rw [ofUnsigned?_positional, nearest_shortest h]

lemma isPlain_plain (m : ℕ) (e : ℤ) : IsPlain (plain (finite false m e)).toList := by
  rw [toList_plain]
  split
  · exact ⟨List.cons_ne_nil _ _, List.forall_mem_singleton.mpr (.inl rfl)⟩
  · exact isPlain_positional _

/-- What is read from a text without sign is a number nearest to a rational one. -/
lemma exists_nearest_of_ofUnsigned? {text : List Char} {x : Binary64}
    (h : ofUnsigned? text = some x) : ∃ q, x = nearest false q := by
  unfold ofUnsigned? at h
  split at h
  · cases h
    exact ⟨_, ofDecimal_eq_nearest _ _ _⟩
  · cases h

/-- What is read from a text without sign and is finite is read again as it is printed. -/
theorem ofUnsigned?_again {text : List Char} {x : Binary64} (h : ofUnsigned? text = some x)
    (hx : x.IsFinite) : ofUnsigned? x.plain.toList = some x ∧ IsPlain x.plain.toList := by
  obtain ⟨q, hq⟩ := exists_nearest_of_ofUnsigned? h
  cases x with
  | finite negative m e =>
    obtain ⟨rfl, hcanonical⟩ := canonical_of_nearest hq.symm
    exact ⟨ofUnsigned?_plain hcanonical, isPlain_plain m e⟩
  | nan | infinity negative => exact hx.elim

end Plain

end Binary64

end Restyle
