import Mathlib.Data.Int.Log
import Mathlib.Data.Rat.Lemmas
import Mathlib.Tactic
import Restyle.Number.Binary64

/-!
Rounding to the nearest number.

* `exponentOf_eq`: the exponent at which a quotient is rounded follows from its logarithm;
* `ofRatio_eq_nearest`, `ofDecimal_eq_nearest`: what is rounded is a rational number, in whatever
  way it is written as a quotient or as a decimal;
* `Canonical`: the mantissa has its full length, unless the exponent is the smallest one;
* `canonical_of_nearest`: what is rounded to is canonical;
* `nearest_of_canonical`: a canonical number is the one nearest to itself.
-/

namespace Restyle.Binary64

/-- The number nearest to the absolute value of a rational one, with the sign given. -/
def nearest (negative : Bool) (q : ℚ) : Binary64 :=
  ofRatio negative q.num.natAbs q.den

/-- A finite number as it is written in only one way: the mantissa has its full length, unless the
exponent is the smallest one. -/
structure Canonical (m : ℕ) (e : ℤ) : Prop where
  lt_limit : m < mantissaLimit
  min_le : minExponent ≤ e
  le_max : e ≤ maxExponent
  full : 2 ^ 52 ≤ m ∨ e = minExponent

lemma mantissaLimit_eq : mantissaLimit = 2 ^ 53 := rfl

/-! ### Rounded quotients -/

section Quotient

variable {a k n d : ℕ} {e : ℤ}

/-- A quotient in larger terms is rounded to the same number. -/
lemma roundDiv_mul_left (hk : 0 < k) (n d : ℕ) : roundDiv (k * n) (k * d) = roundDiv n d := by
  have hbelow : 2 * (k * (n % d)) < k * d ↔ 2 * (n % d) < d := by
    rw [Nat.mul_left_comm, Nat.mul_lt_mul_left hk]
  have habove : k * d < 2 * (k * (n % d)) ↔ d < 2 * (n % d) := by
    rw [Nat.mul_left_comm, Nat.mul_lt_mul_left hk]
  simp only [roundDiv, Nat.mul_div_mul_left n d hk, Nat.mul_mod_mul_left, hbelow, habove]

/-- A whole number that is not above the quotient is not above the rounded one. -/
lemma le_roundDiv (hd : 0 < d) (h : a * d ≤ n) : a ≤ roundDiv n d := by
  have hq : a ≤ n / d := (Nat.le_div_iff_mul_le hd).mpr h
  unfold roundDiv
  dsimp only
  split_ifs
  all_goals omega

/-- A whole number that is not below the quotient is not below the rounded one. -/
lemma roundDiv_le (hd : 0 < d) (h : n ≤ a * d) : roundDiv n d ≤ a := by
  obtain h | rfl := h.lt_or_eq
  · have hq : n / d < a := (Nat.div_lt_iff_lt_mul hd).mpr h
    unfold roundDiv
    dsimp only
    split_ifs
    all_goals omega
  · have hmod : a * d % d = 0 := Nat.mul_mod_left a d
    unfold roundDiv
    simp only [hmod, mul_zero, hd, if_true, Nat.mul_div_cancel a hd, le_refl]

lemma scaledDiv_mul_left (hk : 0 < k) (n d : ℕ) (e : ℤ) :
    scaledDiv (k * n) (k * d) e = scaledDiv n d e := by
  simp only [scaledDiv, mul_assoc, roundDiv_mul_left hk]

/-- Scaling by a power of two is rounding the quotient by that power. -/
lemma exists_roundDiv_eq_scaledDiv (n : ℕ) (hd : 0 < d) (e : ℤ) :
    ∃ n' d' : ℕ, 0 < d' ∧ scaledDiv n d e = roundDiv n' d' ∧ (n' : ℚ) / d' = n / d / 2 ^ e := by
  obtain he | he := le_or_gt 0 e
  · obtain ⟨k, rfl⟩ := Int.eq_ofNat_of_zero_le he
    refine ⟨n, d * 2 ^ k, by positivity, ?_, ?_⟩
    · rw [scaledDiv, if_pos he]
      rfl
    · push_cast
      rw [zpow_natCast, div_div]
  · obtain ⟨k, rfl⟩ : ∃ k : ℕ, e = -(k : ℤ) := ⟨e.natAbs, by omega⟩
    refine ⟨n * 2 ^ k, d, hd, ?_, ?_⟩
    · rw [scaledDiv, if_neg (by omega), neg_neg, Int.toNat_natCast]
      rfl
    · push_cast
      rw [zpow_neg, zpow_natCast, div_inv_eq_mul, div_mul_eq_mul_div]

/-- A whole number of units that is not above the quotient is not above its rounding. -/
lemma le_scaledDiv (hd : 0 < d) (h : (a : ℚ) * 2 ^ e ≤ n / d) : a ≤ scaledDiv n d e := by
  obtain ⟨n', d', hd', heq, hquotient⟩ := exists_roundDiv_eq_scaledDiv n hd e
  have hle : (a : ℚ) ≤ n' / d' := by
    rwa [hquotient, le_div_iff₀ (by positivity)]
  rw [heq]
  refine le_roundDiv hd' ?_
  rw [le_div_iff₀ (by positivity)] at hle
  exact_mod_cast hle

/-- A whole number of units that is not below the quotient is not below its rounding. -/
lemma scaledDiv_le (hd : 0 < d) (h : (n : ℚ) / d ≤ a * 2 ^ e) : scaledDiv n d e ≤ a := by
  obtain ⟨n', d', hd', heq, hquotient⟩ := exists_roundDiv_eq_scaledDiv n hd e
  have hle : (n' : ℚ) / d' ≤ a := by
    rwa [hquotient, div_le_iff₀ (by positivity)]
  rw [heq]
  refine roundDiv_le hd' ?_
  rw [div_le_iff₀ (by positivity)] at hle
  exact_mod_cast hle

/-- A multiple of the power is not rounded. -/
lemma scaledDiv_eq (hd : 0 < d) (h : (n : ℚ) / d = a * 2 ^ e) : scaledDiv n d e = a :=
  (scaledDiv_le hd h.le).antisymm (le_scaledDiv hd h.ge)

/-! ### The exponent -/

/-- The comparison with a power of two, without fractions. -/
lemma lt_zpow_iff (n : ℕ) (hd : 0 < d) (g : ℤ) :
    (if 0 ≤ g then decide (n < d * Nat.pow 2 g.toNat)
      else decide (n * Nat.pow 2 (-g).toNat < d)) = true ↔ (n : ℚ) / d < 2 ^ g := by
  have hd' : (0 : ℚ) < d := by exact_mod_cast hd
  rw [div_lt_iff₀ hd']
  obtain hg | hg := le_or_gt 0 g
  · obtain ⟨k, rfl⟩ := Int.eq_ofNat_of_zero_le hg
    rw [if_pos hg, decide_eq_true_eq, zpow_natCast, mul_comm d]
    exact_mod_cast Iff.rfl
  · obtain ⟨k, rfl⟩ : ∃ k : ℕ, g = -(k : ℤ) := ⟨g.natAbs, by omega⟩
    rw [if_neg (by omega), decide_eq_true_eq, neg_neg, Int.toNat_natCast, zpow_neg, zpow_natCast,
      inv_mul_eq_div, lt_div_iff₀ (by positivity)]
    exact_mod_cast Iff.rfl

lemma le_log_iff {q : ℚ} (hq : 0 < q) (g : ℤ) : g ≤ Int.log 2 q ↔ (2 : ℚ) ^ g ≤ q := by
  have h := Int.zpow_le_iff_le_log (show 1 < 2 by decide) (x := g) hq
  exact_mod_cast h.symm

lemma log_lt_iff {q : ℚ} (hq : 0 < q) (g : ℤ) : Int.log 2 q < g ↔ q < (2 : ℚ) ^ g := by
  have h := Int.lt_zpow_iff_log_lt (show 1 < 2 by decide) (x := g) hq
  exact_mod_cast h.symm

lemma zpow_log2_le (hn : n ≠ 0) : (2 : ℚ) ^ (n.log2 : ℤ) ≤ n := by
  rw [zpow_natCast]
  exact_mod_cast Nat.log2_self_le hn

lemma lt_zpow_log2 (n : ℕ) : (n : ℚ) < 2 ^ ((n.log2 : ℤ) + 1) := by
  have h : n < 2 ^ (n.log2 + 1) := Nat.lt_log2_self
  exact_mod_cast h

/-- The exponent of a quotient leaves it a mantissa of full length, unless it would be too small. -/
theorem exponentOf_eq (hn : n ≠ 0) (hd : d ≠ 0) :
    exponentOf n d = max minExponent (Int.log 2 ((n : ℚ) / d) - 52) := by
  have hn' : (0 : ℚ) < n := by exact_mod_cast Nat.pos_of_ne_zero hn
  have hd' : (0 : ℚ) < d := by exact_mod_cast Nat.pos_of_ne_zero hd
  have hq : (0 : ℚ) < n / d := div_pos hn' hd'
  -- the logarithms of both numbers leave two choices for the one of the quotient
  have hlow : (2 : ℚ) ^ ((n.log2 : ℤ) - d.log2 - 1) ≤ n / d := by
    have hsplit : (n.log2 : ℤ) - d.log2 - 1 = n.log2 - (d.log2 + 1) := by ring
    rw [hsplit, zpow_sub₀ (by norm_num)]
    exact div_le_div₀ hn'.le (zpow_log2_le hn) hd' (lt_zpow_log2 d).le
  have hhigh : (n : ℚ) / d < 2 ^ ((n.log2 : ℤ) - d.log2 + 1) := by
    have hsplit : (n.log2 : ℤ) - d.log2 + 1 = n.log2 + 1 - d.log2 := by ring
    rw [hsplit, zpow_sub₀ (by norm_num)]
    exact div_lt_div₀ (lt_zpow_log2 n) (zpow_log2_le hd) (by positivity) (by positivity)
  have hle := (le_log_iff hq _).mpr hlow
  have hlt := (log_lt_iff hq _).mpr hhigh
  have hback : (n.log2 : ℤ) - d.log2 - 52 + 52 = n.log2 - d.log2 := by ring
  have hbelow := lt_zpow_iff n (Nat.pos_of_ne_zero hd) ((n.log2 : ℤ) - d.log2)
  simp only [exponentOf, hback]
  congr 1
  obtain h | h := lt_or_ge ((n : ℚ) / d) (2 ^ ((n.log2 : ℤ) - d.log2))
  · have hlog := (log_lt_iff hq _).mpr h
    rw [if_pos (hbelow.mpr h)]
    omega
  · have hlog := (le_log_iff hq _).mpr h
    rw [if_neg fun hif => absurd (hbelow.mp hif) (not_lt.mpr h)]
    omega

end Quotient

/-! ### The nearest number -/

section Nearest

variable {k n d m : ℕ} {e : ℤ} {negative : Bool}

/-- A quotient other than zero is rounded at its exponent, and once more if the mantissa
overflows. -/
lemma ofRatio_of_ne_zero (hn : n ≠ 0) (hd : d ≠ 0) (negative : Bool) :
    ofRatio negative n d =
      if scaledDiv n d (exponentOf n d) = mantissaLimit then
        if maxExponent < exponentOf n d + 1 then infinity negative
        else finite negative (mantissaLimit / 2) (exponentOf n d + 1)
      else
        if maxExponent < exponentOf n d then infinity negative
        else finite negative (scaledDiv n d (exponentOf n d)) (exponentOf n d) := by
  have hnot : (decide (n = 0) || decide (d = 0)) = false := by simp [hn, hd]
  rw [ofRatio, hnot, if_neg Bool.false_ne_true]
  dsimp only
  by_cases hlimit : scaledDiv n d (exponentOf n d) = mantissaLimit
  · simp only [hlimit, if_true]
  · simp only [hlimit, if_false]

/-- A quotient in larger terms is rounded to the same number. -/
lemma ofRatio_mul_left (hk : 0 < k) (negative : Bool) (n d : ℕ) :
    ofRatio negative (k * n) (k * d) = ofRatio negative n d := by
  obtain rfl | hn := eq_or_ne n 0
  · rfl
  obtain rfl | hd := eq_or_ne d 0
  · simp [ofRatio]
  have hk' : (k : ℚ) ≠ 0 := by exact_mod_cast hk.ne'
  have hkn : k * n ≠ 0 := Nat.mul_ne_zero hk.ne' hn
  have hkd : k * d ≠ 0 := Nat.mul_ne_zero hk.ne' hd
  have hexponent : exponentOf (k * n) (k * d) = exponentOf n d := by
    rw [exponentOf_eq hkn hkd, exponentOf_eq hn hd, Nat.cast_mul, Nat.cast_mul,
      mul_div_mul_left _ _ hk']
  simp only [ofRatio_of_ne_zero hkn hkd, ofRatio_of_ne_zero hn hd, hexponent,
    scaledDiv_mul_left hk]

/-- Only the value of a quotient counts. -/
theorem ofRatio_eq_nearest (negative : Bool) (n : ℕ) (hd : d ≠ 0) :
    ofRatio negative n d = nearest negative ((n : ℚ) / d) := by
  have hd' : (d : ℤ) ≠ 0 := by exact_mod_cast hd
  obtain ⟨c, hnum, hden⟩ := Rat.exists_eq_mul_div_num_and_eq_mul_div_den (n : ℤ) hd'
  simp only [Int.cast_natCast] at hnum hden
  generalize (n : ℚ) / d = q at hnum hden
  have hpos : 0 < (d : ℤ) := by omega
  have hc : 0 < c := by
    rw [hden] at hpos
    exact pos_of_mul_pos_left hpos (Int.natCast_nonneg _)
  have hn : n = c.natAbs * q.num.natAbs := by rw [← Int.natAbs_mul, ← hnum, Int.natAbs_natCast]
  have hd : d = c.natAbs * q.den := by
    rw [← Int.natAbs_natCast q.den, ← Int.natAbs_mul, ← hden, Int.natAbs_natCast]
  rw [hn, hd, ofRatio_mul_left (Int.natAbs_pos.mpr hc.ne'), nearest]

/-- A rational number from zero on is a quotient of two whole numbers. -/
lemma exists_quotient {q : ℚ} (hq : 0 ≤ q) :
    ∃ n d : ℕ, d ≠ 0 ∧ (n : ℚ) / d = q := by
  refine ⟨q.num.natAbs, q.den, q.den_nz, ?_⟩
  have hnum : ((q.num.natAbs : ℕ) : ℚ) = q.num := by
    rw [← Int.cast_natCast, Int.natAbs_of_nonneg (Rat.num_nonneg.mpr hq)]
  rw [hnum, Rat.num_div_den]

/-- At the exponent of a quotient its mantissa passes the limit by rounding at most. -/
lemma scaledDiv_exponentOf_le (hn : n ≠ 0) (hd : d ≠ 0) :
    scaledDiv n d (exponentOf n d) ≤ mantissaLimit := by
  refine scaledDiv_le (Nat.pos_of_ne_zero hd) ?_
  have hexponent := exponentOf_eq hn hd
  calc (n : ℚ) / d ≤ 2 ^ (Int.log 2 ((n : ℚ) / d) + 1) :=
        (Int.lt_zpow_succ_log_self (by decide) _).le
    _ ≤ 2 ^ (53 + exponentOf n d) := zpow_le_zpow_right₀ (by norm_num) (by omega)
    _ = (mantissaLimit : ℚ) * 2 ^ exponentOf n d := by
        rw [zpow_add₀ (by norm_num), mantissaLimit_eq]
        norm_num

/-- Above the smallest exponent the mantissa has its full length. -/
lemma le_scaledDiv_exponentOf (hn : n ≠ 0) (hd : d ≠ 0) (he : exponentOf n d ≠ minExponent) :
    2 ^ 52 ≤ scaledDiv n d (exponentOf n d) := by
  refine le_scaledDiv (Nat.pos_of_ne_zero hd) ?_
  have hexponent := exponentOf_eq hn hd
  have hpos : (0 : ℚ) < n / d := by positivity
  calc ((2 ^ 52 : ℕ) : ℚ) * 2 ^ exponentOf n d = 2 ^ (52 + exponentOf n d) := by
        rw [zpow_add₀ (by norm_num)]
        norm_num
    _ ≤ 2 ^ Int.log 2 ((n : ℚ) / d) := zpow_le_zpow_right₀ (by norm_num) (by omega)
    _ ≤ (n : ℚ) / d := Int.zpow_log_le_self (by decide) hpos

lemma canonical_zero : Canonical 0 minExponent :=
  ⟨by decide, le_rfl, by decide, .inr rfl⟩

lemma canonical_of_ofRatio {negative' : Bool} (h : ofRatio negative n d = finite negative' m e) :
    negative' = negative ∧ Canonical m e := by
  by_cases hzero : n = 0 ∨ d = 0
  · have h' : ofRatio negative n d = zero negative := by
      rw [ofRatio, if_pos (by simpa using hzero)]
    cases h'.symm.trans h
    exact ⟨rfl, canonical_zero⟩
  obtain ⟨hn, hd⟩ := not_or.mp hzero
  have hmin : minExponent ≤ exponentOf n d := by
    rw [exponentOf_eq hn hd]
    exact le_max_left _ _
  have hlimit := scaledDiv_exponentOf_le hn hd
  rw [ofRatio_of_ne_zero hn hd] at h
  split_ifs at h with htop hlarge hlarge
  · cases h
    exact ⟨rfl, by decide, by omega, by omega, .inl (by decide)⟩
  · cases h
    refine ⟨rfl, by omega, hmin, by omega, ?_⟩
    by_cases he : exponentOf n d = minExponent
    · exact .inr he
    · exact .inl (le_scaledDiv_exponentOf hn hd he)

/-- What is rounded to is canonical. -/
theorem canonical_of_nearest {negative' : Bool} {q : ℚ}
    (h : nearest negative q = finite negative' m e) : negative' = negative ∧ Canonical m e :=
  canonical_of_ofRatio h

lemma log_of_canonical (h : Canonical m e) (hm : m ≠ 0) :
    max minExponent (Int.log 2 ((m : ℚ) * 2 ^ e) - 52) = e := by
  have hm' : (0 : ℚ) < m := by exact_mod_cast Nat.pos_of_ne_zero hm
  have hq : (0 : ℚ) < m * 2 ^ e := by positivity
  have hhigh : (m : ℚ) * 2 ^ e < 2 ^ (53 + e) := by
    have hlt : (m : ℚ) < 2 ^ 53 := by exact_mod_cast h.lt_limit
    rw [zpow_add₀ (by norm_num)]
    exact mul_lt_mul_of_pos_right (by exact_mod_cast hlt) (by positivity)
  have hlt := (log_lt_iff hq _).mpr hhigh
  have hmin := h.min_le
  obtain hfull | he := h.full
  · have hlow : (2 : ℚ) ^ (52 + e) ≤ m * 2 ^ e := by
      have hle : (2 : ℚ) ^ 52 ≤ m := by exact_mod_cast hfull
      rw [zpow_add₀ (by norm_num)]
      exact mul_le_mul_of_nonneg_right (by exact_mod_cast hle) (by positivity)
    have hle := (le_log_iff hq _).mpr hlow
    omega
  · omega

/-- A canonical number is the one nearest to itself. -/
theorem nearest_of_canonical (h : Canonical m e) (negative : Bool) :
    nearest negative (m * 2 ^ e) = finite negative m e := by
  obtain rfl | hm := eq_or_ne m 0
  · obtain hfull | rfl := h.full
    · cases hfull
    · rw [Nat.cast_zero, zero_mul]
      rfl
  have hq : (0 : ℚ) < m * 2 ^ e := by positivity
  obtain ⟨n, d, hd, hquotient⟩ := exists_quotient hq.le
  have hn : n ≠ 0 := by
    rintro rfl
    rw [← hquotient, Nat.cast_zero, zero_div] at hq
    exact hq.false
  have he : exponentOf n d = e := by rw [exponentOf_eq hn hd, hquotient, log_of_canonical h hm]
  have hscaled : scaledDiv n d e = m := scaledDiv_eq (Nat.pos_of_ne_zero hd) hquotient
  rw [← hquotient, ← ofRatio_eq_nearest negative n hd, ofRatio_of_ne_zero hn hd, he, hscaled,
    if_neg h.lt_limit.ne, if_neg (not_lt.mpr h.le_max)]

/-! ### Decimals -/

/-- A quotient that is too large is rounded to infinity. -/
lemma ofRatio_of_large (hd : d ≠ 0) (h : (2 : ℚ) ^ (1024 : ℤ) ≤ (n : ℚ) / d)
    (negative : Bool) : ofRatio negative n d = infinity negative := by
  have hq : (0 : ℚ) < n / d := lt_of_lt_of_le (by positivity) h
  have hn : n ≠ 0 := by
    rintro rfl
    simp at hq
  have hlog := (le_log_iff hq _).mpr h
  have he : maxExponent < exponentOf n d := by
    rw [exponentOf_eq hn hd, maxExponent]
    omega
  have he' : maxExponent < exponentOf n d + 1 := he.trans (lt_add_one _)
  rw [ofRatio_of_ne_zero hn hd, if_pos he, if_pos he', ite_self]

/-- Less than half a unit is rounded to nothing. -/
lemma scaledDiv_of_small (hd : d ≠ 0) (h : (n : ℚ) / d < 2 ^ (e - 1)) : scaledDiv n d e = 0 := by
  obtain ⟨n', d', hd', heq, hquotient⟩ := exists_roundDiv_eq_scaledDiv n (Nat.pos_of_ne_zero hd) e
  have hhalf : (n' : ℚ) / d' < 1 / 2 := by
    rw [hquotient, div_lt_iff₀ (by positivity)]
    calc (n : ℚ) / d < 2 ^ (e - 1) := h
      _ = 1 / 2 * 2 ^ e := by
        rw [zpow_sub_one₀ (by norm_num)]
        ring
  rw [div_lt_div_iff₀ (by positivity) (by norm_num), one_mul] at hhalf
  have hsmall : n' * 2 < d' := by exact_mod_cast hhalf
  rw [heq, roundDiv, Nat.div_eq_of_lt (by omega), Nat.mod_eq_of_lt (by omega), if_pos (by omega)]

/-- A quotient that is too small is rounded to zero. -/
lemma ofRatio_of_small (hd : d ≠ 0) (h : (n : ℚ) / d < 2 ^ (minExponent - 1)) (negative : Bool) :
    ofRatio negative n d = zero negative := by
  obtain rfl | hn := eq_or_ne n 0
  · rfl
  have hq : (0 : ℚ) < n / d := by positivity
  have hlog := (log_lt_iff hq _).mpr h
  have he : exponentOf n d = minExponent := by
    rw [exponentOf_eq hn hd]
    omega
  rw [ofRatio_of_ne_zero hn hd, he, scaledDiv_of_small hd h]
  rfl

/-- A power of ten above the range, whatever digits stand in front. -/
lemma two_pow_le_of_large {digits k : ℕ} (hdigits : digits ≠ 0) (hk : 310 < k) :
    (2 : ℚ) ^ (1024 : ℤ) ≤ digits * 10 ^ k := by
  have hpos : (1 : ℚ) ≤ digits := by exact_mod_cast Nat.one_le_iff_ne_zero.mpr hdigits
  have hrange : 2 ^ 1024 ≤ 10 ^ 311 := by decide +kernel
  calc (2 : ℚ) ^ (1024 : ℤ) ≤ 10 ^ 311 := by exact_mod_cast hrange
    _ ≤ 10 ^ k := pow_le_pow_right₀ (by norm_num) (by omega)
    _ ≤ digits * 10 ^ k := le_mul_of_one_le_left (by positivity) hpos

/-- Digits that are divided by more than the range can hold. As ten is more than two to the third,
three binary places make up for a decimal one. -/
lemma lt_two_pow_of_small {digits k : ℕ} (hk : digits.log2 + 2000 < 3 * k) :
    (digits : ℚ) / (10 ^ k : ℕ) < 2 ^ (minExponent - 1) := by
  rw [div_lt_iff₀ (by positivity)]
  calc (digits : ℚ) < 2 ^ ((digits.log2 : ℤ) + 1) := lt_zpow_log2 digits
    _ ≤ 2 ^ (minExponent - 1 + ((3 * k : ℕ) : ℤ)) := by
      refine zpow_le_zpow_right₀ (by norm_num) ?_
      rw [minExponent]
      omega
    _ = 2 ^ (minExponent - 1) * 8 ^ k := by
      rw [zpow_add₀ (by norm_num), zpow_natCast, pow_mul]
      norm_num
    _ ≤ 2 ^ (minExponent - 1) * (10 ^ k : ℕ) := by
      push_cast
      refine mul_le_mul_of_nonneg_left ?_ (by positivity)
      exact pow_le_pow_left₀ (by norm_num) (by norm_num) k

/-- The powers of ten that are not computed are out of range. -/
theorem ofDecimal_eq_nearest (negative : Bool) (digits : ℕ) (exponent : ℤ) :
    ofDecimal negative digits exponent = nearest negative ((digits : ℚ) * 10 ^ exponent) := by
  obtain rfl | hdigits := eq_or_ne digits 0
  · rw [Nat.cast_zero, zero_mul]
    rfl
  rw [ofDecimal, if_neg hdigits]
  -- A power of ten on one side of the fraction line or on the other; the guards against huge
  -- powers agree with what rounding gives.
  obtain he | he := le_or_gt 0 exponent
  · obtain ⟨k, rfl⟩ := Int.eq_ofNat_of_zero_le he
    have hvalue : ((digits * 10 ^ k : ℕ) : ℚ) / (1 : ℕ) = digits * 10 ^ (k : ℤ) := by
      push_cast
      rw [div_one, zpow_natCast]
    have hexact := ofRatio_eq_nearest negative (digits * 10 ^ k) one_ne_zero
    rw [hvalue] at hexact
    rw [if_pos he]
    split_ifs with hlarge
    · rw [← hexact]
      refine (ofRatio_of_large one_ne_zero ?_ negative).symm
      rw [hvalue, zpow_natCast]
      exact two_pow_le_of_large hdigits (by omega)
    · exact hexact
  · obtain ⟨k, rfl⟩ : ∃ k : ℕ, exponent = -(k : ℤ) := ⟨exponent.natAbs, by omega⟩
    have hvalue : (digits : ℚ) / (10 ^ k : ℕ) = digits * 10 ^ (-(k : ℤ)) := by
      push_cast
      rw [zpow_neg, zpow_natCast, div_eq_mul_inv]
    have hten : 10 ^ k ≠ 0 := by positivity
    have hexact := ofRatio_eq_nearest negative digits hten
    rw [hvalue] at hexact
    rw [if_neg (by omega), neg_neg, Int.toNat_natCast]
    dsimp only
    split_ifs with hsmall
    · rw [← hexact]
      exact (ofRatio_of_small hten (lt_two_pow_of_small hsmall) negative).symm
    · exact hexact

end Nearest

end Restyle.Binary64
