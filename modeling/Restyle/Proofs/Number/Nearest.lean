import Restyle.Proofs.Number.Unsigned

/-!
What rounding means.

* `value`: the rational number that a finite one stands for; `le_iff_value_le`: numbers are compared
  by their values;
* `Closest`: of all canonical numbers, the one whose value is closest to a rational number, and on a
  tie the one whose mantissa is even;
* `Closest.unique`: there is only one;
* `RoundsTo`: a rational number from zero on is rounded to that one, unless it is out of range;
* `roundsTo_iff`: this is what `nearest` computes.
-/

namespace Restyle.Binary64

/-! ### Values -/

section Value

variable {negative negative' : Bool} {m m' : ℕ} {e e' : ℤ}

/-- The rational number that a finite number stands for. -/
def value : Binary64 → ℚ
  | finite negative m e => (if negative then -1 else 1) * (m * 2 ^ e)
  | _ => 0

lemma value_finite_false (m : ℕ) (e : ℤ) : (finite false m e).value = m * 2 ^ e :=
  one_mul _

/-- The value counts the units of the smallest positive number. -/
lemma value_eq_units (he : minExponent ≤ e) :
    (finite negative m e).value = (finite negative m e).units * 2 ^ minExponent := by
  have hpower : (2 : ℚ) ^ e = 2 ^ (e - minExponent).toNat * 2 ^ minExponent := by
    rw [← zpow_natCast, Int.toNat_of_nonneg (by omega), ← zpow_add₀ (by norm_num), sub_add_cancel]
  rw [value, units, hpower]
  cases negative
  all_goals
    simp only [Bool.false_eq_true, if_true, if_false, Nat.pow_eq]
    push_cast
    ring

/-- Finite numbers are compared by their values. -/
theorem le_iff_value_le (he : minExponent ≤ e) (he' : minExponent ≤ e') :
    (finite negative m e).le (finite negative' m' e') = true
      ↔ (finite negative m e).value ≤ (finite negative' m' e').value := by
  have hunit : (0 : ℚ) < 2 ^ minExponent := by positivity
  rw [value_eq_units he, value_eq_units he', mul_le_mul_iff_left₀ hunit, Int.cast_le]
  exact decide_eq_true_iff

end Value

/-! ### The closest number -/

section Closest

variable {k n d m m' : ℕ} {e e' : ℤ} {q : ℚ}

/-- Of all canonical numbers from zero on, this one has the value closest to a rational number. If
another one is as close, the mantissa of this one is even. -/
structure Closest (q : ℚ) (m : ℕ) (e : ℤ) : Prop where
  canonical : Canonical m e
  le_dist : ∀ {m' e'}, Canonical m' e' → |(m : ℚ) * 2 ^ e - q| ≤ |(m' : ℚ) * 2 ^ e' - q|
  even_of_tie : ∀ {m' e'}, Canonical m' e' → (m' : ℚ) * 2 ^ e' ≠ m * 2 ^ e →
    |(m' : ℚ) * 2 ^ e' - q| = |(m : ℚ) * 2 ^ e - q| → m % 2 = 0

/-- The value of a canonical number leaves it no choice. -/
lemma Canonical.injective (h : Canonical m e) (h' : Canonical m' e')
    (heq : (m : ℚ) * 2 ^ e = m' * 2 ^ e') : m = m' ∧ e = e' := by
  have hsame : finite false m e = finite false m' e' := by
    rw [← nearest_of_canonical h, ← nearest_of_canonical h', heq]
  cases hsame
  exact ⟨rfl, rfl⟩

/-- At a larger exponent, a value is a multiple of the same power. -/
lemma exists_multiple (m' : ℕ) (h : e ≤ e') : ∃ k : ℕ, (m' : ℚ) * 2 ^ e' = k * 2 ^ e := by
  refine ⟨m' * 2 ^ (e' - e).toNat, ?_⟩
  push_cast
  rw [mul_assoc, ← zpow_natCast, Int.toNat_of_nonneg (by omega), ← zpow_add₀ (by norm_num),
    sub_add_cancel]

/-- At a smaller exponent, a value is below all mantissas of full length. -/
lemma Canonical.lt_full (h : Canonical m' e') (hlt : e' < e) :
    (m' : ℚ) * 2 ^ e' < 2 ^ 52 * 2 ^ e := by
  have hm : (m' : ℚ) < 2 ^ 53 := by exact_mod_cast h.lt_limit
  calc (m' : ℚ) * 2 ^ e' < 2 ^ 53 * 2 ^ e' := mul_lt_mul_of_pos_right hm (by positivity)
    _ = 2 ^ 52 * 2 ^ (e' + 1) := by
      rw [zpow_add_one₀ (by norm_num)]
      ring
    _ ≤ 2 ^ 52 * 2 ^ e := by
      refine mul_le_mul_of_nonneg_left ?_ (by positivity)
      exact zpow_le_zpow_right₀ (by norm_num) (by omega)

/-- The next canonical number is at least one step of the mantissa away. -/
lemma Canonical.succ_le (h : Canonical m e) (h' : Canonical m' e')
    (hlt : (m : ℚ) * 2 ^ e < m' * 2 ^ e') : ((m + 1 : ℕ) : ℚ) * 2 ^ e ≤ m' * 2 ^ e' := by
  obtain he | he := le_or_gt e e'
  · obtain ⟨k, hk⟩ := exists_multiple m' he
    rw [hk] at hlt ⊢
    have hpos : (0 : ℚ) < 2 ^ e := by positivity
    have hmk : m < k := by exact_mod_cast lt_of_mul_lt_mul_right hlt hpos.le
    exact mul_le_mul_of_nonneg_right (by exact_mod_cast hmk) hpos.le
  · have hfull : 2 ^ 52 ≤ m := h.full.resolve_right fun hmin => by
      have := h'.min_le
      omega
    have hle : (2 : ℚ) ^ 52 * 2 ^ e ≤ m * 2 ^ e :=
      mul_le_mul_of_nonneg_right (by exact_mod_cast hfull) (by positivity)
    exact absurd (hlt.trans (h'.lt_full he)) (not_lt.mpr hle)

/-- Two closest numbers of which one is smaller: between their even mantissas there is an odd
one. -/
lemma Closest.not_below (h : Closest q m e) (h' : Closest q m' e') :
    ¬ (m : ℚ) * 2 ^ e < m' * 2 ^ e' := by
  intro hlt
  have hdist := (h.le_dist h'.canonical).antisymm (h'.le_dist h.canonical)
  have heven := h.even_of_tie h'.canonical hlt.ne' hdist.symm
  have heven' := h'.even_of_tie h.canonical hlt.ne hdist
  have hnext : Canonical (m + 1) e := by
    have hm := h.canonical.lt_limit
    have hlimit : mantissaLimit % 2 = 0 := by decide
    exact ⟨by omega, h.canonical.min_le, h.canonical.le_max, h.canonical.full.imp_left (by omega)⟩
  obtain heq | hbetween := (h.canonical.succ_le h'.canonical hlt).eq_or_lt
  · have := (hnext.injective h'.canonical heq).1
    omega
  · -- what lies between two numbers at the same distance is closer than both
    have hstep : (m : ℚ) * 2 ^ e < ((m + 1 : ℕ) : ℚ) * 2 ^ e :=
      mul_lt_mul_of_pos_right (by exact_mod_cast m.lt_succ_self) (by positivity)
    have hle := h.le_dist hnext
    generalize (m : ℚ) * 2 ^ e = low at *
    generalize (m' : ℚ) * 2 ^ e' = high at *
    generalize ((m + 1 : ℕ) : ℚ) * 2 ^ e = middle at *
    obtain hopposite := (abs_eq_abs.mp hdist).resolve_left (by linarith)
    have hnear : |middle - q| < |low - q| := by
      rw [abs_of_neg (show low - q < 0 by linarith)]
      exact abs_lt.mpr ⟨by linarith, by linarith⟩
    exact absurd hle (not_le.mpr hnear)

/-- Only one number is closest. -/
theorem Closest.unique (h : Closest q m e) (h' : Closest q m' e') : m = m' ∧ e = e' :=
  h.canonical.injective h'.canonical
    ((not_lt.mp (h'.not_below h)).antisymm (not_lt.mp (h.not_below h')))

/-! ### Rounding -/

/-- How far a quotient is from a whole number, in steps of the denominator. -/
lemma dist_quotient (hd : 0 < d) (n a : ℕ) :
    |(a : ℚ) - n / d| = ((d * a : ℕ) - (n : ℤ)).natAbs / d := by
  have hpos : (0 : ℚ) < d := by exact_mod_cast hd
  rw [sub_div' hpos.ne', abs_div, abs_of_pos hpos, mul_comm (a : ℚ), Nat.cast_natAbs]
  push_cast
  rfl

/-- A multiple of the denominator is one of the two around the numerator, or beyond them. -/
lemma multiple_cases (n d k : ℕ) :
    d * k + d ≤ d * (n / d) ∨ k = n / d ∨ k = n / d + 1 ∨ d * (n / d) + 2 * d ≤ d * k := by
  obtain h | rfl | h := lt_trichotomy k (n / d)
  · exact .inl (Nat.mul_le_mul_left d h)
  · exact .inr (.inl rfl)
  · obtain h | h := eq_or_lt_of_le (show n / d + 1 ≤ k from h)
    · exact .inr (.inr (.inl h.symm))
    · have := Nat.mul_le_mul_left d (show n / d + 2 ≤ k from h)
      exact .inr (.inr (.inr (by linarith)))

/-- No multiple of the denominator is closer to the numerator than the one that is rounded to. If
another one is as close, that one is even. -/
lemma roundDiv_multiple (hd : 0 < d) (n k : ℕ) :
    ((d * roundDiv n d : ℕ) - (n : ℤ)).natAbs ≤ ((d * k : ℕ) - (n : ℤ)).natAbs
      ∧ (k ≠ roundDiv n d →
        ((d * k : ℕ) - (n : ℤ)).natAbs = ((d * roundDiv n d : ℕ) - (n : ℤ)).natAbs →
        roundDiv n d % 2 = 0) := by
  have hn := Nat.div_add_mod n d
  have hrest := Nat.mod_lt n hd
  have hk := multiple_cases n d k
  have hnext : d * (n / d + 1) = d * (n / d) + d := Nat.mul_succ d (n / d)
  unfold roundDiv
  dsimp only
  generalize n / d = quotient at *
  generalize n % d = rest at *
  obtain hk | rfl | rfl | hk := hk
  all_goals
    split_ifs
    all_goals omega

/-- No whole number is closer to a quotient than the rounded one. -/
lemma roundDiv_le_dist (hd : 0 < d) (n k : ℕ) :
    |(roundDiv n d : ℚ) - n / d| ≤ |(k : ℚ) - n / d| := by
  rw [dist_quotient hd, dist_quotient hd]
  have h := (roundDiv_multiple hd n k).1
  gcongr

/-- If another whole number is as close, the rounded one is even. -/
lemma roundDiv_even (hd : 0 < d) {n k : ℕ} (hk : k ≠ roundDiv n d)
    (h : |(k : ℚ) - n / d| = |(roundDiv n d : ℚ) - n / d|) : roundDiv n d % 2 = 0 := by
  have hpos : (d : ℚ) ≠ 0 := by exact_mod_cast hd.ne'
  rw [dist_quotient hd, dist_quotient hd, div_left_inj' hpos] at h
  exact (roundDiv_multiple hd n k).2 hk (by exact_mod_cast h)

/-- The same with a power of two as the unit. -/
lemma scaledDiv_closest (hd : 0 < d) (n k : ℕ) (e : ℤ) :
    |(scaledDiv n d e : ℚ) * 2 ^ e - n / d| ≤ |(k : ℚ) * 2 ^ e - n / d|
      ∧ (k ≠ scaledDiv n d e →
        |(k : ℚ) * 2 ^ e - n / d| = |(scaledDiv n d e : ℚ) * 2 ^ e - n / d| →
        scaledDiv n d e % 2 = 0) := by
  obtain ⟨n', d', hd', heq, hquotient⟩ := exists_roundDiv_eq_scaledDiv n hd e
  have hpos : (0 : ℚ) < 2 ^ e := by positivity
  have hdist (a : ℕ) : |(a : ℚ) * 2 ^ e - n / d| = |(a : ℚ) - n' / d'| * 2 ^ e := by
    rw [hquotient, ← abs_of_pos hpos, ← abs_mul, abs_of_pos hpos, sub_mul,
      div_mul_cancel₀ _ hpos.ne']
  rw [hdist, hdist, heq, mul_left_inj' hpos.ne', mul_le_mul_iff_left₀ hpos]
  exact ⟨roundDiv_le_dist hd' n' k, roundDiv_even hd'⟩

/-- Above the smallest exponent the quotient fills a mantissa of full length. -/
lemma full_le_quotient (hn : n ≠ 0) (hd : d ≠ 0) (he : minExponent < exponentOf n d) :
    (2 : ℚ) ^ 52 * 2 ^ exponentOf n d ≤ n / d := by
  have hexponent := exponentOf_eq hn hd
  have hpos : (0 : ℚ) < n / d := by positivity
  have hle := (le_log_iff hpos (52 + exponentOf n d)).mp (by omega)
  rwa [zpow_add₀ (by norm_num)] at hle

/-- What a quotient is rounded to is closest to it, in whatever way its value is written. -/
lemma closest_of_scaledDiv (hn : n ≠ 0) (hd : d ≠ 0) (h : Canonical m e)
    (hvalue : (m : ℚ) * 2 ^ e = scaledDiv n d (exponentOf n d) * 2 ^ exponentOf n d)
    (heven : scaledDiv n d (exponentOf n d) % 2 = 0 → m % 2 = 0) :
    Closest (n / d) m e := by
  have hclosest (k : ℕ) := scaledDiv_closest (Nat.pos_of_ne_zero hd) n k (exponentOf n d)
  rw [← hvalue] at hclosest
  have hgrid : ∀ {m' e'}, Canonical m' e' →
      (∃ k : ℕ, (m' : ℚ) * 2 ^ e' = k * 2 ^ exponentOf n d)
        ∨ |(m : ℚ) * 2 ^ e - n / d| < |(m' : ℚ) * 2 ^ e' - n / d| := by
    intro m' e' h'
    obtain he | he := le_or_gt (exponentOf n d) e'
    · exact .inl (exists_multiple m' he)
    -- at a smaller exponent, the smallest mantissa of full length lies in between
    have hlow := full_le_quotient hn hd (h'.min_le.trans_lt he)
    have hlt := h'.lt_full he
    have hfull := (hclosest (2 ^ 52)).1
    rw [Nat.cast_pow, Nat.cast_ofNat, abs_of_nonpos (sub_nonpos.mpr hlow)] at hfull
    rw [abs_of_nonpos (sub_nonpos.mpr (hlt.le.trans hlow))]
    exact .inr (hfull.trans_lt (by linarith))
  refine ⟨h, fun h' => ?_, fun h' hne htie => heven ?_⟩
  · obtain ⟨k, hk⟩ | hlt := hgrid h'
    · exact hk ▸ (hclosest k).1
    · exact hlt.le
  · obtain ⟨k, hk⟩ | hlt := hgrid h'
    · rw [hk] at hne htie
      refine (hclosest k).2 ?_ htie
      rintro rfl
      exact hne hvalue.symm
    · exact absurd htie hlt.ne'

/-- A number is closest to its own value. -/
lemma Canonical.closest (h : Canonical m e) : Closest (m * 2 ^ e) m e where
  canonical := h
  le_dist _ := by
    rw [sub_self, abs_zero]
    exact abs_nonneg _
  even_of_tie _ hne htie := by
    rw [sub_self, abs_zero, abs_eq_zero, sub_eq_zero] at htie
    exact absurd htie hne

/-- What is rounded to, unless it is out of range, is closest. -/
theorem closest_of_nearest (hq : 0 ≤ q) (h : nearest false q = finite false m e) :
    Closest q m e := by
  have hcanonical := (canonical_of_nearest h).2
  obtain ⟨n, d, hd, rfl⟩ := exists_quotient hq
  rw [← ofRatio_eq_nearest false n hd] at h
  obtain rfl | hn := eq_or_ne n 0
  · cases h
    have hzero := hcanonical.closest
    rwa [Nat.cast_zero, zero_mul, ← zero_div (d : ℚ), ← Nat.cast_zero] at hzero
  have hlimit := scaledDiv_exponentOf_le hn hd
  rw [ofRatio_of_ne_zero hn hd] at h
  split_ifs at h with htop hlarge hlarge
  · -- the mantissa has overflown into the next exponent
    cases h
    refine closest_of_scaledDiv hn hd hcanonical ?_ fun _ => by decide
    rw [htop, zpow_add_one₀ (by norm_num), mantissaLimit_eq]
    norm_num
    ring
  · cases h
    exact closest_of_scaledDiv hn hd hcanonical rfl id

/-- Below half a step above the largest number, the nearest number is a finite one. -/
lemma exists_finite_of_lt_overflow (hq : 0 ≤ q) (hrange : q < overflow) :
    ∃ m e, nearest false q = finite false m e := by
  have hfinite := isFinite_nearest fun h =>
    absurd ((nearest_eq_infinity_iff hq false).mp h) (not_le.mpr hrange)
  cases h : nearest false q with
  | nan | infinity negative =>
    rw [h] at hfinite
    exact hfinite.elim
  | finite negative m e =>
    obtain ⟨rfl, -⟩ := canonical_of_nearest h
    exact ⟨m, e, rfl⟩

/-- A rational number from zero on is rounded to the closest number. From half a step above the
largest number on, it is rounded to none. -/
def RoundsTo (q : ℚ) (x : Binary64) : Prop :=
  q < overflow ∧ ∃ m e, x = finite false m e ∧ Closest q m e

/-- What `nearest` computes is what a number is rounded to. -/
theorem roundsTo_iff {x : Binary64} (hq : 0 ≤ q) :
    RoundsTo q x ↔ q < overflow ∧ x = nearest false q := by
  refine and_congr_right fun hrange => ?_
  obtain ⟨m, e, hfinite⟩ := exists_finite_of_lt_overflow hq hrange
  have hclosest := closest_of_nearest hq hfinite
  rw [hfinite]
  constructor
  · rintro ⟨m', e', rfl, h⟩
    obtain ⟨rfl, rfl⟩ := h.unique hclosest
    rfl
  · rintro rfl
    exact ⟨m, e, rfl, hclosest⟩

/-- A number is rounded to only one. -/
lemma RoundsTo.unique {x y : Binary64} (h : RoundsTo q x) (h' : RoundsTo q y) : x = y := by
  obtain ⟨-, m, e, rfl, h⟩ := h
  obtain ⟨-, m', e', rfl, h'⟩ := h'
  obtain ⟨rfl, rfl⟩ := h.unique h'
  rfl

/-- What is not rounded to infinity is rounded to the closest number. -/
lemma roundsTo_of_isFinite (hq : 0 ≤ q) (h : (nearest false q).IsFinite) :
    RoundsTo q (nearest false q) := by
  refine (roundsTo_iff hq).mpr ⟨not_le.mp fun hlarge => ?_, rfl⟩
  rw [(nearest_eq_infinity_iff hq false).mpr hlarge] at h
  exact h

lemma roundsTo_zero : RoundsTo 0 (zero false) :=
  (roundsTo_iff le_rfl).mpr ⟨overflow_pos, rfl⟩

/-- What numbers are rounded to is compared by the values. -/
lemma RoundsTo.le_iff {q' : ℚ} {x y : Binary64} (h : RoundsTo q x) (h' : RoundsTo q' y) :
    x.le y = true ↔ x.value ≤ y.value := by
  obtain ⟨-, m, e, rfl, h⟩ := h
  obtain ⟨-, m', e', rfl, h'⟩ := h'
  exact le_iff_value_le h.canonical.min_le h'.canonical.min_le

end Closest

end Restyle.Binary64
