import Restyle.Proofs.Number.ReadBack

/-!
Unsigned decimals, and the largest of them that are finite.

* `Spells`: a text of digits with at most one point and at least one digit spells a rational number;
* `ofUnsigned?_eq_some_iff`: these texts are read, no others, and what is read is the number nearest
  to the one spelled;
* `overflow`: half a step above the largest finite number;
* `nearest_eq_infinity_iff`: from there on a number is rounded to infinity.
-/

namespace Restyle.Binary64

/-! ### Texts of decimals -/

/-- A text is a decimal with neither sign nor exponent, and this is its value: a row of digits, or
two of them with a point between, of which one may be empty. -/
inductive Spells : List Char → ℚ → Prop
  | whole {digits : List Char} (hne : digits ≠ []) (hdigits : ∀ c ∈ digits, isDigit c = true) :
    Spells digits (digitsValue digits)
  | point {whole fraction : List Char} (hne : whole ++ fraction ≠ [])
    (hwhole : ∀ c ∈ whole, isDigit c = true) (hfraction : ∀ c ∈ fraction, isDigit c = true) :
    Spells (whole ++ '.' :: fraction)
      (digitsValue (whole ++ fraction) * 10 ^ (-(fraction.length : ℤ)))

section Texts

variable {text whole fraction rest : List Char} {q : ℚ} {x : Binary64}

lemma Spells.nonneg (h : Spells text q) : 0 ≤ q := by
  cases h with
  | whole => exact Nat.cast_nonneg _
  | point => positivity

/-- A spelling has digits and at most one point. -/
lemma Spells.isPlain (h : Spells text q) : IsPlain text := by
  cases h with
  | whole hne hdigits => exact ⟨hne, fun c hc => .inl (hdigits c hc)⟩
  | point hne hwhole hfraction =>
    refine ⟨List.append_ne_nil_of_right_ne_nil _ (List.cons_ne_nil _ _), fun c hc => ?_⟩
    obtain hc | hc := List.mem_append.mp hc
    · exact .inl (hwhole c hc)
    · obtain rfl | hc := List.mem_cons.mp hc
      · exact .inr rfl
      · exact .inl (hfraction c hc)

lemma takeWhile_append_drop (text : List Char) :
    text.takeWhile isDigit ++ text.drop (text.takeWhile isDigit).length = text :=
  (List.prefix_iff_eq_append.mp (List.takeWhile_prefix isDigit))

/-- A text that is split without a rest is a decimal. -/
lemma splitDecimal_cases (h : splitDecimal text = some (whole, fraction, [])) :
    (text = whole ∧ fraction = [] ∧ whole ≠ [] ∧ ∀ c ∈ whole, isDigit c = true)
      ∨ (text = whole ++ '.' :: fraction ∧ whole ++ fraction ≠ []
        ∧ (∀ c ∈ whole, isDigit c = true) ∧ ∀ c ∈ fraction, isDigit c = true) := by
  have hdigits (l : List Char) : ∀ c ∈ l.takeWhile isDigit, isDigit c = true :=
    fun c hc => List.mem_takeWhile_imp hc
  have hparts := takeWhile_append_drop text
  unfold splitDecimal at h
  dsimp only at h
  split at h
  -- There is a point behind the first digits, or nothing at all.
  · next rest hrest =>
    split_ifs at h with hempty
    simp only [Option.some.injEq, Prod.mk.injEq] at h
    obtain ⟨rfl, rfl, hnone⟩ := h
    have hall := takeWhile_append_drop rest
    rw [hnone, List.append_nil] at hall
    refine .inr ⟨?_, ?_, hdigits _, hdigits _⟩
    · rw [hall, ← hrest, hparts]
    · rwa [Bool.and_eq_true, List.isEmpty_iff, List.isEmpty_iff, ← List.append_eq_nil_iff] at hempty
  · split_ifs at h with hempty
    simp only [Option.some.injEq, Prod.mk.injEq] at h
    obtain ⟨rfl, rfl, hnone⟩ := h
    rw [hnone, List.append_nil] at hparts
    exact .inl ⟨hparts.symm, rfl, fun hnil => hempty (List.isEmpty_iff.mpr hnil), hdigits _⟩

/-- Decimals with neither sign nor exponent are read, no other texts, and what is read is the number
nearest to the one that is spelled. -/
theorem ofUnsigned?_eq_some_iff :
    ofUnsigned? text = some x ↔ ∃ q, Spells text q ∧ x = nearest false q := by
  constructor
  · intro h
    unfold ofUnsigned? at h
    split at h
    · next whole fraction hsplit =>
      cases h
      obtain ⟨rfl, rfl, hne, hdigits⟩ | ⟨rfl, hne, hwhole, hfraction⟩ := splitDecimal_cases hsplit
      · refine ⟨_, .whole hne hdigits, ?_⟩
        rw [ofDigits, ofDecimal_eq_nearest, List.append_nil]
        simp
      · refine ⟨_, .point hne hwhole hfraction, ?_⟩
        rw [ofDigits, ofDecimal_eq_nearest, zero_sub]
    · cases h
  · rintro ⟨q, h, rfl⟩
    cases h with
    | whole hne hdigits => exact ofUnsigned?_whole hne hdigits
    | point hne hwhole hfraction => exact ofUnsigned?_point hne hwhole hfraction

end Texts

/-! ### The largest numbers -/

/-- Half a step above the largest finite number. -/
def overflow : ℚ := 2 ^ 1024 - 2 ^ 970

section Largest

variable {a n d : ℕ} {e : ℤ} {q : ℚ}

lemma overflow_le : overflow ≤ 2 ^ (1024 : ℤ) := by
  rw [overflow, zpow_ofNat]
  exact sub_le_self _ (by positivity)

lemma le_overflow : 2 ^ (1023 : ℤ) ≤ overflow := by
  have hstep : (2 : ℚ) ^ 970 ≤ 2 ^ 1023 := pow_le_pow_right₀ (by norm_num) (by norm_num)
  rw [overflow, zpow_ofNat, pow_succ (2 : ℚ) 1023, mul_two]
  exact le_sub_iff_add_le.mpr (add_le_add_right hstep _)

lemma overflow_pos : 0 < overflow :=
  lt_of_lt_of_le (by positivity) le_overflow

/-- A tie is rounded up from an odd number. -/
lemma lt_roundDiv_iff (hd : 0 < d) (ha : a % 2 = 1) :
    a < roundDiv n d ↔ (2 * a + 1) * d ≤ 2 * n := by
  have hn := Nat.div_add_mod n d
  have hrest := Nat.mod_lt n hd
  have hsplit : (2 * a + 1) * d = 2 * (d * a) + d := by ring
  unfold roundDiv
  dsimp only
  rw [hsplit]
  generalize n / d = quotient at hn
  generalize n % d = rest at hn hrest
  -- Only at the quotient itself does the remainder decide, and there the tie goes away from the
  -- odd number.
  obtain hlt | rfl | hgt := lt_trichotomy quotient a
  · have hle : d * (quotient + 1) ≤ d * a := Nat.mul_le_mul_left d hlt
    rw [Nat.mul_succ] at hle
    split_ifs
    all_goals omega
  · split_ifs
    all_goals omega
  · have hle : d * (a + 1) ≤ d * quotient := Nat.mul_le_mul_left d hgt
    rw [Nat.mul_succ] at hle
    split_ifs
    all_goals omega

/-- A quotient is rounded above an odd number of units from half a unit above it on. -/
lemma lt_scaledDiv_iff (hd : 0 < d) (ha : a % 2 = 1) :
    a < scaledDiv n d e ↔ ((a : ℚ) + 1 / 2) * 2 ^ e ≤ n / d := by
  obtain ⟨n', d', hd', heq, hquotient⟩ := exists_roundDiv_eq_scaledDiv n hd e
  have hpos : (0 : ℚ) < d' := by exact_mod_cast hd'
  rw [heq, lt_roundDiv_iff hd' ha, ← le_div_iff₀ (by positivity), ← hquotient, le_div_iff₀ hpos]
  constructor
  · intro h
    have hcast : ((2 * a + 1 : ℕ) : ℚ) * d' ≤ 2 * n' := by exact_mod_cast h
    push_cast at hcast
    linarith
  · intro h
    have hcast : (2 * (a : ℚ) + 1) * d' ≤ 2 * n' := by linarith
    exact_mod_cast hcast

/-- The bound is passed just when the mantissa at the largest exponent reaches its limit. -/
lemma overflow_le_iff (hd : d ≠ 0) :
    overflow ≤ (n : ℚ) / d ↔ mantissaLimit ≤ scaledDiv n d maxExponent := by
  have hodd : (mantissaLimit - 1) % 2 = 1 := by decide
  have hvalue : (((mantissaLimit - 1 : ℕ) : ℚ) + 1 / 2) * 2 ^ maxExponent = overflow := by
    rw [mantissaLimit_eq, overflow, show (maxExponent : ℤ) = ((970 + 1 : ℕ) : ℤ) from rfl,
      zpow_natCast, show (1024 : ℕ) = 970 + 54 from rfl, pow_add, pow_add]
    generalize (2 : ℚ) ^ 970 = unit
    push_cast
    ring
  rw [← hvalue, ← lt_scaledDiv_iff (Nat.pos_of_ne_zero hd) hodd]
  have hpos : 0 < mantissaLimit := by decide
  omega

/-- A number is rounded to infinity from half a step above the largest finite number on. -/
theorem nearest_eq_infinity_iff (hq : 0 ≤ q) (negative : Bool) :
    nearest negative q = infinity negative ↔ overflow ≤ q := by
  obtain ⟨n, d, hd, rfl⟩ := exists_quotient hq
  rw [← ofRatio_eq_nearest negative n hd]
  obtain rfl | hn := eq_or_ne n 0
  · rw [Nat.cast_zero, zero_div]
    exact iff_of_false (fun h => by cases h) (not_le.mpr overflow_pos)
  obtain hlarge | hsmall := le_or_gt ((2 : ℚ) ^ (1024 : ℤ)) (n / d)
  · exact iff_of_true (ofRatio_of_large hd hlarge negative) (overflow_le.trans hlarge)
  have hpos : (0 : ℚ) < n / d := by positivity
  have hlimit := scaledDiv_exponentOf_le hn hd
  have hexponent := exponentOf_eq hn hd
  have hlog := (log_lt_iff hpos _).mpr hsmall
  rw [ofRatio_of_ne_zero hn hd]
  obtain hlast | hlower : exponentOf n d = maxExponent ∨ exponentOf n d < maxExponent := by
    rw [hexponent, minExponent, maxExponent]
    omega
  · -- at the last exponent, the mantissa overflows
    rw [overflow_le_iff hd, hlast]
    rw [hlast] at hlimit
    split_ifs with htop hnext hnext
    all_goals simp only [true_iff, false_iff]
    all_goals omega
  · -- below it, there is one more exponent to go to
    have hbound : (n : ℚ) / d < overflow := by
      refine lt_of_lt_of_le ((log_lt_iff hpos 1023).mp ?_) le_overflow
      rw [maxExponent] at hlower
      omega
    refine iff_of_false (fun h => ?_) (not_le.mpr hbound)
    split_ifs at h with htop hnext hnext
    all_goals omega

/-- A number is rounded to infinity or to a finite number. -/
lemma isFinite_nearest {negative : Bool} {q : ℚ} (h : nearest negative q ≠ infinity negative) :
    (nearest negative q).IsFinite := by
  by_cases hn : q.num.natAbs = 0
  · rw [nearest, hn]
    exact trivial
  · rw [nearest, ofRatio_of_ne_zero hn q.den_nz] at h ⊢
    split_ifs at h ⊢
    all_goals first | exact trivial | exact absurd rfl h

end Largest

end Restyle.Binary64
