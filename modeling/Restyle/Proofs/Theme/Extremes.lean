import Restyle.Proofs.Number.Unsigned
import Restyle.Proofs.Theme.Printed

/-!
The radii and colors that are not read again from their texts.

* `Radius.Overflows`, `Radius.ofText_of_overflows`: a number of `rem` so large that it is rounded to
  infinity, and is read all the same;
* `Radius.readBack_iff_not_overflows`: a radius that was read is read back from its text exactly if
  it was not spelled so large;
* `Color.channels?_sign`: a sign in front of a channel makes a text no color;
* `Color.readBack_iff_no_negativeZero`: a color in range is read back from its text exactly if no
  channel is the negative zero.
-/

namespace Restyle

namespace Binary64

variable {x : Binary64}

/-- A number as 64 bits hold it: a finite one is canonical. -/
def IsDouble : Binary64 → Prop
  | finite _ m e => Canonical m e
  | _ => True

/-- A number from zero on is printed as a decimal and read again from it, unless it is the negative
zero. -/
lemma plain_of_zero_le (hx : x.IsDouble) (hfinite : x.IsFinite)
    (hlow : (zero false).le x = true) :
    x = zero true ∨ ofUnsigned? x.plain.toList = some x ∧ IsPlain x.plain.toList := by
  cases x with
  | nan | infinity negative => exact hfinite.elim
  | finite negative m e =>
    cases negative with
    | false => exact .inr ⟨ofUnsigned?_plain hx, isPlain_plain m e⟩
    | true =>
      have hm : m = 0 := by
        by_contra hne
        have hpos : (0 : ℤ) < m * 2 ^ (e - minExponent).toNat := by positivity
        simp only [le, zero, units, if_true, if_false, Bool.false_eq_true, CharP.cast_eq_zero,
          zero_mul, Nat.pow_eq, Nat.cast_pow, Nat.cast_ofNat, Int.neg_nonneg,
          decide_eq_true_eq] at hlow
        exact absurd hlow (not_le.mpr hpos)
      subst hm
      obtain hfull | rfl := hx.full
      · cases hfull
      · exact .inl rfl

end Binary64

namespace Radius

open Binary64

variable {s : String} {r : Radius}

/-- A text is a number of `rem` from half a step above the largest finite number on. -/
def Overflows (s : String) : Prop :=
  ∃ digits q, s.toList = digits ++ "rem".toList ∧ Spells digits q ∧ overflow ≤ q

/-- What stands before `rem` is the text without it. -/
lemma beforeRem?_eq_some_iff {digits : List Char} :
    beforeRem? s = some digits ↔ s.toList = digits ++ "rem".toList := by
  unfold beforeRem?
  constructor
  · intro h
    split at h
    · next rest hrest =>
      cases h
      rw [← List.reverse_reverse s.toList, hrest]
      simp
    · cases h
  · intro h
    have hreverse : s.toList.reverse = 'm' :: 'e' :: 'r' :: digits.reverse := by
      rw [h, List.reverse_append]
      rfl
    simp only [hreverse, List.reverse_reverse]

/-- A text that ends in `rem` is neither of the two words. -/
lemma ne_of_toList_eq {digits : List Char} (hs : s.toList = digits ++ "rem".toList) :
    s ≠ "0" ∧ s ≠ "9999px" := by
  constructor
  · rintro rfl
    have hlength := congrArg List.length hs
    simp at hlength
  · rintro rfl
    have hlast := congrArg List.getLast? hs
    simp at hlast

/-- A decimal in front of `rem` is read as the number nearest to the one that it spells. -/
lemma ofText_of_spells {digits : List Char} {q : ℚ} (hs : s.toList = digits ++ "rem".toList)
    (hq : Spells digits q) : ofText s = .ok (.rem (nearest false q)) := by
  obtain ⟨hzero, hpill⟩ := ne_of_toList_eq hs
  have hread : ofUnsigned? digits = some (nearest false q) :=
    ofUnsigned?_eq_some_iff.mpr ⟨q, hq, rfl⟩
  unfold ofText
  rw [if_neg hzero, if_neg hpill, beforeRem?_eq_some_iff.mpr hs, Option.bind_some, hread]

/-- What a text is read as. -/
lemma ofText_cases (h : ofText s = .ok r) :
    (s = "0" ∧ r = .zero) ∨ (s = "9999px" ∧ r = .pill)
      ∨ ∃ digits q, s.toList = digits ++ "rem".toList ∧ Spells digits q
        ∧ r = .rem (nearest false q) := by
  unfold ofText at h
  split_ifs at h with hzero hpill
  · cases h
    exact .inl ⟨hzero, rfl⟩
  · cases h
    exact .inr (.inl ⟨hpill, rfl⟩)
  · split at h
    · next n hn =>
      cases h
      obtain ⟨digits, hdigits, hread⟩ := Option.bind_eq_some_iff.mp hn
      obtain ⟨q, hq, rfl⟩ := ofUnsigned?_eq_some_iff.mp hread
      exact .inr (.inr ⟨digits, q, beforeRem?_eq_some_iff.mp hdigits, hq, rfl⟩)
    · cases h

/-- However large a number is spelled, it is read. -/
lemma ofText_of_overflows (h : Overflows s) : ofText s = .ok (.rem (infinity false)) := by
  obtain ⟨digits, q, hs, hq, hlarge⟩ := h
  rw [ofText_of_spells hs hq, (nearest_eq_infinity_iff hq.nonneg false).mpr hlarge]

/-- A radius that was read is infinite exactly if it was spelled too large. -/
lemma eq_infinity_iff (h : ofText s = .ok r) : r = .rem (infinity false) ↔ Overflows s := by
  constructor
  · rintro rfl
    obtain ⟨-, hr⟩ | ⟨-, hr⟩ | ⟨digits, q, hs, hq, hr⟩ := ofText_cases h
    · cases hr
    · cases hr
    · rw [Radius.rem.injEq] at hr
      exact ⟨digits, q, hs, hq, (nearest_eq_infinity_iff hq.nonneg false).mp hr.symm⟩
  · intro hlarge
    rw [ofText_of_overflows hlarge, Except.ok.injEq] at h
    exact h.symm

/-- A radius that was read is finite unless it is the infinite one. -/
lemma isFinite_of_ne_infinity (h : ofText s = .ok r) (hne : r ≠ .rem (infinity false)) :
    ∀ n, r = .rem n → n.IsFinite := by
  rintro n rfl
  obtain ⟨-, hr⟩ | ⟨-, hr⟩ | ⟨digits, q, -, -, hr⟩ := ofText_cases h
  · cases hr
  · cases hr
  · cases hr
    exact isFinite_nearest fun hinfinite => hne (congrArg _ hinfinite)

lemma ofText_infinity : ofText (rem (infinity false)).text
    = .error (.invalidField "radius" "`infrem` is not 0, <number>rem or 9999px") := by
  rfl

/-- A radius that was read is read back from its text, and from its JSON value, exactly if it was
not spelled too large; otherwise the text is turned away. -/
theorem readBack_iff_not_overflows (h : ofText s = .ok r) :
    (ofText r.text = .ok r ↔ ¬ Overflows s) ∧ (r.Stable ↔ ¬ Overflows s)
      ∧ (Overflows s → ofText r.text
        = .error (.invalidField "radius" "`infrem` is not 0, <number>rem or 9999px")) := by
  by_cases hlarge : Overflows s
  · obtain rfl := (eq_infinity_iff h).mpr hlarge
    refine ⟨iff_of_false ?_ (not_not.mpr hlarge), iff_of_false ?_ (not_not.mpr hlarge),
      fun _ => ofText_infinity⟩
    · rw [ofText_infinity]
      exact nofun
    · intro hstable
      have hdecode := hstable 0
      cases hdecode
  · have hread := ofText_text h (isFinite_of_ne_infinity h (mt (eq_infinity_iff h).mp hlarge))
    exact ⟨iff_of_true hread hlarge, iff_of_true (Decoder.parsed_ofJson hread) hlarge,
      fun h => absurd h hlarge⟩

/-- A radius that is printed shorter than it was spelled is read back. -/
theorem readBack_oneHalf : ofText "1.50rem" = .ok (.rem (.finite false (3 * 2 ^ 51) (-52)))
    ∧ ofText "1.5rem" = .ok (.rem (.finite false (3 * 2 ^ 51) (-52))) := by
  have hread : ofText "1.50rem" = .ok (.rem (.finite false (3 * 2 ^ 51) (-52))) := by
    decide +kernel
  have hsmall : ¬ Overflows "1.50rem" := by
    rw [← eq_infinity_iff hread]
    exact nofun
  exact ⟨hread, (readBack_iff_not_overflows hread).1.mpr hsmall⟩

/-- The number of `rem` that is a one and 309 zeros. -/
def vastRem : String :=
  String.ofList ('1' :: List.replicate 309 '0') ++ "rem"

/-- Enough zeros behind a one overflow. -/
lemma overflows_of_le {n : ℕ} (h : 2 ^ 1024 ≤ 10 ^ n) :
    Overflows (String.ofList ('1' :: List.replicate n '0') ++ "rem") := by
  have hdigits : ∀ c ∈ '1' :: List.replicate n '0', isDigit c = true :=
    List.forall_mem_cons.mpr ⟨rfl, fun _ => isDigit_of_mem_replicate⟩
  have hvalue : digitsValue ('1' :: List.replicate n '0') = 10 ^ n := by
    rw [digitsValue_eq, Nat.ofDigitChars_cons, Nat.ofDigitChars_replicate_zero]
    exact mul_one _
  refine ⟨_, _, ?_, .whole (List.cons_ne_nil _ _) hdigits, ?_⟩
  · rw [String.toList_append, String.toList_ofList]
  · have hcast : (2 : ℚ) ^ 1024 ≤ 10 ^ n := by exact_mod_cast h
    rw [hvalue, Nat.cast_pow]
    exact (sub_le_self _ (by positivity)).trans hcast

/-- A radius that is read, and whose text is not. -/
theorem not_readBack_vastRem : ∃ r, ofText vastRem = .ok r
    ∧ r.text = "infrem" ∧ ofText r.text ≠ .ok r := by
  have hlarge : Overflows vastRem := overflows_of_le (by decide +kernel)
  refine ⟨.rem (infinity false), ofText_of_overflows hlarge, rfl, ?_⟩
  rw [ofText_infinity]
  exact nofun

end Radius

namespace Color

open Binary64

section Channels

variable {l c h rest : List Char}

/-- No channel is found behind a sign. -/
lemma channels?_sign (hl : IsPlain l) (hc : IsPlain c) :
    channels? ("oklch(".toList ++ '-' :: rest) = none
      ∧ channels? ("oklch(".toList ++ (l ++ ' ' :: '-' :: rest)) = none
      ∧ channels? ("oklch(".toList ++ (l ++ ' ' :: (c ++ ' ' :: '-' :: rest))) = none := by
  have hblank : isChannelChar ' ' = false := rfl
  have hsign : isChannelChar '-' = false := rfl
  have hspace : Text.isBlank ' ' = true := rfl
  have hnone : Text.isBlank '-' = false := rfl
  have hlead (text : List Char) : "oklch(".toList.isPrefixOf ("oklch(".toList ++ text) = true :=
    List.isPrefixOf_iff_prefix.mpr (List.prefix_append _ _)
  unfold channels?
  refine ⟨?_, ?_, ?_⟩
  all_goals simp only [hlead, if_true, List.drop_left, takeWhile_channel hl hblank,
    takeWhile_channel hc hblank, List.takeWhile_cons, hsign, dropWhile_channel hc,
    List.dropWhile_cons, hnone, List.isEmpty_iff, hl.1, hc.1, if_false, hspace,
    bind, Option.bind, Bool.false_eq_true]

end Channels

variable {l c h : Binary64} {color : Color}

/-- The channels of a color in range are printed as decimals and read again from them, unless they
are the negative zero. -/
lemma channels_of_make (hl : l.IsDouble) (hc : c.IsDouble) (hh : h.IsDouble)
    (hmake : make l c h = .ok color) :
    color = ⟨l, c, h⟩
      ∧ (l = .zero true ∨ ofUnsigned? l.plain.toList = some l ∧ IsPlain l.plain.toList)
      ∧ (c = .zero true ∨ ofUnsigned? c.plain.toList = some c ∧ IsPlain c.plain.toList)
      ∧ (h = .zero true ∨ ofUnsigned? h.plain.toList = some h ∧ IsPlain h.plain.toList) := by
  obtain ⟨rfl, hfl, hfc, hfh⟩ := isFinite_of_checked hmake
  unfold make checked at hmake
  split_ifs at hmake with hlightness hchroma hhue
  simp only [Bool.not_eq_true', Bool.not_eq_false, lightnessInRange, chromaInRange, hueInRange,
    Binary64.lt, Bool.and_eq_true] at hlightness hchroma hhue
  exact ⟨rfl, plain_of_zero_le hl hfl hlightness.1, plain_of_zero_le hc hfc hchroma.1,
    plain_of_zero_le hh hfh hhue.1⟩

lemma toList_negativeZero : (plain (.zero true)).toList = ['-', '0'] := by
  rfl

/-- With a negative zero among the channels, no channels are found. -/
lemma channels?_of_negativeZero
    (hl : l = .zero true ∨ IsPlain l.plain.toList) (hc : c = .zero true ∨ IsPlain c.plain.toList)
    (h' : l = .zero true ∨ c = .zero true ∨ h = .zero true) :
    channels? (Color.text ⟨l, c, h⟩).toList = none := by
  have hzero : IsPlain ['0'] := ⟨List.cons_ne_nil _ _, List.forall_mem_singleton.mpr (.inl rfl)⟩
  rw [toList_text]
  by_cases hnl : l = .zero true
  · rw [hnl, toList_negativeZero]
    exact (channels?_sign hzero hzero).1
  have hl := hl.resolve_left hnl
  by_cases hnc : c = .zero true
  · rw [hnc, toList_negativeZero]
    exact (channels?_sign hl hzero).2.1
  have hc := hc.resolve_left hnc
  rw [(h'.resolve_left hnl).resolve_left hnc, toList_negativeZero]
  exact (channels?_sign hl hc).2.2

/-- A color in range is read back from its text exactly if no channel is the negative zero;
otherwise the text is turned away. -/
theorem readBack_iff_no_negativeZero (hl : l.IsDouble) (hc : c.IsDouble) (hh : h.IsDouble)
    (hmake : make l c h = .ok color) :
    (ofText color.text = .ok color ↔ l ≠ .zero true ∧ c ≠ .zero true ∧ h ≠ .zero true)
      ∧ (l = .zero true ∨ c = .zero true ∨ h = .zero true →
        ofText color.text = .error (.invalidColor color.text "expected oklch(L C H)")) := by
  obtain ⟨rfl, hl, hc, hh⟩ := channels_of_make hl hc hh hmake
  -- A sign in any of the channels is a character that none may have.
  by_cases hnegative : l = .zero true ∨ c = .zero true ∨ h = .zero true
  · have hnone := channels?_of_negativeZero (hl.imp_right And.right) (hc.imp_right And.right)
      hnegative
    have herror : ofText (Color.text ⟨l, c, h⟩)
        = .error (.invalidColor (Color.text ⟨l, c, h⟩) "expected oklch(L C H)") := by
      rw [ofText, hnone]
    rw [herror]
    refine ⟨iff_of_false (fun h => by cases h) ?_, fun _ => rfl⟩
    rintro ⟨hnl, hnc, hnh⟩
    exact hnegative.elim hnl (·.elim hnc hnh)
  · obtain ⟨hnl, hnc, hnh⟩ : l ≠ .zero true ∧ c ≠ .zero true ∧ h ≠ .zero true := by
      simpa only [not_or] using hnegative
    obtain ⟨hl, hpl⟩ := hl.resolve_left hnl
    obtain ⟨hc, hpc⟩ := hc.resolve_left hnc
    obtain ⟨hh, hph⟩ := hh.resolve_left hnh
    refine ⟨iff_of_true ?_ ⟨hnl, hnc, hnh⟩, fun h => absurd h hnegative⟩
    rw [ofText, toList_text]
    dsimp only
    rw [channels?_append hpl hpc hph]
    simp only [hl, hc, hh]
    exact hmake

lemma canonical_half : Canonical (2 ^ 52) (-53) :=
  ⟨by decide, by decide, by decide, .inl le_rfl⟩

/-- A color of a half lightness is read back. -/
theorem readBack_half :
    make (.finite false (2 ^ 52) (-53)) (.zero false) (.zero false)
      = .ok ⟨.finite false (2 ^ 52) (-53), .zero false, .zero false⟩
    ∧ ofText "oklch(0.5 0 0)" = .ok ⟨.finite false (2 ^ 52) (-53), .zero false, .zero false⟩ := by
  have hmake : make (.finite false (2 ^ 52) (-53)) (.zero false) (.zero false)
      = .ok ⟨.finite false (2 ^ 52) (-53), .zero false, .zero false⟩ := by decide +kernel
  have hhalf : (Binary64.finite false (2 ^ 52) (-53)).IsDouble := canonical_half
  have hzero : (Binary64.zero false).IsDouble := canonical_zero
  have hread := (readBack_iff_no_negativeZero hhalf hzero hzero hmake).1
  exact ⟨hmake, hread.mpr (by decide)⟩

/-- Black with a negative lightness of zero: a color in range whose text is no color. -/
theorem not_readBack_negativeZero :
    make (.zero true) (.zero false) (.zero false) = .ok ⟨.zero true, .zero false, .zero false⟩
      ∧ Color.text ⟨.zero true, .zero false, .zero false⟩ = "oklch(-0 0 0)"
      ∧ ofText "oklch(-0 0 0)"
        = .error (.invalidColor "oklch(-0 0 0)" "expected oklch(L C H)") := by
  refine ⟨?_, ?_, ?_⟩
  · decide +kernel
  · decide +kernel
  · decide +kernel

end Color

end Restyle
