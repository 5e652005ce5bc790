import Restyle.Proofs.Number.Nearest
import Restyle.Proofs.Theme.Printed

/-!
The texts that are colors.

* `Spells`: a text of this form spells three rational numbers;
* `InRange`: the values of the channels are in range;
* `checked_eq_ok_iff`: the ranges are checked on the values;
* `ofText_eq_ok_iff`: the texts of this form whose numbers are rounded to channels in range are
  read, no others, and what is read are these channels.
-/

namespace Restyle.Color

open Binary64 (RoundsTo roundsTo_of_isFinite)

/-! ### The form of a color -/

/-- A row of blanks, at least one. -/
def IsGap (blanks : List Char) : Prop :=
  blanks ≠ [] ∧ ∀ c ∈ blanks, Text.isBlank c = true

/-- A text has the form of a color, and these are the numbers in it: three decimals with neither
sign nor exponent, and blanks between them. -/
inductive Spells : List Char → ℚ → ℚ → ℚ → Prop
  | mk {l c h left right : List Char} {ql qc qh : ℚ} (hl : Binary64.Spells l ql)
      (hleft : IsGap left)
    (hc : Binary64.Spells c qc) (hright : IsGap right) (hh : Binary64.Spells h qh) :
    Spells ("oklch(".toList ++ (l ++ (left ++ (c ++ (right ++ (h ++ [')'])))))) ql qc qh

section Form

variable {text rest digits : List Char}

/-- The channel at the beginning of a text, and what follows. -/
def channel? (text : List Char) : Option (List Char × List Char) :=
  let digits := text.takeWhile isChannelChar
  if digits.isEmpty then none else some (digits, text.drop digits.length)

/-- What follows the blanks at the beginning of a text, if there are any. -/
def behindBlanks? (text : List Char) : Option (List Char) :=
  match text with
  | c :: rest => if Text.isBlank c then some (rest.dropWhile Text.isBlank) else none
  | [] => none

/-- The three channels are read one after the other, with blanks between them. -/
lemma channels?_eq (text : List Char) :
    channels? text =
      if "oklch(".toList.isPrefixOf text then do
        let (l, rest) ← channel? (text.drop "oklch(".toList.length)
        let rest ← behindBlanks? rest
        let (c, rest) ← channel? rest
        let rest ← behindBlanks? rest
        let (h, rest) ← channel? rest
        if rest = [')'] then some (l, c, h) else none
      else none := rfl

/-- A channel is the front of the text it is read from. -/
lemma eq_append_of_channel? (h : channel? text = some (digits, rest)) : text = digits ++ rest := by
  unfold channel? at h
  dsimp only at h
  split_ifs at h
  cases h
  exact (List.prefix_iff_eq_append.mp (List.takeWhile_prefix _)).symm

/-- What is passed over as blanks is a gap. -/
lemma exists_gap_of_behindBlanks? (h : behindBlanks? text = some rest) :
    ∃ gap, IsGap gap ∧ text = gap ++ rest := by
  unfold behindBlanks? at h
  split at h
  · next c behind =>
    split_ifs at h with hc
    cases h
    refine ⟨c :: behind.takeWhile Text.isBlank, ⟨List.cons_ne_nil _ _, ?_⟩, ?_⟩
    · exact List.forall_mem_cons.mpr ⟨hc, fun d hd => List.mem_takeWhile_imp hd⟩
    · rw [List.cons_append, List.takeWhile_append_dropWhile]
  · cases h

/-- A text in which channels are found is made of them, with blanks between them. -/
lemma exists_gaps_of_channels? {l c h : List Char} (hfound : channels? text = some (l, c, h)) :
    ∃ left right, IsGap left ∧ IsGap right
      ∧ text = "oklch(".toList ++ (l ++ (left ++ (c ++ (right ++ (h ++ [')']))))) := by
  rw [channels?_eq] at hfound
  split_ifs at hfound with hlead
  obtain ⟨⟨l, behindL⟩, hl, hfound⟩ := Option.bind_eq_some_iff.mp hfound
  obtain ⟨fromC, hleft, hfound⟩ := Option.bind_eq_some_iff.mp hfound
  obtain ⟨⟨c, behindC⟩, hc, hfound⟩ := Option.bind_eq_some_iff.mp hfound
  obtain ⟨fromH, hright, hfound⟩ := Option.bind_eq_some_iff.mp hfound
  obtain ⟨⟨h, last⟩, hh, hfound⟩ := Option.bind_eq_some_iff.mp hfound
  dsimp only at hleft hright hfound
  split_ifs at hfound with hlast
  cases hfound
  obtain ⟨left, hgap, rfl⟩ := exists_gap_of_behindBlanks? hleft
  obtain ⟨right, hgap', rfl⟩ := exists_gap_of_behindBlanks? hright
  refine ⟨left, right, hgap, hgap', ?_⟩
  have htext := List.prefix_iff_eq_append.mp (List.isPrefixOf_iff_prefix.mp hlead)
  rw [← htext, eq_append_of_channel? hl, eq_append_of_channel? hc, eq_append_of_channel? hh,
    hlast]

/-- The numbers in a text of the form of a color are found as its channels. -/
lemma Spells.exists_channels {ql qc qh : ℚ} (hspells : Spells text ql qc qh) :
    ∃ l c h, channels? text = some (l, c, h)
      ∧ Binary64.Spells l ql ∧ Binary64.Spells c qc ∧ Binary64.Spells h qh := by
  obtain @⟨l, c, h, left, right, ql, qc, qh, hl, ⟨hne, hleft⟩, hc, ⟨hne', hright⟩, hh⟩ := hspells
  obtain ⟨b, left, rfl⟩ := List.exists_cons_of_ne_nil hne
  obtain ⟨d, right, rfl⟩ := List.exists_cons_of_ne_nil hne'
  exact ⟨l, c, h, channels?_of_blanks hl.isPlain hc.isPlain hh.isPlain hleft hright, hl, hc, hh⟩

end Form

/-! ### The ranges -/

/-- The values of the channels are in range: the lightness from 0 to 1, the chroma from 0 to the
number nearest to 0.4, and the hue from 0 up to 360. -/
structure InRange (c : Color) : Prop where
  zero_le_lightness : 0 ≤ c.lightness.value
  lightness_le : c.lightness.value ≤ 1
  zero_le_chroma : 0 ≤ c.chroma.value
  chroma_le : ∀ {top}, RoundsTo (2 / 5) top → c.chroma.value ≤ top.value
  zero_le_hue : 0 ≤ c.hue.value
  hue_lt : c.hue.value < 360

section Ranges

variable {q ql qc qh : ℚ} {x : Binary64} {c color : Color}

lemma roundsTo_zero : RoundsTo 0 zero :=
  Binary64.roundsTo_zero

lemma value_zero : zero.value = 0 := by
  rw [zero, Binary64.zero, Binary64.value_finite_false, Nat.cast_zero, zero_mul]

lemma roundsTo_tenths {n : ℕ} (h : (n : ℚ) / 10 < Binary64.overflow) :
    RoundsTo ((n : ℚ) / 10) (tenths n) := by
  refine (Binary64.roundsTo_iff (by positivity)).mpr ⟨h, ?_⟩
  rw [tenths, Binary64.ofDecimal_eq_nearest, zpow_neg_one, ← div_eq_mul_inv]

lemma value_tenths_ten : (tenths 10).value = 1 := by
  have hten : tenths 10 = .finite false (2 ^ 52) (-52) := by decide +kernel
  rw [hten, Binary64.value_finite_false]
  norm_num

lemma value_tenths_turn : (tenths 3600).value = 360 := by
  have hturn : tenths 3600 = .finite false (360 * 2 ^ 44) (-44) := by decide +kernel
  rw [hturn, Binary64.value_finite_false]
  norm_num

/-- No number up to a full turn overflows. -/
lemma lt_overflow {q : ℚ} (h : q ≤ 360) : q < Binary64.overflow := by
  have hpower : (2 : ℚ) ^ (9 : ℤ) ≤ 2 ^ (1023 : ℤ) :=
    zpow_le_zpow_right₀ (by norm_num) (by norm_num)
  calc q ≤ 360 := h
    _ < 2 ^ (9 : ℤ) := by norm_num
    _ ≤ 2 ^ (1023 : ℤ) := hpower
    _ ≤ Binary64.overflow := Binary64.le_overflow

lemma lightnessInRange_iff (hl : RoundsTo ql c.lightness) :
    c.lightnessInRange = true ↔ 0 ≤ c.lightness.value ∧ c.lightness.value ≤ 1 := by
  have hone := roundsTo_tenths (n := 10) (lt_overflow (by norm_num))
  rw [lightnessInRange, Bool.and_eq_true, roundsTo_zero.le_iff hl, hl.le_iff hone,
    value_tenths_ten, value_zero]

/-- The check on the chroma asks for a value from zero to the double nearest to two fifths. -/
lemma chromaInRange_iff (hc : RoundsTo qc c.chroma) :
    c.chromaInRange = true
      ↔ 0 ≤ c.chroma.value ∧ ∀ {top}, RoundsTo (2 / 5) top → c.chroma.value ≤ top.value := by
  have htop : RoundsTo (2 / 5) (tenths 4) := by
    have h := roundsTo_tenths (n := 4) (lt_overflow (by norm_num))
    rwa [show ((4 : ℕ) : ℚ) / 10 = 2 / 5 by norm_num] at h
  rw [chromaInRange, Bool.and_eq_true, roundsTo_zero.le_iff hc, hc.le_iff htop, value_zero]
  refine and_congr_right fun _ => ⟨fun h top hround => ?_, fun h => h htop⟩
  rwa [hround.unique htop]

/-- The check on the hue asks for a value from zero to below a full turn. -/
lemma hueInRange_iff (hh : RoundsTo qh c.hue) :
    c.hueInRange = true ↔ 0 ≤ c.hue.value ∧ c.hue.value < 360 := by
  have hturn := roundsTo_tenths (n := 3600) (lt_overflow (by norm_num))
  rw [hueInRange, Bool.and_eq_true, roundsTo_zero.le_iff hh, Binary64.lt, Bool.and_eq_true,
    Bool.not_eq_true', ← Bool.not_eq_true, hh.le_iff hturn, hturn.le_iff hh, value_tenths_turn,
    not_le, and_iff_right_of_imp le_of_lt, value_zero]

/-- The ranges are checked on the values of the channels. -/
theorem checked_eq_ok_iff (hl : RoundsTo ql c.lightness) (hc : RoundsTo qc c.chroma)
    (hh : RoundsTo qh c.hue) : checked c = .ok color ↔ color = c ∧ c.InRange := by
  have hrange : c.InRange ↔ c.lightnessInRange = true ∧ c.chromaInRange = true
      ∧ c.hueInRange = true := by
    rw [lightnessInRange_iff hl, chromaInRange_iff hc, hueInRange_iff hh]
    exact ⟨fun h => ⟨⟨h.zero_le_lightness, h.lightness_le⟩, ⟨h.zero_le_chroma, h.chroma_le⟩,
        h.zero_le_hue, h.hue_lt⟩,
      fun ⟨⟨h, h'⟩, ⟨k, k'⟩, u, u'⟩ => ⟨h, h', k, k', u, u'⟩⟩
  rw [hrange]
  unfold checked
  cases c.lightnessInRange
  · exact iff_of_false nofun fun h => nomatch h.2.1
  cases c.chromaInRange
  · exact iff_of_false nofun fun h => nomatch h.2.2.1
  cases c.hueInRange
  · exact iff_of_false nofun fun h => nomatch h.2.2.2
  · exact ⟨fun h => ⟨(Except.ok.inj h).symm, rfl, rfl, rfl⟩, fun h => h.1 ▸ rfl⟩

end Ranges

/-- The texts of the form of a color are read whose numbers are rounded to channels in range, no
others, and what is read are these channels. -/
theorem ofText_eq_ok_iff {s : String} {color : Color} :
    ofText s = .ok color ↔ ∃ l c h, Spells s.toList l c h ∧ RoundsTo l color.lightness
      ∧ RoundsTo c color.chroma ∧ RoundsTo h color.hue ∧ color.InRange := by
  constructor
  · intro hread
    unfold ofText at hread
    split at hread
    · cases hread
    · next l c h hchannels =>
      split at hread
      · next x y z hl hc hh =>
        obtain ⟨left, right, hleft, hright, htext⟩ := exists_gaps_of_channels? hchannels
        obtain ⟨ql, hql, rfl⟩ := Binary64.ofUnsigned?_eq_some_iff.mp hl
        obtain ⟨qc, hqc, rfl⟩ := Binary64.ofUnsigned?_eq_some_iff.mp hc
        obtain ⟨qh, hqh, rfl⟩ := Binary64.ofUnsigned?_eq_some_iff.mp hh
        obtain ⟨-, hfl, hfc, hfh⟩ := isFinite_of_checked hread
        have hl := roundsTo_of_isFinite hql.nonneg hfl
        have hc := roundsTo_of_isFinite hqc.nonneg hfc
        have hh := roundsTo_of_isFinite hqh.nonneg hfh
        obtain ⟨rfl, hrange⟩ := (checked_eq_ok_iff hl hc hh).mp hread
        exact ⟨ql, qc, qh, htext ▸ .mk hql hleft hqc hright hqh, hl, hc, hh, hrange⟩
      · cases hread
  · rintro ⟨ql, qc, qh, hspells, hl, hc, hh, hrange⟩
    obtain ⟨l, c, h, hchannels, hsl, hsc, hsh⟩ := hspells.exists_channels
    have hreadl := Binary64.ofUnsigned?_eq_some_iff.mpr
      ⟨ql, hsl, ((Binary64.roundsTo_iff hsl.nonneg).mp hl).2⟩
    have hreadc := Binary64.ofUnsigned?_eq_some_iff.mpr
      ⟨qc, hsc, ((Binary64.roundsTo_iff hsc.nonneg).mp hc).2⟩
    have hreadh := Binary64.ofUnsigned?_eq_some_iff.mpr
      ⟨qh, hsh, ((Binary64.roundsTo_iff hsh.nonneg).mp hh).2⟩
    rw [ofText, hchannels]
    simp only [hreadl, hreadc, hreadh]
    exact (checked_eq_ok_iff hl hc hh).mpr ⟨rfl, hrange⟩

-- A digit of another script has the form of a channel, but is no decimal.
example : ofText "oklch(\u0663 0 0)"
    = .error (.invalidColor "oklch(\u0663 0 0)" "channel is not a number") := by decide +kernel

end Restyle.Color
