import Restyle.Proofs.Json.Records
import Restyle.Proofs.Number.ReadBack
import Restyle.Theme.Color
import Restyle.Theme.Radius

/-!
Colors and radii are read again from their texts.

* `Color.isFinite_of_checked`: the channels of a color in range are finite;
* `Color.channels?_append`: the channels of a printed color are found in its text;
* `Color.ofText_text`, `Radius.ofText_text`: a color that was read is read again as it is printed,
  and so is a radius unless it is infinite;
* `Color.notMem_text`: its text is one line;
* `Color.Stable`, `Radius.Stable`: what is decoded again from its JSON value.
-/

namespace Restyle

namespace Decoder

section Parsed

variable {α ε : Type} {parse : String → Except ε α} {tell : ε → String} {a : α}

/-- What a parsing decoder gives was parsed from a text. -/
lemma exists_of_parsed {levels : ℕ} {r : Reading}
    (h : parsed (fun s => (parse s).mapError tell) levels r = .ok a) : ∃ s, parse s = .ok a := by
  unfold parsed at h
  split at h
  · cases h
  · next s hs =>
    dsimp only at h
    cases hparse : parse s with
    | error e =>
      rw [hparse] at h
      cases h
    | ok b =>
      rw [hparse] at h
      cases h
      exact ⟨s, hparse⟩

lemma parsed_ofJson {s : String} (h : parse s = .ok a) (levels : ℕ) :
    parsed (fun s => (parse s).mapError tell) levels (.ofJson (.string s)) = .ok a := by
  simp only [parsed, Reading.ofJson, string, h]
  rfl

end Parsed

end Decoder

namespace Binary64

/-- A number between zero and a finite one is finite. -/
lemma isFinite_of_zero_le {x y : Binary64} (hlow : (zero false).le x = true)
    (hhigh : x.le y = true) (hy : y.IsFinite) : x.IsFinite := by
  cases y with
  | nan | infinity negative => exact hy.elim
  | finite s m e =>
    cases x with
    | nan => cases hlow
    | infinity negative =>
      cases negative
      · cases hhigh
      · cases hlow
    | finite s' m' e' => trivial

end Binary64

namespace Color

open Binary64

/-! ### The channels of a color -/

/-- A color in range is made of finite channels. -/
lemma isFinite_of_checked {c c' : Color} (h : checked c = .ok c') :
    c' = c ∧ c.lightness.IsFinite ∧ c.chroma.IsFinite ∧ c.hue.IsFinite := by
  have htenths : (tenths 10).IsFinite ∧ (tenths 4).IsFinite ∧ (tenths 3600).IsFinite := by
    decide +kernel
  obtain ⟨hten, hfour, hturn⟩ := htenths
  unfold checked at h
  split_ifs at h with hlightness hchroma hhue
  cases h
  simp only [Bool.not_eq_true', Bool.not_eq_false, lightnessInRange, chromaInRange, hueInRange,
    Binary64.lt, Bool.and_eq_true] at hlightness hchroma hhue
  exact ⟨rfl, isFinite_of_zero_le hlightness.1 hlightness.2 hten,
    isFinite_of_zero_le hchroma.1 hchroma.2 hfour,
    isFinite_of_zero_le hhue.1 hhue.2.1 hturn⟩

/-- Digits and points may stand in a channel. -/
lemma isChannelChar_of_isPlain {text : List Char} (h : IsPlain text) :
    ∀ c ∈ text, isChannelChar c = true := by
  intro c hc
  obtain hdigit | rfl := h.2 c hc
  · simp only [Binary64.isDigit, Bool.and_eq_true, decide_eq_true_eq, Char.le_def] at hdigit
    have hrange : 48 ≤ c.toNat ∧ c.toNat ≤ 57 := hdigit
    simp [isChannelChar, Text.isDecimalDigit, Text.digitRanges, hrange]
  · rfl

/-- Digits and points are no blanks. -/
lemma not_isBlank_of_isPlain {text : List Char} (h : IsPlain text) :
    ∀ c ∈ text, Text.isBlank c = false := by
  intro c hc
  obtain hdigit | rfl := h.2 c hc
  · simp only [Binary64.isDigit, Bool.and_eq_true, decide_eq_true_eq] at hdigit
    have hlow : 48 ≤ c.toNat := hdigit.1
    have hhigh : c.toNat ≤ 57 := hdigit.2
    refine Bool.eq_false_iff.mpr fun hblank => ?_
    simp only [Text.isBlank, Bool.or_eq_true, Bool.and_eq_true, decide_eq_true_eq] at hblank
    have htab : ¬ c ≤ '\r' := fun hle => absurd (show c.toNat ≤ 13 from hle) (by omega)
    have hspace : ¬ '\u2000' ≤ c := fun hle => absurd (show 8192 ≤ c.toNat from hle) (by omega)
    simp only [htab, hspace, and_false, false_and, false_or, or_false] at hblank
    obtain ((((((((rfl | rfl) | rfl) | rfl) | rfl) | rfl) | rfl) | rfl) | rfl) := hblank
    all_goals simp at hlow hhigh
  · rfl

/-- A character in a gap between the ranges of digits is no digit. -/
lemma isChannelChar_of_gap {low high : ℕ} {c : Char}
    (hgap : ∀ range ∈ Text.digitRanges, range.2 < low ∨ high < range.1)
    (hlow : low ≤ c.toNat) (hhigh : c.toNat ≤ high) (hpoint : c ≠ '.') :
    isChannelChar c = false := by
  rw [isChannelChar, Bool.or_eq_false_iff, Text.isDecimalDigit, List.any_eq_false]
  refine ⟨fun range hrange => ?_, decide_eq_false hpoint⟩
  have := hgap range hrange
  simp only [Bool.and_eq_true, decide_eq_true_eq]
  omega

/-- No blank is a digit of any script. -/
lemma isChannelChar_of_isBlank {c : Char} (h : Text.isBlank c = true) :
    isChannelChar c = false := by
  simp only [Text.isBlank, Bool.or_eq_true, Bool.and_eq_true, decide_eq_true_eq, or_assoc] at h
  obtain h | rfl | rfl | rfl | rfl | h | rfl | rfl | rfl | rfl | rfl := h
  · refine isChannelChar_of_gap
      (show ∀ range ∈ Text.digitRanges, range.2 < 9 ∨ 13 < range.1 by decide) h.1 h.2 ?_
    rintro rfl
    exact absurd h.2 (by decide)
  · rfl
  · rfl
  · rfl
  · rfl
  · refine isChannelChar_of_gap
      (show ∀ range ∈ Text.digitRanges, range.2 < 8192 ∨ 8202 < range.1 by decide) h.1 h.2 ?_
    rintro rfl
    exact absurd h.1 (by decide)
  all_goals rfl

section Channels

variable {l c h rest : List Char}

lemma takeWhile_channel (hl : IsPlain l) {d : Char} (hd : isChannelChar d = false) :
    (l ++ d :: rest).takeWhile isChannelChar = l := by
  rw [List.takeWhile_append_of_pos (isChannelChar_of_isPlain hl), List.takeWhile_cons, hd]
  exact List.append_nil l

lemma dropWhile_channel (hl : IsPlain l) :
    (l ++ rest).dropWhile Text.isBlank = l ++ rest := by
  obtain ⟨d, l, rfl⟩ := List.exists_cons_of_ne_nil hl.1
  have hd := not_isBlank_of_isPlain hl d List.mem_cons_self
  rw [List.cons_append, List.dropWhile_cons_of_neg (by rw [hd]; exact Bool.false_ne_true)]

/-- The channels of a color are found in a text, however many blanks stand between them. -/
lemma channels?_of_blanks (hl : IsPlain l) (hc : IsPlain c) (hh : IsPlain h) {b d : Char}
    {left right : List Char} (hb : ∀ x ∈ b :: left, Text.isBlank x = true)
    (hd : ∀ x ∈ d :: right, Text.isBlank x = true) :
    channels? ("oklch(".toList ++ (l ++ b :: (left ++ (c ++ d :: (right ++ (h ++ [')']))))))
      = some (l, c, h) := by
  have hclose : isChannelChar ')' = false := rfl
  obtain ⟨hb, hleft⟩ := List.forall_mem_cons.mp hb
  obtain ⟨hd, hright⟩ := List.forall_mem_cons.mp hd
  have hlead (text : List Char) : "oklch(".toList.isPrefixOf ("oklch(".toList ++ text) = true :=
    List.isPrefixOf_iff_prefix.mpr (List.prefix_append _ _)
  unfold channels?
  simp only [hlead, if_true, List.drop_left, takeWhile_channel hl (isChannelChar_of_isBlank hb),
    takeWhile_channel hc (isChannelChar_of_isBlank hd), takeWhile_channel hh hclose,
    List.dropWhile_append_of_pos hleft, List.dropWhile_append_of_pos hright,
    dropWhile_channel hc, dropWhile_channel hh, List.isEmpty_iff, hl.1, hc.1, hh.1, if_false, hb,
    hd, bind, Option.bind]

/-- The channels of a printed color are found in its text. -/
lemma channels?_append (hl : IsPlain l) (hc : IsPlain c) (hh : IsPlain h) :
    channels? ("oklch(".toList ++ (l ++ ' ' :: (c ++ ' ' :: (h ++ [')'])))) = some (l, c, h) := by
  have hspace : ∀ d ∈ [' '], Text.isBlank d = true := List.forall_mem_singleton.mpr rfl
  have hchannels := channels?_of_blanks hl hc hh hspace hspace
  rwa [List.nil_append, List.nil_append] at hchannels

end Channels

lemma toList_text (c : Color) :
    c.text.toList = "oklch(".toList ++ (c.lightness.plain.toList ++ ' ' ::
      (c.chroma.plain.toList ++ ' ' :: (c.hue.plain.toList ++ [')']))) := by
  simp only [text, String.toList_append, List.append_assoc]
  rfl

/-- The channels of a color that was read are printed as decimals and read again from them. -/
lemma plain_of_ofText {s : String} {c : Color} (h : ofText s = .ok c) :
    checked c = .ok c ∧ ∀ x ∈ [c.lightness, c.chroma, c.hue],
      ofUnsigned? x.plain.toList = some x ∧ IsPlain x.plain.toList := by
  unfold ofText at h
  split at h
  · cases h
  · split at h
    · next l c' u hl hc hh =>
      obtain ⟨rfl, hfl, hfc, hfh⟩ := isFinite_of_checked h
      refine ⟨h, List.forall_mem_cons.mpr ⟨ofUnsigned?_again hl hfl, List.forall_mem_cons.mpr
        ⟨ofUnsigned?_again hc hfc, List.forall_mem_singleton.mpr (ofUnsigned?_again hh hfh)⟩⟩⟩
    · cases h

/-- A color that was read is read again as it is printed. -/
theorem ofText_text {s : String} {c : Color} (h : ofText s = .ok c) : ofText c.text = .ok c := by
  obtain ⟨hchecked, hplain⟩ := plain_of_ofText h
  obtain ⟨hl, hpl⟩ := hplain c.lightness (by simp)
  obtain ⟨hc, hpc⟩ := hplain c.chroma (by simp)
  obtain ⟨hh, hph⟩ := hplain c.hue (by simp)
  rw [ofText, toList_text, channels?_append hpl hpc hph]
  simp only [hl, hc, hh]
  exact hchecked

/-- A color that was read is printed on one line. -/
lemma notMem_text {s : String} {c : Color} (h : ofText s = .ok c) : '\n' ∉ c.text.toList := by
  have hbreak : ∀ x ∈ [c.lightness, c.chroma, c.hue], '\n' ∉ x.plain.toList := fun x hx hmem =>
    absurd (not_isBlank_of_isPlain ((plain_of_ofText h).2 x hx).2 _ hmem) (by decide)
  simp only [List.forall_mem_cons] at hbreak
  simp [toList_text, hbreak]

/-- A color that is decoded again from its JSON value. -/
def Stable (c : Color) : Prop :=
  ∀ levels, decode levels (.ofJson c.encode) = .ok c

lemma stable_of_decode {levels : ℕ} {r : Reading} {c : Color} (h : decode levels r = .ok c) :
    c.Stable := by
  obtain ⟨s, hs⟩ := Decoder.exists_of_parsed h
  exact Decoder.parsed_ofJson (ofText_text hs)

end Color

namespace Radius

/-- What stands before `rem` is found. -/
lemma beforeRem?_append (text : String) : beforeRem? (text ++ "rem") = some text.toList := by
  have hreverse : (text ++ "rem").toList.reverse = 'm' :: 'e' :: 'r' :: text.toList.reverse := by
    rw [String.toList_append, List.reverse_append]
    rfl
  rw [beforeRem?, hreverse]
  simp only [List.reverse_reverse]

/-- The number of a radius that was read is printed as a decimal and read again from it, unless it
is infinite. -/
lemma plain_of_ofText {s : String} {n : Binary64} (h : ofText s = .ok (.rem n))
    (hfinite : n.IsFinite) :
    Binary64.ofUnsigned? n.plain.toList = some n ∧ Binary64.IsPlain n.plain.toList := by
  unfold ofText at h
  split_ifs at h
  · cases h
  · cases h
  split at h
  · next n' hn =>
    cases h
    obtain ⟨t, -, ht⟩ := Option.bind_eq_some_iff.mp hn
    exact Binary64.ofUnsigned?_again ht hfinite
  · cases h

/-- A radius that was read is read again as it is printed, unless it is infinite. -/
theorem ofText_text {s : String} {r : Radius} (h : ofText s = .ok r)
    (hfinite : ∀ n, r = .rem n → n.IsFinite) : ofText r.text = .ok r := by
  cases r with
  | zero => rfl
  | pill => rfl
  | rem n =>
    obtain ⟨hagain, -⟩ := plain_of_ofText h (hfinite n rfl)
    have hrem := beforeRem?_append n.plain
    have hzero : n.plain ++ "rem" ≠ "0" := by
      intro heq
      rw [heq] at hrem
      cases hrem
    have hpill : n.plain ++ "rem" ≠ "9999px" := by
      intro heq
      rw [heq] at hrem
      cases hrem
    rw [text, ofText, if_neg hzero, if_neg hpill, hrem, Option.bind_some, hagain]

/-- A radius that is decoded again from its JSON value. -/
def Stable (r : Radius) : Prop :=
  ∀ levels, decode levels (.ofJson r.encode) = .ok r

end Radius

end Restyle
