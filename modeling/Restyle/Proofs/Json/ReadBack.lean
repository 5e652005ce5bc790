import Restyle.Proofs.Json.Records

/-!
Values that are read back from a text on many lines.

* `ReadBack`: a value that is read back as it is printed, together with the numbers in it;
* `ReadBack.again`, `readBack_of_again`: that is so if and only if the value is decoded from its own
  reading and its numbers are kept;
* `Worded`: a value without numbers that is decoded from its own reading; whatever is made of
  strings is one, unless it is too deep or a key comes twice (`worded_array`, `worded_object`).
-/

namespace Restyle.Json

/-- A value that is read back as it is printed on many lines, and so is each number in it. -/
structure ReadBack (v : Json) : Prop where
  value : Decoder.text Decoder.json v.pretty = .ok v
  number : ∀ n ∈ v.numbers, Decoder.text Decoder.json (Json.number n).pretty = .ok (.number n)

/-- A value without numbers that is decoded from its own reading at a depth. -/
structure Worded (levels : ℕ) (v : Json) : Prop where
  again : v.Again levels
  numbers : v.numbers = []

/-- A reading that is decoded to a number is that number. -/
lemma eq_number_of_json {levels : ℕ} {r : Reading} {n : JsonNumber}
    (h : Decoder.json levels r = .ok (.number n)) : r = .number (.ok n) := by
  cases r with
  | number e =>
    obtain ⟨m, hm, heq⟩ := Decoder.map_eq_ok_iff.mp h
    cases heq
    rw [hm]
  | string e =>
    obtain ⟨m, hm, heq⟩ := Decoder.map_eq_ok_iff.mp h
    cases heq
  | array rs fault =>
    obtain ⟨-, vs, -, heq⟩ := Decoder.json_array h
    cases heq
  | object ms fault =>
    obtain ⟨-, vs, -, heq⟩ := Decoder.json_object h
    cases heq
  | null | bool _ | broken _ _ | unreached _ => cases h

/-- A number that is read back by the decoder is kept. -/
lemma kept_of_text {n : JsonNumber}
    (h : Decoder.text Decoder.json (number n).pretty = .ok (.number n)) : (number n).Kept := by
  have hpretty : (number n).pretty = (number n).compact := rfl
  unfold Decoder.text at h
  rw [hpretty] at h
  dsimp only at h
  split at h
  · cases h
  · next v hv =>
    split at h
    · cases h
    · next hmore =>
      cases h
      have hvalue := eq_number_of_json hv
      rw [Kept]
      generalize Reading.ofText (number n).compact = document at hvalue hmore
      obtain ⟨value, more⟩ := document
      dsimp only at hvalue hmore
      rw [hvalue, Bool.eq_false_iff.mpr hmore]
      rfl

section Text

variable {v : Json}

/-- Decoding a text is decoding what it is read as. -/
lemma text_of_ofText {α : Type} {d : Decoder α} {a : α} {text : String}
    (hread : Reading.ofText text = ⟨.ofJson v, false⟩)
    (h : d Decoder.maxDepth (.ofJson v) = .ok a) : d.text text = .ok a := by
  rw [Decoder.text, hread]
  simp only [h]
  rfl

/-- What is decoded from a value without numbers is decoded from its printed form. -/
lemma text_compact {α : Type} {d : Decoder α} {a : α} (hv : v.numbers = [])
    (h : d Decoder.maxDepth (.ofJson v) = .ok a) : d.text v.compact = .ok a := by
  refine text_of_ofText (kept_of_numbers v fun n hn => ?_) h
  rw [hv] at hn
  cases hn

lemma text_pretty {α : Type} {d : Decoder α} {a : α} (hv : ∀ n ∈ v.numbers, (number n).Kept)
    (h : d Decoder.maxDepth (.ofJson v) = .ok a) : d.text v.pretty = .ok a :=
  text_of_ofText (ofText_pretty v hv) h

lemma ReadBack.kept (h : v.ReadBack) : ∀ n ∈ v.numbers, (Json.number n).Kept :=
  fun n hn => kept_of_text (h.number n hn)

/-- A value that is read back is decoded from its own reading. -/
lemma ReadBack.again (h : v.ReadBack) : v.Again Decoder.maxDepth := by
  have hvalue := h.value
  unfold Decoder.text at hvalue
  rw [ofText_pretty v h.kept] at hvalue
  dsimp only at hvalue
  split at hvalue
  · cases hvalue
  · next w hw =>
    cases hvalue
    exact hw

/-- A value is read back if it is decoded from its own reading and its numbers are kept. -/
lemma readBack_of_again (h : v.Again Decoder.maxDepth) (hv : ∀ n ∈ v.numbers, (number n).Kept) :
    v.ReadBack where
  value := text_pretty hv h
  number n hn := text_pretty (fun m hm => by
    obtain rfl := List.mem_singleton.mp hm
    exact hv m hn) rfl

lemma Worded.readBack (h : v.Worded Decoder.maxDepth) : v.ReadBack :=
  readBack_of_again h.again fun n hn => by
    rw [h.numbers] at hn
    cases hn

end Text

section Worded

variable {levels : ℕ}

lemma worded_string (levels : ℕ) (s : String) : (string s).Worded levels := ⟨rfl, rfl⟩

/-- An array of values without numbers has none. -/
lemma worded_array (hlevels : 2 ≤ levels) {vs : List Json} (h : ∀ v ∈ vs, v.Worded (levels - 1)) :
    (array vs).Worded levels where
  again := Decoder.again_array hlevels fun v hv => (h v hv).again
  numbers := by
    rw [numbers, itemNumbers_eq_flatMap]
    exact List.flatMap_eq_nil_iff.mpr fun v hv => (h v hv).numbers

/-- An object of values without numbers has none. -/
lemma worded_object (hlevels : 2 ≤ levels) {ms : List (String × Json)}
    (h : ∀ m ∈ ms, m.2.Worded (levels - 1)) (hkeys : (ms.map Prod.fst).Nodup) :
    (object ms).Worded levels where
  again := Decoder.again_object hlevels (fun m hm => (h m hm).again) hkeys
  numbers := by
    rw [numbers, memberNumbers_eq_flatMap]
    exact List.flatMap_eq_nil_iff.mpr fun m hm => (h m hm).numbers

lemma worded_strings (hlevels : 2 ≤ levels) (ss : List String) : (strings ss).Worded levels :=
  worded_array hlevels (List.forall_mem_map.mpr fun s _ => worded_string _ s)

end Worded

end Restyle.Json
