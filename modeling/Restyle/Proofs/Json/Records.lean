import Restyle.Proofs.Json.Decoding

/-!
Decoding lists and records.

* `mem_list`, `list_ofJson`: what is in a list is decoded from its items, and a list that is written
  is decoded item by item;
* `Field.Preserves`: a field keeps what holds of the record;
* `Record.preserves_decode`: what all fields keep holds of a decoded record, whether it was an
  object or an array;
* `Record.members_cons`, `Record.members_append`: the members of an object are decoded one after
  another.
-/

namespace Restyle

lemma Reading.ofMembers_append (ms more : List (String × Json)) :
    ofMembers (ms ++ more) = ofMembers ms ++ ofMembers more := by
  induction ms with
  | nil => rfl
  | cons m ms ih => rw [List.cons_append, ofMembers, ih, ofMembers, List.cons_append]

lemma Json.forall_mem_member? {P : Json → Prop} {name : String} {value : Option Json} :
    (∀ m ∈ member? name value, P m.2) ↔ ∀ v ∈ value, P v := by
  cases value with
  | none => exact ⟨nofun, nofun⟩
  | some v => simp [member?]

lemma Json.map_fst_member?_sublist (name : String) (value : Option Json) :
    ((member? name value).map Prod.fst).Sublist [name] := by
  cases value with
  | none => exact List.nil_sublist _
  | some v => exact List.Sublist.refl _

namespace Decoder

/-! ### Lists -/

section Lists

variable {α β : Type} {d : Decoder α} {levels : ℕ} {r : Reading}

/-- A nullable value is absent or decoded. -/
lemma nullable_cases {o : Option α} (h : nullable d levels r = .ok o) :
    o = none ∨ ∃ a, o = some a ∧ d levels r = .ok a := by
  cases r
  case null =>
    cases h
    exact .inl rfl
  all_goals
    obtain ⟨a, ha, rfl⟩ := map_eq_ok_iff.mp h
    exact .inr ⟨a, rfl, ha⟩

lemma nullable_of_ok {a : α} (h : d levels r = .ok a) (hr : r ≠ .null) :
    nullable d levels r = .ok (some a) := by
  cases r
  case null => exact absurd rfl hr
  all_goals
    simp only [nullable, h]
    rfl

/-- Every decoded item comes from a reading. -/
lemma mem_items {rs : List Reading} {as : List α} (h : items d levels rs = .ok as) :
    ∀ a ∈ as, ∃ r ∈ rs, d levels r = .ok a := by
  induction rs generalizing as with
  | nil =>
    cases h
    exact nofun
  | cons r rs ih =>
    rw [items] at h
    split at h
    · cases h
    · next a ha =>
      obtain ⟨as, has, rfl⟩ := map_eq_ok_iff.mp h
      refine List.forall_mem_cons.mpr ⟨⟨r, List.mem_cons_self, ha⟩, fun b hb => ?_⟩
      obtain ⟨r', hr', hb⟩ := ih has b hb
      exact ⟨r', List.mem_cons_of_mem _ hr', hb⟩

/-- What is in a list is decoded from an item, one level further down. -/
lemma mem_list {as : List α} (h : list d levels r = .ok as) (hr : r.InRange) :
    ∀ a ∈ as, ∃ r : Reading, r.InRange ∧ d (levels - 1) r = .ok a := by
  intro a ha
  cases r with
  | array rs fault =>
    rw [list, enter_eq_ok_iff] at h
    obtain ⟨-, h⟩ := h
    split at h
    · cases h
    · cases h
    · next bs hbs =>
      cases h
      obtain ⟨r, hmem, hr'⟩ := mem_items hbs a ha
      exact ⟨r, Reading.inRange_array_iff.mp hr r hmem, hr'⟩
  | null | bool _ | number _ | string _ | object _ _ | broken _ _ | unreached _ => cases h

/-- Items are decoded as they were encoded. -/
lemma items_ofItems {encode : α → Json} {read : α → β} {d : Decoder β} {as : List α}
    (h : ∀ a ∈ as, d levels (.ofJson (encode a)) = .ok (read a)) :
    items d levels (Reading.ofItems (as.map encode)) = .ok (as.map read) := by
  induction as with
  | nil => rfl
  | cons a as ih =>
    obtain ⟨ha, has⟩ := List.forall_mem_cons.mp h
    rw [List.map_cons, Reading.ofItems, items]
    simp only [ha, ih has]
    rfl

/-- A list is decoded item by item. -/
lemma list_ofJson {encode : α → Json} {read : α → β} {d : Decoder β} {as : List α}
    (hlevels : 2 ≤ levels) (h : ∀ a ∈ as, d (levels - 1) (.ofJson (encode a)) = .ok (read a)) :
    list d levels (.ofJson (.array (as.map encode))) = .ok (as.map read) := by
  rw [Reading.ofJson, list, enter_eq_ok_iff]
  refine ⟨hlevels, ?_⟩
  rw [items_ofItems h]

/-- A list is decoded to itself if its items are. -/
lemma list_ofJson_self {encode : α → Json} {as : List α} (hlevels : 2 ≤ levels)
    (h : ∀ a ∈ as, d (levels - 1) (.ofJson (encode a)) = .ok a) :
    list d levels (.ofJson (.array (as.map encode))) = .ok as := by
  have hlist := @list_ofJson _ _ _ encode id d as hlevels h
  rwa [List.map_id] at hlist

/-- Strings are decoded as members as they were encoded. -/
lemma members_ofMembers (entries : List (String × String)) :
    members string levels (Reading.ofMembers (entries.map fun (k, v) => (k, .string v)))
      = .ok entries := by
  induction entries with
  | nil => rfl
  | cons e entries ih =>
    rw [List.map_cons, Reading.ofMembers, members]
    simp only [Reading.ofJson, string, ih]
    rfl

/-- An object of strings is decoded to its entries. -/
lemma pairs_ofJson (entries : List (String × String)) (hlevels : 2 ≤ levels) :
    pairs string levels (.ofJson (.object (entries.map fun (k, v) => (k, .string v))))
      = .ok entries := by
  rw [Reading.ofJson, pairs, enter_eq_ok_iff]
  refine ⟨hlevels, ?_⟩
  rw [members_ofMembers]

end Lists

/-! ### Records -/

section Records

variable {σ : Type} {I : σ → Prop} {levels : ℕ} {f : Field σ} {fs : List (Field σ)}

/-- A field keeps what holds of the record, at the level where it is decoded. -/
structure Field.Preserves (f : Field σ) (levels : ℕ) (I : σ → Prop) : Prop where
  decode : ∀ {r s s'}, Reading.InRange r → I s → f.decode levels r s = .ok s' → I s'
  absent : ∀ {set s}, f.absent = some set → I s → I (set s)

namespace Field

section Value

variable {α : Type} {name : String} {value : α} {get : σ → Option α} {set : α → σ → σ}
  {d : Decoder α}

/-- A required field preserves what setting it preserves. -/
lemma Preserves.required
    (h : ∀ {r a s}, Reading.InRange r → d levels r = .ok a → I s → I (set a s)) :
    (Field.required name get set d).Preserves levels I where
  decode hr hs hdecode := by
    obtain ⟨a, ha, rfl⟩ := map_eq_ok_iff.mp hdecode
    exact h hr ha hs
  absent := nofun

/-- A field with a default preserves what setting it preserves, to a value read or to the default.
-/
lemma Preserves.defaulted
    (h : ∀ {r a s}, Reading.InRange r → d levels r = .ok a → I s → I (set a s))
    (hvalue : ∀ {s}, I s → I (set value s)) :
    (Field.defaulted name value get set d).Preserves levels I where
  decode hr hs hdecode := by
    obtain ⟨a, ha, rfl⟩ := map_eq_ok_iff.mp hdecode
    exact h hr ha hs
  absent := by
    rintro set s ⟨⟩ hs
    exact hvalue hs

lemma Preserves.withName (h : f.Preserves levels I) (name : String) :
    (f.withName name).Preserves levels I :=
  ⟨h.decode, h.absent⟩

lemma decode_required {r : Reading} {a : α} (h : d levels r = .ok a) (s : σ) :
    (Field.required name get set d).decode levels r s = .ok (set a s) := by
  simp only [Field.required, h]
  rfl

lemma decode_defaulted {r : Reading} {a : α} (h : d levels r = .ok a) (s : σ) :
    (Field.defaulted name value get set d).decode levels r s = .ok (set a s) := by
  simp only [Field.defaulted, h]
  rfl

end Value

end Field

namespace Record

variable {record : Record σ} {s s' : σ}

/-- Reading members preserves what the fields preserve. -/
lemma preserves_members (hf : ∀ f ∈ record.fields, f.Preserves levels I)
    {ms : List (Except Complaint String × Reading)} (hms : ∀ m ∈ ms, m.2.InRange) (hs : I s)
    (h : record.members levels ms s = .ok s') : I s' := by
  -- By induction on the members: one of an unknown name is passed over, one of a known name is
  -- decoded by its field.
  induction ms generalizing s with
  | nil =>
    cases h
    exact hs
  | cons m ms ih =>
    obtain ⟨key, r⟩ := m
    obtain ⟨hr, hrest⟩ := List.forall_mem_cons.mp hms
    cases key with
    | error c => cases h
    | ok key =>
      rw [members] at h
      split at h
      · split at h
        · cases h
        · exact ih hrest hs h
      · next f hfind =>
        split at h
        · cases h
        · split at h
          · cases h
          · next s₁ hdecode =>
            exact ih hrest ((hf f (List.mem_of_find?_eq_some hfind)).decode hr hs hdecode) h

/-- Settling the fields left out preserves what the fields preserve. -/
lemma preserves_settle (hf : ∀ f ∈ fs, f.Preserves levels I) (hs : I s)
    (h : settle fs s = .ok s') : I s' := by
  induction fs generalizing s with
  | nil =>
    cases h
    exact hs
  | cons f fs ih =>
    obtain ⟨hf, hfs⟩ := List.forall_mem_cons.mp hf
    rw [settle] at h
    split at h
    · exact ih hfs hs h
    · split at h
      · next set hset => exact ih hfs (hf.absent hset hs) h
      · cases h

/-- Reading fields in order preserves what the fields preserve. -/
lemma preserves_inOrder {name : String} {total count : ℕ} {fault : Option Fault}
    (hf : ∀ f ∈ fs, f.Preserves levels I) {rs : List Reading} (hrs : ∀ r ∈ rs, r.InRange)
    (hs : I s) (h : inOrder name total levels fault count fs rs s = .ok s') : I s' := by
  -- By induction on the fields; once the items are used up, each field left takes its default.
  induction fs generalizing s rs count with
  | nil =>
    cases rs with
    | nil =>
      unfold inOrder at h
      split at h
      · cases h
        exact hs
      · cases h
      · cases h
      · cases h
    | cons r rs => cases h
  | cons f fs ih =>
    obtain ⟨hf, hfs⟩ := List.forall_mem_cons.mp hf
    cases rs with
    | nil =>
      unfold inOrder at h
      split at h
      · cases h
      · split at h
        · next set _ hset => exact ih hfs (List.forall_mem_nil _) (hf.absent hset hs) h
        · cases h
    | cons r rs =>
      obtain ⟨hr, hrs⟩ := List.forall_mem_cons.mp hrs
      rw [inOrder] at h
      split at h
      · cases h
      · next s₁ hdecode => exact ih hfs hrs (hf.decode hr hs hdecode) h

/-- What each field keeps holds of a decoded record, whether it was an object or an array. -/
lemma preserves_decode {empty : σ} (hf : ∀ f ∈ record.fields, f.Preserves (levels - 1) I)
    {r : Reading} (hr : r.InRange) (hempty : I empty)
    (h : record.decode empty levels r = .ok s) : I s := by
  cases r with
  | object ms fault =>
    rw [decode, enter_eq_ok_iff] at h
    obtain ⟨-, h⟩ := h
    split at h
    · cases h
    · cases h
    · next s₁ hmembers =>
      exact preserves_settle hf
        (preserves_members hf (Reading.inRange_object_iff.mp hr) hempty hmembers) h
  | array rs fault =>
    rw [decode, enter_eq_ok_iff] at h
    exact preserves_inOrder hf (Reading.inRange_array_iff.mp hr) hempty h.2
  | null | bool _ | number _ | string _ | broken _ _ | unreached _ => cases h

/-- A member sets the field that goes by its key. -/
lemma members_cons {key : String} {r : Reading} {ms : List (Except Complaint String × Reading)}
    (hfind : record.fields.find? (fun f => f.names.contains key) = some f)
    (hset : f.isSet s = false) (hdecode : f.decode levels r s = .ok s') :
    record.members levels ((.ok key, r) :: ms) s = record.members levels ms s' := by
  rw [members, hfind]
  simp only [hset, hdecode, Bool.false_eq_true, if_false]

/-- Reading goes on with further members from the draft that the first ones leave. -/
lemma members_append {ms : List (Except Complaint String × Reading)}
    (h : record.members levels ms s = .ok s') (more : List (Except Complaint String × Reading)) :
    record.members levels (ms ++ more) s = record.members levels more s' := by
  -- By induction on the first members, none of which fails.
  induction ms generalizing s with
  | nil =>
    cases h
    rfl
  | cons m ms ih =>
    obtain ⟨key | key, r⟩ := m
    · cases h
    · rw [members] at h
      rw [List.cons_append, members]
      split at h
      · split at h
        · cases h
        · exact ih h
      · split at h
        · cases h
        · next hset =>
          rw [if_neg hset]
          split at h
          · cases h
          · exact ih h

/-- A record is decoded from an object by reading its members and settling what is left out. -/
lemma decode_object {empty : σ} {ms : List (Except Complaint String × Reading)}
    (hlevels : 2 ≤ levels)
    (hmembers : record.members (levels - 1) ms empty = .ok s)
    (hsettle : settle record.fields s = .ok s') :
    record.decode empty levels (.object ms none) = .ok s' := by
  rw [decode, enter_eq_ok_iff]
  refine ⟨hlevels, ?_⟩
  simp only [hmembers, hsettle]

end Record

end Records

end Decoder

end Restyle
