import Restyle.Proofs.Json.Numbers
import Restyle.Json.Decode

/-!
Decoding JSON values of any kind.

* `nodup_insert`: an object that members are put into has each key once;
* `Json.Again`: a value that is decoded from its own reading at a depth; so are its parts
  (`Again.of_array`, `Again.of_object`);
* `Json.Fits`: such a value whose whole numbers are such as a text can hold;
* `json_fits`: whatever is decoded from a text is such a value.
-/

namespace Restyle

namespace Json

/-! ### Members -/

variable {key : String} {v : Json} {ms : List (String × Json)}

/-- What is in an object after an insertion was there before, or is the new member. -/
lemma mem_insert {m : String × Json} (h : m ∈ insert key v ms) : m = (key, v) ∨ m ∈ ms := by
  induction ms with
  | nil => exact .inl (List.mem_singleton.mp h)
  | cons first ms ih =>
    obtain ⟨k, w⟩ := first
    rw [insert] at h
    split at h
    · next hk =>
      obtain rfl | h := List.mem_cons.mp h
      · exact .inl (by rw [hk])
      · exact .inr (List.mem_cons_of_mem _ h)
    · obtain rfl | h := List.mem_cons.mp h
      · exact .inr List.mem_cons_self
      · exact (ih h).imp_right (List.mem_cons_of_mem _)

/-- A member with a new key is put at the end. -/
lemma insert_of_notMem (h : key ∉ ms.map Prod.fst) : insert key v ms = ms ++ [(key, v)] := by
  induction ms with
  | nil => rfl
  | cons first ms ih =>
    rw [List.map_cons, List.mem_cons, not_or] at h
    rw [insert, if_neg (Ne.symm h.1), ih h.2, List.cons_append]

/-- A member with a key that is there changes no key. -/
lemma map_fst_insert_of_mem (h : key ∈ ms.map Prod.fst) :
    (insert key v ms).map Prod.fst = ms.map Prod.fst := by
  induction ms with
  | nil => cases h
  | cons first ms ih =>
    obtain ⟨k, w⟩ := first
    rw [insert]
    split
    · rfl
    · next hk =>
      have hrest : key ∈ ms.map Prod.fst :=
        (List.mem_cons.mp h).resolve_left (Ne.symm hk)
      rw [List.map_cons, ih hrest, List.map_cons]

lemma mem_map_fst_insert {k : String} :
    k ∈ (insert key v ms).map Prod.fst ↔ k ∈ ms.map Prod.fst ∨ k = key := by
  by_cases hkey : key ∈ ms.map Prod.fst
  · rw [map_fst_insert_of_mem hkey]
    exact ⟨.inl, fun h => h.elim id fun heq => heq ▸ hkey⟩
  · rw [insert_of_notMem hkey, List.map_append,
      List.mem_append, List.map_singleton, List.mem_singleton]

/-- A member that is put in leaves each key once. -/
lemma nodup_insert (key : String) (v : Json) (h : (ms.map Prod.fst).Nodup) :
    ((insert key v ms).map Prod.fst).Nodup := by
  by_cases hkey : key ∈ ms.map Prod.fst
  · rw [map_fst_insert_of_mem hkey]
    exact h
  · rw [insert_of_notMem hkey, List.map_append]
    exact h.append (List.nodup_singleton _) (by simpa using hkey)

end Json

namespace Decoder

variable {α : Type} {levels : ℕ} {f : ℕ → Except Complaint α} {a : α}

lemma map_eq_ok_iff {β : Type} {g : α → β} {b : β} {e : Except Complaint α} :
    e.map g = .ok b ↔ ∃ a, e = .ok a ∧ g a = b := by
  cases e <;> simp [Except.map]

lemma enter_eq_ok_iff : enter levels f = .ok a ↔ 2 ≤ levels ∧ f (levels - 1) = .ok a := by
  match levels with
  | 0 => simp [enter]
  | 1 => simp [enter]
  | levels + 2 => simp [enter]

end Decoder

/-- A value that is decoded from its own reading at a depth. -/
def Json.Again (levels : ℕ) (v : Json) : Prop :=
  Decoder.json levels (.ofJson v) = .ok v

/-- A value that fits into a text at a depth: it is decoded from its own reading there, and its
whole numbers are such as a text can hold. -/
structure Json.Fits (levels : ℕ) (v : Json) : Prop where
  again : Decoder.json levels (.ofJson v) = .ok v
  inRange : ∀ n ∈ v.numbers, n.InRange

namespace Decoder

variable {levels : ℕ}

/-- Items that are each decoded again are decoded again as a list. -/
lemma jsonItems_ofItems {vs : List Json} (h : ∀ v ∈ vs, json levels (.ofJson v) = .ok v) :
    jsonItems levels (Reading.ofItems vs) = .ok vs := by
  induction vs with
  | nil => rfl
  | cons v vs ih =>
    obtain ⟨hv, hvs⟩ := List.forall_mem_cons.mp h
    simp only [Reading.ofItems, jsonItems, hv, ih hvs]
    rfl

/-- Members that are each decoded again are decoded again as an object, if no key comes twice. -/
lemma jsonMembers_ofMembers {ms before : List (String × Json)}
    (h : ∀ m ∈ ms, json levels (.ofJson m.2) = .ok m.2)
    (hkeys : ((before ++ ms).map Prod.fst).Nodup) :
    jsonMembers levels (Reading.ofMembers ms) before = .ok (before ++ ms) := by
  induction ms generalizing before with
  | nil =>
    rw [List.append_nil]
    rfl
  | cons m ms ih =>
    obtain ⟨key, v⟩ := m
    obtain ⟨hv, hms⟩ := List.forall_mem_cons.mp h
    have hnew : key ∉ before.map Prod.fst := by
      rw [List.map_append, List.map_cons] at hkeys
      exact fun hmem => (List.disjoint_of_nodup_append hkeys) hmem List.mem_cons_self
    rw [List.append_cons] at hkeys ⊢
    rw [Reading.ofMembers, jsonMembers]
    simp only [hv, Json.insert_of_notMem hnew]
    exact ih hms hkeys

/-- What is decoded from an array is an array of what its items are decoded to. -/
lemma json_array {r : List Reading} {fault : Option Fault} {v : Json}
    (h : json levels (.array r fault) = .ok v) :
    2 ≤ levels ∧ ∃ vs, jsonItems (levels - 1) r = .ok vs ∧ v = .array vs := by
  rw [json, enter_eq_ok_iff] at h
  obtain ⟨hlevels, h⟩ := h
  refine ⟨hlevels, ?_⟩
  split at h
  · cases h
  · cases h
  · next vs hvs =>
    cases h
    exact ⟨vs, hvs, rfl⟩

/-- What is decoded from an object is an object of what its members are decoded to. -/
lemma json_object {ms : List (Except Complaint String × Reading)} {fault : Option Fault} {v : Json}
    (h : json levels (.object ms fault) = .ok v) :
    2 ≤ levels ∧ ∃ vs, jsonMembers (levels - 1) ms [] = .ok vs ∧ v = .object vs := by
  rw [json, enter_eq_ok_iff] at h
  obtain ⟨hlevels, h⟩ := h
  refine ⟨hlevels, ?_⟩
  split at h
  · cases h
  · cases h
  · next vs hvs =>
    cases h
    exact ⟨vs, hvs, rfl⟩

lemma again_array (hlevels : 2 ≤ levels) {vs : List Json} (h : ∀ v ∈ vs, v.Again (levels - 1)) :
    (Json.array vs).Again levels := by
  rw [Json.Again, Reading.ofJson, json, enter_eq_ok_iff]
  refine ⟨hlevels, ?_⟩
  rw [jsonItems_ofItems h]

/-- An object is decoded again when its members are, one level down. -/
lemma again_object (hlevels : 2 ≤ levels) {ms : List (String × Json)}
    (h : ∀ m ∈ ms, m.2.Again (levels - 1)) (hkeys : (ms.map Prod.fst).Nodup) :
    (Json.object ms).Again levels := by
  rw [Json.Again, Reading.ofJson, json, enter_eq_ok_iff]
  refine ⟨hlevels, ?_⟩
  rw [@jsonMembers_ofMembers _ ms [] h hkeys]
  rfl

lemma fits_array (hlevels : 2 ≤ levels) {vs : List Json} (h : ∀ v ∈ vs, v.Fits (levels - 1)) :
    (Json.array vs).Fits levels := by
  constructor
  · exact again_array hlevels fun v hv => (h v hv).again
  · intro n hn
    rw [Json.numbers, Json.itemNumbers_eq_flatMap] at hn
    obtain ⟨v, hv, hn⟩ := List.mem_flatMap.mp hn
    exact (h v hv).inRange n hn

lemma fits_object (hlevels : 2 ≤ levels) {ms : List (String × Json)}
    (h : ∀ m ∈ ms, m.2.Fits (levels - 1)) (hkeys : (ms.map Prod.fst).Nodup) :
    (Json.object ms).Fits levels := by
  constructor
  · exact again_object hlevels (fun m hm => (h m hm).again) hkeys
  · intro n hn
    rw [Json.numbers, Json.memberNumbers_eq_flatMap] at hn
    obtain ⟨m, hm, hn⟩ := List.mem_flatMap.mp hn
    exact (h m hm).inRange n hn

/-- Inserting a member that fits keeps all members fitting. -/
lemma fits_insert {key : String} {v : Json} {ms : List (String × Json)} (hv : v.Fits levels)
    (h : ∀ m ∈ ms, m.2.Fits levels) : ∀ m ∈ Json.insert key v ms, m.2.Fits levels := by
  intro m hm
  obtain rfl | hm := Json.mem_insert hm
  · exact hv
  · exact h m hm

mutual

/-- What is decoded from a reading fits into a text at that depth. -/
lemma json_fits (r : Reading) {levels : ℕ} (hr : r.InRange) {v : Json}
    (h : json levels r = .ok v) : v.Fits levels := by
  -- One case for each reading; only the containers look further down, and their keys are kept
  -- apart by the insertion.
  cases r with
  | null =>
    cases h
    exact ⟨rfl, nofun⟩
  | bool b =>
    cases h
    exact ⟨rfl, nofun⟩
  | number n =>
    cases n with
    | error c => cases h
    | ok n =>
      cases h
      exact ⟨rfl, hr⟩
  | string s =>
    cases s with
    | error c => cases h
    | ok s =>
      cases h
      exact ⟨rfl, nofun⟩
  | broken quoted fault => cases h
  | unreached c => cases h
  | array rs fault =>
    obtain ⟨hlevels, vs, hvs, rfl⟩ := json_array h
    exact fits_array hlevels (jsonItems_fits rs (Reading.inRange_array_iff.mp hr) hvs)
  | object ms fault =>
    obtain ⟨hlevels, vs, hvs, rfl⟩ := json_object h
    obtain ⟨hfits, hkeys⟩ :=
      jsonMembers_fits ms (Reading.inRange_object_iff.mp hr) hvs nofun List.nodup_nil
    exact fits_object hlevels hfits hkeys

lemma jsonItems_fits (rs : List Reading) {levels : ℕ} (hrs : ∀ r ∈ rs, r.InRange)
    {vs : List Json} (h : jsonItems levels rs = .ok vs) : ∀ v ∈ vs, v.Fits levels := by
  cases rs with
  | nil =>
    cases h
    exact nofun
  | cons r rs =>
    obtain ⟨hr, hrs⟩ := List.forall_mem_cons.mp hrs
    rw [jsonItems] at h
    split at h
    · cases h
    · next v hv =>
      obtain ⟨vs, hvs, rfl⟩ := map_eq_ok_iff.mp h
      exact List.forall_mem_cons.mpr ⟨json_fits r hr hv, jsonItems_fits rs hrs hvs⟩

lemma jsonMembers_fits (ms : List (Except Complaint String × Reading)) {levels : ℕ}
    (hms : ∀ m ∈ ms, m.2.InRange) {before vs : List (String × Json)}
    (h : jsonMembers levels ms before = .ok vs) (hbefore : ∀ m ∈ before, m.2.Fits levels)
    (hkeys : (before.map Prod.fst).Nodup) :
    (∀ m ∈ vs, m.2.Fits levels) ∧ (vs.map Prod.fst).Nodup := by
  match ms with
  | [] =>
    cases h
    exact ⟨hbefore, hkeys⟩
  | (.error c, r) :: ms => cases h
  | (.ok key, r) :: ms =>
    rw [jsonMembers] at h
    split at h
    · cases h
    · next v hv =>
      have hfits := json_fits r (hms _ List.mem_cons_self) hv
      exact jsonMembers_fits ms (fun m hm => hms m (List.mem_cons_of_mem _ hm)) h
        (fits_insert hfits hbefore) (Json.nodup_insert key v hkeys)

end

/-! ### What is decoded to itself -/

/-- An insertion adds one member at most. -/
lemma length_insert_le (key : String) (v : Json) (ms : List (String × Json)) :
    (Json.insert key v ms).length ≤ ms.length + 1 := by
  by_cases hkey : key ∈ ms.map Prod.fst
  · have h := congrArg List.length (Json.map_fst_insert_of_mem (v := v) hkey)
    simp only [List.length_map] at h
    omega
  · rw [Json.insert_of_notMem hkey, List.length_append, List.length_singleton]

lemma length_ofMembers (ms : List (String × Json)) :
    (Reading.ofMembers ms).length = ms.length := by
  induction ms with
  | nil => rfl
  | cons m ms ih => rw [Reading.ofMembers, List.length_cons, ih, List.length_cons]

/-- An object has no more members than were read. -/
lemma length_jsonMembers_le {rs : List (Except Complaint String × Reading)}
    {before vs : List (String × Json)} (h : jsonMembers levels rs before = .ok vs) :
    vs.length ≤ before.length + rs.length := by
  induction rs generalizing before with
  | nil =>
    cases h
    exact le_rfl
  | cons r rs ih =>
    obtain ⟨key | key, r⟩ := r
    · cases h
    · rw [jsonMembers] at h
      split at h
      · cases h
      · next v hv =>
        have hrest := ih h
        have hinsert := length_insert_le key v before
        rw [List.length_cons]
        omega

/-- Members are decoded one by one if none of them is lost, that is, if no key comes twice. -/
lemma forall₂_of_jsonMembers {ms before vs : List (String × Json)}
    (h : jsonMembers levels (Reading.ofMembers ms) before = .ok vs)
    (hlength : before.length + ms.length ≤ vs.length) (hkeys : (before.map Prod.fst).Nodup) :
    (vs.map Prod.fst).Nodup ∧ ∃ news, vs = before ++ news
      ∧ List.Forall₂ (fun m w => json levels (.ofJson m.2) = .ok w.2) ms news := by
  induction ms generalizing before with
  | nil =>
    cases h
    exact ⟨hkeys, [], (List.append_nil _).symm, .nil⟩
  | cons m ms ih =>
    obtain ⟨key, v⟩ := m
    rw [Reading.ofMembers, jsonMembers] at h
    split at h
    · cases h
    · next w hw =>
      -- a key that came twice would leave too few members
      have hnew : key ∉ before.map Prod.fst := by
        intro hmem
        have hle := length_jsonMembers_le h
        have hsame := congrArg List.length (Json.map_fst_insert_of_mem (v := w) hmem)
        have hcount := length_ofMembers ms
        simp only [List.length_map] at hsame
        rw [List.length_cons] at hlength
        omega
      rw [Json.insert_of_notMem hnew] at h
      have hlength' : (before ++ [(key, w)]).length + ms.length ≤ vs.length := by
        rw [List.length_append, List.length_singleton]
        rw [List.length_cons] at hlength
        omega
      have hkeys' : ((before ++ [(key, w)]).map Prod.fst).Nodup := by
        rw [List.map_append]
        exact hkeys.append (List.nodup_singleton _) (by simpa using hnew)
      obtain ⟨hnodup, news, rfl, hall⟩ := ih h hlength' hkeys'
      exact ⟨hnodup, (key, w) :: news, List.append_assoc _ _ _, .cons hw hall⟩

end Decoder

namespace Json

variable {levels : ℕ}

/-- The items of an array that is decoded again are decoded again, one level down. -/
lemma Again.of_array {vs : List Json} (h : (array vs).Again levels) :
    2 ≤ levels ∧ ∀ v ∈ vs, v.Again (levels - 1) := by
  obtain ⟨hlevels, ws, hws, heq⟩ := Decoder.json_array h
  cases heq
  refine ⟨hlevels, ?_⟩
  clear h
  induction vs with
  | nil => exact nofun
  | cons v vs ih =>
    rw [Reading.ofItems, Decoder.jsonItems] at hws
    split at hws
    · cases hws
    · next w hw =>
      obtain ⟨vs', hvs, heq⟩ := Decoder.map_eq_ok_iff.mp hws
      cases heq
      exact List.forall_mem_cons.mpr ⟨hw, ih hvs⟩

/-- If an object is decoded to itself, its keys are all different and so are its values decoded. -/
lemma Again.of_object {ms : List (String × Json)} (h : (object ms).Again levels) :
    2 ≤ levels ∧ (ms.map Prod.fst).Nodup ∧ ∀ m ∈ ms, m.2.Again (levels - 1) := by
  obtain ⟨hlevels, ws, hws, heq⟩ := Decoder.json_object h
  cases heq
  obtain ⟨hkeys, news, rfl, hall⟩ :=
    Decoder.forall₂_of_jsonMembers hws (by simp) List.nodup_nil
  exact ⟨hlevels, hkeys, List.forall₂_same.mp hall⟩

end Json

end Restyle
