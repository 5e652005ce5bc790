import Mathlib.Tactic
import Restyle.Text.Dictionary

/-!
Dictionaries keep their keys in order, so the list of their entries makes them again.

* `get?_eq_some_iff`: what stands under a key is found;
* `sorted_ofList`: in the dictionary of a list each key stands before those that are greater;
* `ofList_entries`: the dictionary of the entries of such a dictionary is that dictionary.
-/

namespace Restyle.Text

/-- A list in which each key stands before those that are greater, and none stands twice. -/
def Sorted (entries : List (String × String)) : Prop :=
  entries.Pairwise fun a b => a.1 < b.1

variable {key value : String} {entries : List (String × String)}

/-- What is in a dictionary after an insertion was there before, or is the new entry. -/
lemma mem_putSorted {e : String × String} (h : e ∈ putSorted key value entries) :
    e = (key, value) ∨ e ∈ entries := by
  induction entries with
  | nil => exact .inl (List.mem_singleton.mp h)
  | cons first rest ih =>
    rw [putSorted] at h
    split_ifs at h with hlt heq
    · exact (List.mem_cons.mp h)
    · exact (List.mem_cons.mp h).imp_right (List.mem_cons_of_mem _)
    · obtain rfl | h := List.mem_cons.mp h
      · exact .inr List.mem_cons_self
      · exact (ih h).imp_right (List.mem_cons_of_mem _)

/-- Inserting keeps the entries sorted. -/
lemma Sorted.putSorted (h : Sorted entries) (key value : String) :
    Sorted (putSorted key value entries) := by
  induction entries with
  | nil => exact List.pairwise_singleton _ _
  | cons first rest ih =>
    obtain ⟨k, v⟩ := first
    obtain ⟨hfirst, hrest⟩ := List.pairwise_cons.mp h
    rw [Text.putSorted]
    split_ifs with hlt heq
    · refine List.pairwise_cons.mpr ⟨fun e he => ?_, h⟩
      obtain rfl | he := List.mem_cons.mp he
      · exact hlt
      · exact String.lt_trans hlt (hfirst e he)
    · exact List.pairwise_cons.mpr ⟨fun e he => heq ▸ hfirst e he, hrest⟩
    · refine List.pairwise_cons.mpr ⟨fun e he => ?_, ih hrest⟩
      obtain rfl | he := mem_putSorted he
      · have hle : k ≤ key := String.not_lt.mp hlt
        exact Std.not_le.mp fun hge => heq (String.le_antisymm hge hle)
      · exact hfirst e he

/-- What is greater than all keys is put at the end. -/
lemma putSorted_of_lt (h : ∀ e ∈ entries, e.1 < key) :
    putSorted key value entries = entries ++ [(key, value)] := by
  induction entries with
  | nil => rfl
  | cons first rest ih =>
    obtain ⟨k, v⟩ := first
    obtain ⟨hfirst, hrest⟩ := List.forall_mem_cons.mp h
    have hne : key ≠ k := by
      rintro rfl
      exact String.lt_irrefl _ hfirst
    rw [putSorted, if_neg (String.lt_asymm hfirst), if_neg hne, ih hrest, List.cons_append]

lemma Sorted.nodup (h : Sorted entries) : (entries.map Prod.fst).Nodup := by
  refine List.pairwise_map.mpr (h.imp fun {a b} hlt heq => ?_)
  rw [heq] at hlt
  exact String.lt_irrefl _ hlt

lemma Sorted.eq_of_fst_eq (h : Sorted entries) {a b : String × String}
    (ha : a ∈ entries) (hb : b ∈ entries)
    (heq : a.1 = b.1) : a = b :=
  List.inj_on_of_nodup_map h.nodup ha hb heq

namespace Dictionary

/-- The text under a key is that of the entry with this key. -/
lemma get?_eq_some_iff {d : Dictionary} (h : Sorted d.entries) :
    d.get? key = some value ↔ (key, value) ∈ d.entries := by
  rw [get?, Option.map_eq_some_iff]
  constructor
  · rintro ⟨e, hfind, rfl⟩
    have hkey := List.find?_some hfind
    obtain rfl := of_decide_eq_true hkey
    exact List.mem_of_find?_eq_some hfind
  · intro hmem
    have hsome : (d.entries.find? fun e => e.1 = key).isSome := by
      rw [List.find?_isSome]
      exact ⟨_, hmem, decide_eq_true rfl⟩
    obtain ⟨e, hfind⟩ := Option.isSome_iff_exists.mp hsome
    have hkey := List.find?_some hfind
    obtain rfl := h.eq_of_fst_eq (List.mem_of_find?_eq_some hfind) hmem (of_decide_eq_true hkey)
    exact ⟨_, hfind, rfl⟩

/-- Entries that are listed are sorted. -/
lemma sorted_ofList (entries : List (String × String)) : Sorted (ofList entries).entries := by
  have hput : ∀ d : Dictionary, Sorted d.entries →
      Sorted (entries.foldl (fun d e => d.put e.1 e.2) d).entries := by
    induction entries with
    | nil => exact fun d hd => hd
    | cons e entries ih => exact fun d hd => ih _ (hd.putSorted e.1 e.2)
  exact hput empty List.Pairwise.nil

/-- Inserting sorted entries in their order puts each at the end. -/
lemma foldl_put {before : List (String × String)} (h : Sorted (before ++ entries)) :
    entries.foldl (fun d e => d.put e.1 e.2) (Dictionary.mk before) = ⟨before ++ entries⟩ := by
  induction entries generalizing before with
  | nil => rw [List.append_nil, List.foldl_nil]
  | cons e entries ih =>
    have hlt : ∀ b ∈ before, b.1 < e.1 := fun b hb =>
      (List.pairwise_append.mp h).2.2 b hb e List.mem_cons_self
    rw [List.append_cons] at h ⊢
    rw [List.foldl_cons, put, putSorted_of_lt hlt]
    exact ih h

/-- A dictionary in order is made again by the list of its entries. -/
theorem ofList_entries {d : Dictionary} (h : Sorted d.entries) : ofList d.entries = d :=
  foldl_put h

end Dictionary

end Restyle.Text
