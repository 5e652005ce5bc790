import Restyle.Change.ClassList
import Restyle.Proofs.Text.Words

/-!
Class lists that are changed more than once.

* `words_append`: the classes of a string with others behind them;
* `missing_append_missing`: nothing is missing once what was missing is there;
* `missing_append`: and nothing is missing again, whatever is put behind later.
-/

namespace Restyle.ClassList

open Text (Solid isBlank trimRight wordsFrom)

lemma solid_of_mem_words {s w : String} (h : w ∈ Text.words s) : Solid w.toList := by
  obtain ⟨cs, hcs, rfl⟩ := List.mem_map.mp h
  rw [String.toList_ofList]
  exact Text.solid_of_mem_wordsFrom (fun d hd => absurd hd List.not_mem_nil) hcs

lemma solid_of_mem_ofValue {value c : String} (h : c ∈ ofValue value) : Solid c.toList :=
  solid_of_mem_words (List.mem_eraseDups.mp h)

/-- The missing classes are among those asked for. -/
lemma mem_of_mem_missing {classes : List String} {existing c : String}
    (h : c ∈ missing classes existing) : c ∈ classes := by
  rw [missing] at h
  split at h
  · cases h
  · exact List.mem_of_mem_filter h

/-! ### The text of some classes -/

section Joined

variable {classes : List String} (hsolid : ∀ c ∈ classes, Solid c.toList)
include hsolid

/-- Classes joined by spaces are read back as they were. -/
lemma words_intercalate : Text.words (" ".intercalate classes) = classes := by
  have hws : ∀ w ∈ classes.map String.toList, Solid w := fun w hw => by
    obtain ⟨c, hc, rfl⟩ := List.mem_map.mp hw
    exact hsolid c hc
  have hjoin : (" ".intercalate classes).toList = [' '].intercalate (classes.map String.toList) :=
    String.toList_intercalate
  rw [Text.words, hjoin, Text.wordsFrom_intercalate hws, List.map_map]
  exact (List.map_congr_left fun c _ => String.ofList_toList).trans (List.map_id _)

/-- The text of some classes ends in no blank. -/
lemma exists_last (hne : classes ≠ []) :
    ∃ front c, (" ".intercalate classes).toList = front ++ [c] ∧ isBlank c = false := by
  rcases List.eq_nil_or_concat classes with rfl | ⟨init, last, rfl⟩
  · exact absurd rfl hne
  · obtain ⟨hlast, hblank⟩ := hsolid last (by simp)
    rcases List.eq_nil_or_concat last.toList with h | ⟨front, c, h⟩
    · exact absurd h hlast
    · have hc : isBlank c = false := hblank c (by rw [h]; simp)
      cases init with
      | nil =>
          refine ⟨front, c, ?_, hc⟩
          rw [List.concat_eq_append, List.nil_append, String.intercalate_singleton, h,
            List.concat_eq_append]
      | cons d init =>
          refine ⟨(" ".intercalate (d :: init) ++ " ").toList ++ front, c, ?_, hc⟩
          rw [List.concat_eq_append,
            String.intercalate_append_of_ne_nil (List.cons_ne_nil _ _) (List.cons_ne_nil _ _),
            String.intercalate_singleton, String.toList_append, h, List.concat_eq_append,
            List.append_assoc]

end Joined

/-- A character of the joined classes other than the space is in one of them. -/
lemma mem_intercalate {classes : List String} {d : Char} (hd : d ≠ ' ')
    (h : d ∈ (" ".intercalate classes).toList) : ∃ c ∈ classes, d ∈ c.toList := by
  induction classes with
  | nil => cases h
  | cons c classes ih =>
      cases classes with
      | nil =>
          rw [String.intercalate_singleton] at h
          exact ⟨c, List.mem_cons_self, h⟩
      | cons c' classes =>
          rw [String.intercalate_cons_cons, String.toList_append, String.toList_append] at h
          rcases List.mem_append.mp h with h | h
          · rcases List.mem_append.mp h with h | h
            · exact ⟨c, List.mem_cons_self, h⟩
            · exact absurd (List.mem_singleton.mp h) hd
          · obtain ⟨x, hx, hdx⟩ := ih h
            exact ⟨x, List.mem_cons_of_mem _ hx, hdx⟩

/-! ### Putting classes behind others -/

/-- Whether a string is blank or not, classes stand behind what trimming leaves of it. -/
lemma toList_append (existing : String) (classes : List String) :
    (append existing classes).toList
      = if Text.isBlankText existing then (" ".intercalate classes).toList
        else trimRight existing.toList ++ ' ' :: (" ".intercalate classes).toList := by
  rw [append]
  split
  · rfl
  · rw [String.toList_append, String.toList_append, Text.trimEnd, String.toList_ofList,
      List.append_assoc]
    rfl

lemma words_of_isBlankText {s : String} (h : Text.isBlankText s = true) : Text.words s = [] := by
  rw [Text.words, Text.wordsFrom_blanks (List.all_eq_true.mp h), List.map_nil]

/-- The classes of a string with others behind them. -/
theorem words_append (existing : String) {classes : List String}
    (hsolid : ∀ c ∈ classes, Solid c.toList) :
    Text.words (append existing classes) = Text.words existing ++ classes := by
  have hwords := words_intercalate hsolid
  rw [Text.words] at hwords
  rw [Text.words, toList_append]
  split
  · next hblank => rw [hwords, words_of_isBlankText hblank, List.nil_append]
  · rw [Text.wordsFrom_append_blank (by decide), Text.wordsFrom_trimRight, List.map_append, hwords,
      Text.words]

/-- Classes that stand together in a string do so when others are put behind. -/
lemma contains_append {existing : String} {classes others : List String}
    (hsolid : ∀ c ∈ classes, Solid c.toList) (hne : classes ≠ [])
    (h : Text.contains existing (" ".intercalate classes) = true) :
    Text.contains (append existing others) (" ".intercalate classes) = true := by
  obtain ⟨front, c, hjoin, hc⟩ := exists_last hsolid hne
  rw [Text.contains_iff, hjoin] at h ⊢
  rw [toList_append, if_neg]
  · exact (Text.infix_trimRight hc h).trans (List.infix_append [] _ _)
  · intro hblank
    have hmem : c ∈ existing.toList := h.subset (by simp)
    rw [List.all_eq_true.mp hblank c hmem] at hc
    cases hc

/-- No class is missing when the text holds them joined, or holds each as a word. -/
lemma missing_eq_nil_iff {classes : List String} {existing : String} :
    missing classes existing = []
      ↔ Text.contains existing (" ".intercalate classes) = true
        ∨ ∀ c ∈ classes, c ∈ Text.words existing := by
  rw [missing]
  split
  · next h => simp [h]
  · next h => simp [h, List.filter_eq_nil_iff]

/-- Nothing is missing again, whatever is put behind. -/
theorem missing_append {existing : String} {classes others : List String}
    (hsolid : ∀ c ∈ classes, Solid c.toList) (hne : classes ≠ [])
    (hothers : ∀ c ∈ others, Solid c.toList) (h : missing classes existing = []) :
    missing classes (append existing others) = [] := by
  rw [missing_eq_nil_iff] at h ⊢
  rcases h with h | h
  · exact .inl (contains_append hsolid hne h)
  · refine .inr fun c hc => ?_
    rw [words_append existing hothers]
    exact List.mem_append_left _ (h c hc)

/-- Nothing is missing once what was missing is there. -/
theorem missing_append_missing (existing : String) {classes : List String}
    (hsolid : ∀ c ∈ classes, Solid c.toList) (h : missing classes existing ≠ []) :
    missing classes (append existing (missing classes existing)) = [] := by
  refine missing_eq_nil_iff.mpr (.inr fun c hc => ?_)
  rw [words_append existing fun d hd => hsolid d (mem_of_mem_missing hd), List.mem_append]
  rw [missing] at h ⊢
  split at h
  · exact absurd rfl h
  · next hcontains =>
      rw [if_neg hcontains]
      by_cases hword : c ∈ Text.words existing
      · exact .inl hword
      · exact .inr (List.mem_filter.mpr ⟨hc, by simpa using hword⟩)

/-- There are no blanks behind classes. -/
lemma trimEnd_append (existing : String) {classes : List String}
    (hsolid : ∀ c ∈ classes, Solid c.toList) (hne : classes ≠ []) :
    Text.trimEnd (append existing classes) = append existing classes := by
  obtain ⟨front, c, hjoin, hc⟩ := exists_last hsolid hne
  refine String.toList_inj.mp ?_
  rw [Text.trimEnd, String.toList_ofList, toList_append, hjoin]
  split
  · exact Text.trimRight_append_singleton front hc
  · rw [← List.cons_append, ← List.append_assoc]
    exact Text.trimRight_append_singleton _ hc

end Restyle.ClassList
