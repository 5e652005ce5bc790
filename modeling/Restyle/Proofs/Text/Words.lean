import Mathlib.Data.List.TakeWhile
import Mathlib.Tactic
import Restyle.Text.Blank

/-!
Blanks and words.

* `Solid`: a word, that is characters of which none is blank;
* `words_append`: the words of a text with more of them behind it;
* `infix_trimRight`: what ends in no blank and occurs in a text occurs in it without the blanks
  behind.
-/

namespace Restyle.Text

/-! ### Trimming -/

/-- A text is what trimming leaves, with blanks behind it. -/
lemma exists_trimRight_append (cs : List Char) :
    ∃ blanks, cs = trimRight cs ++ blanks ∧ ∀ c ∈ blanks, isBlank c = true := by
  refine ⟨(cs.reverse.takeWhile isBlank).reverse, ?_, fun c hc => ?_⟩
  · rw [trimRight, ← List.reverse_append, List.takeWhile_append_dropWhile, List.reverse_reverse]
  · exact List.mem_takeWhile_imp (List.mem_reverse.mp hc)

lemma mem_of_mem_trimRight {cs : List Char} {c : Char} (h : c ∈ trimRight cs) : c ∈ cs := by
  obtain ⟨blanks, hcs, -⟩ := exists_trimRight_append cs
  rw [hcs]
  exact List.mem_append_left _ h

/-- What ends in no blank and occurs in a text occurs in it without the blanks behind. -/
lemma infix_trimRight {part cs : List Char} {c : Char} (hc : isBlank c = false)
    (h : part ++ [c] <:+: cs) : part ++ [c] <:+: trimRight cs := by
  obtain ⟨before, behind, rfl⟩ := h
  have hreverse : (before ++ (part ++ [c]) ++ behind).reverse
      = behind.reverse ++ (c :: (before ++ part).reverse) := by simp
  rw [trimRight, hreverse, List.dropWhile_append]
  split
  · rw [List.dropWhile_cons_of_neg (by rw [hc]; exact Bool.false_ne_true)]
    exact ⟨before, [], by simp⟩
  · exact ⟨before, (behind.reverse.dropWhile isBlank).reverse, by simp⟩

/-- A text that ends in no blank has none behind it. -/
lemma trimRight_append_singleton (cs : List Char) {c : Char} (hc : isBlank c = false) :
    trimRight (cs ++ [c]) = cs ++ [c] := by
  rw [trimRight, List.reverse_append, List.reverse_singleton, List.singleton_append,
    List.dropWhile_cons_of_neg (by rw [hc]; exact Bool.false_ne_true)]
  simp

/-! ### Occurrences -/

lemma hasInfix_iff {part cs : List Char} : hasInfix part cs = true ↔ part <:+: cs := by
  induction cs with
  | nil => rw [hasInfix, List.isEmpty_iff, List.infix_nil]
  | cons c cs ih =>
      rw [hasInfix, Bool.or_eq_true, ih, List.isPrefixOf_iff_prefix, List.infix_cons_iff]

lemma contains_iff {s part : String} :
    contains s part = true ↔ part.toList <:+: s.toList :=
  hasInfix_iff

/-! ### Words -/

lemma wordsFrom_nil_cons (c : Char) (word : List Char) :
    wordsFrom [] (c :: word) = [(c :: word).reverse] := rfl

lemma wordsFrom_cons_solid {c : Char} (hc : isBlank c = false) (cs word : List Char) :
    wordsFrom (c :: cs) word = wordsFrom cs (c :: word) := by
  rw [wordsFrom.eq_def]
  simp only [hc]
  rfl

lemma wordsFrom_cons_blank_nil {c : Char} (hc : isBlank c = true) (cs : List Char) :
    wordsFrom (c :: cs) [] = wordsFrom cs [] := by
  rw [wordsFrom.eq_def]
  simp only [hc]
  rfl

lemma wordsFrom_cons_blank_cons {c : Char} (hc : isBlank c = true) (cs : List Char) (d : Char)
    (word : List Char) :
    wordsFrom (c :: cs) (d :: word) = (d :: word).reverse :: wordsFrom cs [] := by
  rw [wordsFrom.eq_def]
  simp only [hc]
  rfl

/-- A word: some characters, and none of them blank. -/
def Solid (w : List Char) : Prop :=
  w ≠ [] ∧ ∀ c ∈ w, isBlank c = false

/-- Words end at a blank. -/
lemma wordsFrom_append_blank {b : Char} (hb : isBlank b = true) (cs ds word : List Char) :
    wordsFrom (cs ++ b :: ds) word = wordsFrom cs word ++ wordsFrom ds [] := by
  induction cs generalizing word with
  | nil =>
      rw [List.nil_append]
      cases word with
      | nil => rw [wordsFrom_cons_blank_nil hb]; rfl
      | cons c word => rw [wordsFrom_cons_blank_cons hb]; rfl
  | cons c cs ih =>
      rw [List.cons_append]
      cases hc : isBlank c with
      | false => rw [wordsFrom_cons_solid hc, wordsFrom_cons_solid hc, ih]
      | true =>
          cases word with
          | nil => rw [wordsFrom_cons_blank_nil hc, wordsFrom_cons_blank_nil hc, ih]
          | cons d word =>
              rw [wordsFrom_cons_blank_cons hc, wordsFrom_cons_blank_cons hc, ih, List.cons_append]

/-- There are no words in blanks. -/
lemma wordsFrom_blanks {blanks : List Char} (h : ∀ c ∈ blanks, isBlank c = true) :
    wordsFrom blanks [] = [] := by
  induction blanks with
  | nil => rfl
  | cons c blanks ih =>
      rw [wordsFrom_cons_blank_nil (h c List.mem_cons_self)]
      exact ih fun d hd => h d (List.mem_cons_of_mem _ hd)

/-- Blanks behind a text add no words. -/
lemma wordsFrom_append_blanks (cs word : List Char) {blanks : List Char}
    (h : ∀ c ∈ blanks, isBlank c = true) :
    wordsFrom (cs ++ blanks) word = wordsFrom cs word := by
  cases blanks with
  | nil => rw [List.append_nil]
  | cons b blanks =>
      rw [wordsFrom_append_blank (h b List.mem_cons_self), wordsFrom_blanks fun c hc =>
        h c (List.mem_cons_of_mem _ hc), List.append_nil]

lemma wordsFrom_trimRight (cs word : List Char) :
    wordsFrom (trimRight cs) word = wordsFrom cs word := by
  obtain ⟨blanks, hcs, hblanks⟩ := exists_trimRight_append cs
  conv_rhs => rw [hcs]
  exact (wordsFrom_append_blanks _ word hblanks).symm

/-- The characters of a word go to the current word. -/
lemma wordsFrom_solid {w : List Char} (hw : ∀ c ∈ w, isBlank c = false) (word : List Char) :
    wordsFrom w word = wordsFrom [] (w.reverse ++ word) := by
  induction w generalizing word with
  | nil => rfl
  | cons c w ih =>
      rw [wordsFrom_cons_solid (hw c List.mem_cons_self),
        ih fun d hd => hw d (List.mem_cons_of_mem _ hd), List.reverse_cons, List.append_assoc,
        List.singleton_append]

lemma wordsFrom_of_solid {w : List Char} (hw : Solid w) : wordsFrom w [] = [w] := by
  rw [wordsFrom_solid hw.2, List.append_nil]
  cases h : w.reverse with
  | nil => exact absurd (List.reverse_eq_nil_iff.mp h) hw.1
  | cons c rest => rw [wordsFrom_nil_cons, ← h, List.reverse_reverse]

/-- Words with a space between them are the words of that text. -/
lemma wordsFrom_intercalate {ws : List (List Char)} (h : ∀ w ∈ ws, Solid w) :
    wordsFrom ([' '].intercalate ws) [] = ws := by
  induction ws with
  | nil => rfl
  | cons w ws ih =>
      cases ws with
      | nil =>
          rw [List.intercalate_singleton]
          exact wordsFrom_of_solid (h w List.mem_cons_self)
      | cons w' ws =>
          have hrest := ih fun v hv => h v (List.mem_cons_of_mem _ hv)
          rw [List.intercalate_cons_cons, List.append_assoc, List.singleton_append,
            wordsFrom_append_blank (by decide), hrest, wordsFrom_of_solid (h w List.mem_cons_self)]
          rfl

/-- The words of a text are words. -/
lemma solid_of_mem_wordsFrom {cs word : List Char} (hword : ∀ c ∈ word, isBlank c = false)
    {w : List Char} (hw : w ∈ wordsFrom cs word) : Solid w := by
  induction cs generalizing word with
  | nil =>
      cases word with
      | nil => cases hw
      | cons c word =>
          rw [wordsFrom_nil_cons, List.mem_singleton] at hw
          subst hw
          refine ⟨by simp, fun d hd => hword d (List.mem_reverse.mp hd)⟩
  | cons c cs ih =>
      have hnil : ∀ d ∈ ([] : List Char), isBlank d = false := fun d hd => nomatch hd
      -- Any other character joins the word that is being read, and a blank ends it.
      cases hc : isBlank c with
      | false =>
          rw [wordsFrom_cons_solid hc] at hw
          refine ih (fun d hd => ?_) hw
          rcases List.mem_cons.mp hd with rfl | hd
          · exact hc
          · exact hword d hd
      | true =>
          cases word with
          | nil =>
              rw [wordsFrom_cons_blank_nil hc] at hw
              exact ih hnil hw
          | cons d word =>
              rw [wordsFrom_cons_blank_cons hc] at hw
              rcases List.mem_cons.mp hw with rfl | hw
              · exact ⟨by simp, fun e he => hword e (List.mem_reverse.mp he)⟩
              · exact ih hnil hw

/-- No word is longer than the text. -/
lemma length_le_of_mem_wordsFrom {cs word w : List Char} (hw : w ∈ wordsFrom cs word) :
    w.length ≤ cs.length + word.length := by
  induction cs generalizing word with
  | nil =>
      cases word with
      | nil => cases hw
      | cons c word =>
          rw [wordsFrom_nil_cons, List.mem_singleton] at hw
          rw [hw, List.length_reverse]
          exact Nat.le_add_left _ _
  | cons c cs ih =>
      rw [List.length_cons]
      by_cases hc : isBlank c = true
      · cases word with
        | nil =>
            rw [wordsFrom_cons_blank_nil hc] at hw
            have := ih hw
            omega
        | cons d word =>
            rw [wordsFrom_cons_blank_cons hc, List.mem_cons] at hw
            rcases hw with rfl | hw
            · rw [List.length_reverse]
              exact Nat.le_add_left _ _
            · have := ih hw
              rw [List.length_nil] at this
              omega
      · rw [wordsFrom_cons_solid (Bool.eq_false_of_not_eq_true hc)] at hw
        have := ih hw
        rw [List.length_cons] at this
        omega

end Restyle.Text
