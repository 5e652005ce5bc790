import Restyle.Proofs.Text.Words

/-!
Pieces of a text: what stands between blanks at its ends, between its commas, and on its lines.

* `Core`: what is left of a text without the blanks around it; `core_iff`: this is what trimming
  leaves;
* `splitList_eq_splitOnP`: the parts between the places of a cut;
* `Lists`: a text lists words, with commas between them; `lists_iff`: there is one such list, of the
  words that are left of the parts;
* `infix_intercalate`: what is joined is part of the whole;
* `lines?`: the lines of a text; `lines?_eq_some_iff`: each ends in a line break and holds no other.
-/

namespace Restyle.Text

/-! ### Trimming -/

/-- What is left of a text without the blanks around it. -/
structure Core (text core : List Char) : Prop where
  around : ∃ before behind, text = before ++ (core ++ behind)
    ∧ (∀ c ∈ before, isBlank c = true) ∧ ∀ c ∈ behind, isBlank c = true
  first : ∀ c ∈ core.head?, isBlank c = false
  last : ∀ c ∈ core.getLast?, isBlank c = false

section Trimming

variable {text core : List Char}

/-- Dropping blanks leaves what does not begin with one. -/
lemma dropWhile_blanks {blanks cs : List Char} (hblanks : ∀ c ∈ blanks, isBlank c = true)
    (hcs : ∀ c ∈ cs.head?, isBlank c = false) : (blanks ++ cs).dropWhile isBlank = cs := by
  rw [List.dropWhile_append_of_pos hblanks]
  cases cs with
  | nil => rfl
  | cons c cs => exact List.dropWhile_cons_of_neg (by rw [hcs c rfl]; exact Bool.false_ne_true)

lemma head?_dropWhile_blank (cs : List Char) :
    ∀ c ∈ (cs.dropWhile isBlank).head?, isBlank c = false := by
  intro c hc
  have h := List.head?_dropWhile_not isBlank cs
  rw [Option.mem_def.mp hc] at h
  exact h

/-- Trimming both sides leaves the core. -/
lemma core_trim (text : List Char) : Core text (trimRight (trimLeft text)) := by
  obtain ⟨blanks, hbehind, hblanks⟩ := exists_trimRight_append (trimLeft text)
  have hbefore : text = text.takeWhile isBlank ++ trimLeft text :=
    List.takeWhile_append_dropWhile.symm
  refine ⟨⟨_, blanks, hbehind ▸ hbefore, fun c hc => List.mem_takeWhile_imp hc, hblanks⟩, ?_, ?_⟩
  · intro c hc
    refine head?_dropWhile_blank text c ?_
    rw [← trimLeft, hbehind]
    exact List.mem_head?_append_of_mem_head? hc
  · rw [trimRight, List.getLast?_reverse]
    exact head?_dropWhile_blank _

/-- Trimming a text leaves it without the blanks around it. -/
theorem core_iff : Core text core ↔ core = trimRight (trimLeft text) := by
  refine ⟨fun h => ?_, fun h => h ▸ core_trim text⟩
  obtain ⟨before, behind, rfl, hbefore, hbehind⟩ := h.around
  -- If the core is empty the left side takes everything.
  have hleft : trimLeft (before ++ (core ++ behind))
      = if core = [] then [] else core ++ behind := by
    split
    · next hnone =>
      rw [hnone, List.nil_append, ← List.append_nil (before ++ behind)]
      refine dropWhile_blanks (fun c hc => ?_) nofun
      exact (List.mem_append.mp hc).elim (hbefore c) (hbehind c)
    · next hsome =>
      refine dropWhile_blanks hbefore fun c hc => h.first c ?_
      rwa [List.head?_append_of_ne_nil _ hsome] at hc
  have hright : trimRight (core ++ behind) = core := by
    rw [trimRight, List.reverse_append,
      dropWhile_blanks (fun c hc => hbehind c (List.mem_reverse.mp hc)),
      List.reverse_reverse]
    rw [List.head?_reverse]
    exact h.last
  rw [hleft]
  split
  · next hnone => rw [hnone]; rfl
  · exact hright.symm

lemma trim_eq_iff {s t : String} : trim s = t ↔ Core s.toList t.toList := by
  rw [core_iff, trim, ← String.toList_inj, String.toList_ofList, eq_comm]

end Trimming

/-! ### Lists of words -/

/-- The parts between the places of a cut. -/
lemma splitList_eq_splitOnP (cut : Char → Bool) (cs : List Char) :
    splitList cut cs = cs.splitOnP cut := by
  induction cs with
  | nil => rfl
  | cons c cs ih =>
    rw [splitList, List.splitOnP_cons_eq_if_modifyHead, ih]
    split
    · rfl
    · cases h : cs.splitOnP cut with
      | nil => exact absurd h (List.splitOnP_ne_nil cut cs)
      | cons part parts => rfl

/-- The words that are left of parts without the blanks around them; where nothing is left, there is
no word. -/
inductive Listed : List (List Char) → List String → Prop
  | nil : Listed [] []
  | blank {part : List Char} {parts : List (List Char)} {words : List String} (h : Core part [])
    (hrest : Listed parts words) : Listed (part :: parts) words
  | word {part : List Char} {parts : List (List Char)} {word : String} {words : List String}
    (h : Core part word.toList) (hne : word ≠ "") (hrest : Listed parts words) :
    Listed (part :: parts) (word :: words)

/-- A text lists words: they are what is left of its parts between commas. -/
def Lists (s : String) (words : List String) : Prop :=
  ∃ parts, parts ≠ [] ∧ s.toList = [','].intercalate parts ∧ (∀ part ∈ parts, ',' ∉ part)
    ∧ Listed parts words

section Words

variable {part : List Char} {parts : List (List Char)} {words : List String} {s : String}

lemma core_ofList {word : String} : Core part word.toList ↔ trim (String.ofList part) = word := by
  rw [trim_eq_iff, String.toList_ofList]

/-- The words of parts are what trimming leaves of them, where it leaves something. -/
lemma listed_iff :
    Listed parts words
      ↔ words =
          (parts.map fun part => trim (String.ofList part)).filter fun word => !word.isEmpty := by
  constructor
  · intro h
    -- By induction on the parts: a blank one is dropped, and any other one is a word.
    induction h with
    | nil => rfl
    | blank h _ ih =>
      have hpart : trim (String.ofList _) = "" := core_ofList.mp h
      rw [List.map_cons, List.filter_cons_of_neg (by rw [hpart]; decide), ih]
    | word h hne _ ih =>
      have hpart := core_ofList.mp h
      rw [List.map_cons, List.filter_cons_of_pos (by simpa [hpart] using hne), hpart, ih]
  · rintro rfl
    induction parts with
    | nil => exact .nil
    | cons part parts ih =>
      by_cases hne : trim (String.ofList part) = ""
      · rw [List.map_cons, List.filter_cons_of_neg (by rw [hne]; decide)]
        exact .blank (core_ofList.mpr hne) ih
      · rw [List.map_cons, List.filter_cons_of_pos (by simpa using hne)]
        exact .word (core_ofList.mpr rfl) hne ih

/-- No part holds the character at which the text is cut. -/
lemma not_mem_of_mem_splitOn {cut : Char} {cs : List Char} (h : part ∈ cs.splitOn cut) :
    cut ∉ part := by
  -- By induction on the text: at a cut a new part begins, and any other character joins the first
  -- one.
  induction cs generalizing part with
  | nil =>
    rw [List.splitOn_nil, List.mem_singleton] at h
    rw [h]
    exact List.not_mem_nil
  | cons c cs ih =>
    rw [List.splitOn, List.splitOnP_cons_eq_if_modifyHead] at h
    split at h
    · obtain rfl | hrest := List.mem_cons.mp h
      · exact List.not_mem_nil
      · exact ih hrest
    · next hc =>
      cases hparts : cs.splitOnP (· == cut) with
      | nil => exact absurd hparts (List.splitOnP_ne_nil _ cs)
      | cons first rest =>
        have hfirst : cut ∉ first := ih (by rw [List.splitOn, hparts]; exact List.mem_cons_self)
        rw [hparts, List.modifyHead_cons] at h
        obtain rfl | hrest := List.mem_cons.mp h
        · rw [List.mem_cons, not_or]
          exact ⟨fun hcut => hc (beq_iff_eq.mpr hcut.symm), hfirst⟩
        · exact ih (by rw [List.splitOn, hparts]; exact List.mem_cons_of_mem _ hrest)

/-- The parts of a text are those that make it up with a cut between them. -/
lemma splitOn_eq_iff {cut : Char} {cs : List Char} :
    cs.splitOn cut = parts
      ↔ parts ≠ [] ∧ cs = [cut].intercalate parts ∧ ∀ part ∈ parts, cut ∉ part := by
  constructor
  · rintro rfl
    exact ⟨List.splitOn_ne_nil _ cs, (List.intercalate_splitOn cut).symm,
      fun _ => not_mem_of_mem_splitOn⟩
  · rintro ⟨hne, rfl, hcut⟩
    exact List.splitOn_intercalate cut hcut hne

/-- A text lists the words that are left of its parts between commas, and no others. -/
theorem lists_iff :
    Lists s words
      ↔ words = ((split (· = ',') s).map trim).filter fun word => !word.isEmpty := by
  have hsplit : split (· = ',') s = (s.toList.splitOn ',').map String.ofList := by
    rw [split, splitList_eq_splitOnP]
    rfl
  have hlists : Lists s words ↔ ∃ parts, s.toList.splitOn ',' = parts ∧ Listed parts words := by
    unfold Lists
    simp only [splitOn_eq_iff, and_assoc]
  rw [hlists, exists_eq_left', listed_iff, hsplit, List.map_map]
  rfl

end Words

/-! ### Joined texts -/

/-- What is joined is part of the whole. -/
lemma infix_intercalate {gap text : String} {texts : List String} (h : text ∈ texts) :
    text.toList <:+: (gap.intercalate texts).toList := by
  induction texts with
  | nil => cases h
  | cons first rest ih =>
    cases rest with
    | nil => rw [List.mem_singleton.mp h, String.intercalate_singleton]
    | cons second rest =>
      rw [String.intercalate_cons_cons, String.toList_append, String.toList_append]
      obtain rfl | hrest := List.mem_cons.mp h
      · exact (List.prefix_append _ _).isInfix.trans (List.prefix_append _ _).isInfix
      · exact (ih hrest).trans (List.suffix_append _ _).isInfix

/-! ### Lines -/

/-- The lines of a text whose last line ends in a line break, as all others do. -/
def lines? (text : List Char) : Option (List (List Char)) :=
  let parts := text.splitOn '\n'
  if parts.getLast? = some [] then some parts.dropLast else none

section Lines

variable {text : List Char} {lines : List (List Char)}

/-- Lines joined with an empty one at the end each end with a line break. -/
lemma intercalate_lines (lines : List (List Char)) :
    ['\n'].intercalate (lines ++ [[]]) = lines.flatMap (· ++ ['\n']) := by
  induction lines with
  | nil => rfl
  | cons line lines ih =>
    rw [List.cons_append, List.intercalate_cons_of_ne_nil (by simp), ih, List.flatMap_cons]

/-- Lines at the start of a text are its first parts between line breaks. -/
lemma splitOn_lines (h : ∀ line ∈ lines, '\n' ∉ line) (rest : List Char) :
    (lines.flatMap (· ++ ['\n']) ++ rest).splitOn '\n' = lines ++ rest.splitOn '\n' := by
  induction lines with
  | nil => rfl
  | cons line lines ih =>
    obtain ⟨hline, hlines⟩ := List.forall_mem_cons.mp h
    rw [List.flatMap_cons, List.append_assoc, List.append_assoc, List.singleton_append,
      List.splitOn_append_cons_self_of_not_mem hline, ih hlines, List.cons_append]

/-- The lines of a text make it up, with a line break behind each. -/
theorem lines?_eq_some_iff :
    lines? text = some lines
      ↔ text = lines.flatMap (· ++ ['\n']) ∧ ∀ line ∈ lines, '\n' ∉ line := by
  have hparts : lines? text = some lines ↔ text.splitOn '\n' = lines ++ [[]] := by
    unfold lines?
    constructor
    · intro h
      dsimp only at h
      split_ifs at h with hlast
      cases h
      exact (List.dropLast_append_getLast? [] hlast).symm
    · intro h
      simp [h]
  rw [hparts, splitOn_eq_iff, intercalate_lines]
  constructor
  · rintro ⟨-, htext, hcut⟩
    exact ⟨htext, fun line hline => hcut line (List.mem_append_left _ hline)⟩
  · rintro ⟨htext, hcut⟩
    refine ⟨List.append_ne_nil_of_right_ne_nil _ (List.cons_ne_nil _ _), htext, ?_⟩
    exact List.forall_mem_append.mpr ⟨hcut, List.forall_mem_singleton.mpr List.not_mem_nil⟩

/-- A text has as many line breaks as lines. -/
lemma count_of_lines? (h : lines? text = some lines) : text.count '\n' = lines.length := by
  obtain ⟨rfl, hcut⟩ := lines?_eq_some_iff.mp h
  clear h
  induction lines with
  | nil => rfl
  | cons line lines ih =>
    obtain ⟨hline, hlines⟩ := List.forall_mem_cons.mp hcut
    rw [List.flatMap_cons, List.count_append, ih hlines,
      List.count_append, List.count_eq_zero.mpr hline,
      List.count_singleton_self, List.length_cons]
    omega

end Lines

end Restyle.Text
