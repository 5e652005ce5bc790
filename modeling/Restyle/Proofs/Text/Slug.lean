import Mathlib
import Restyle.Proofs.Text.Naming

/-!
Slugs of texts.

* `Runs`: the maximal runs of letters and digits of a text, in order;
* `Runs.exists_eq_iff`: every text has them, and in one way only;
* `Runs.slugFrom`: a slug is made of the runs in small letters, with a dash between them;
* `toSlug_intercalate`: what is made so of words is its own slug;
* `toSlug_runs`: what slugs look like, and that a second time changes nothing.
-/

namespace Restyle.Text

/-- The maximal runs of letters and digits of a text, in order. What stands before a run and what
stands behind it is another character or an end of the text. -/
inductive Runs : List Char → List (List Char) → Prop
  | nil : Runs [] []
  | gap {c : Char} {cs : List Char} {runs : List (List Char)} (hc : isAlphanumeric c = false)
      (hcs : Runs cs runs) : Runs (c :: cs) runs
  | run {run cs : List Char} {runs : List (List Char)} (hne : run ≠ [])
      (hrun : ∀ c ∈ run, isAlphanumeric c = true) (hend : ∀ c ∈ cs.head?, isAlphanumeric c = false)
      (hcs : Runs cs runs) : Runs (run ++ cs) (run :: runs)

/-- A run in small letters. -/
def inSmall (run : List Char) : String :=
  String.ofList (run.map Char.toLower)

/-- A word of a slug: small letters and digits, and at least one of them. -/
def IsWord (word : String) : Prop :=
  word.toList ≠ [] ∧ ∀ c ∈ word.toList, isSmall c = true

section Letters

variable {c : Char} {word : String}

lemma toLower_eq_of_isSmall (h : isSmall c = true) : c.toLower = c := by
  have hupper := isUpper_eq_false_of_isSmall h
  rw [isUpper_eq] at hupper
  exact Char.toLower_eq_of_not_isUpper (Bool.eq_false_iff.mp hupper)

lemma isSmall_toLower (h : isAlphanumeric c = true) : isSmall c.toLower = true := by
  rw [isAlphanumeric, Bool.or_assoc] at h
  obtain hupper | hsmall := Bool.or_eq_true_iff.mp h
  · rw [isSmall, isLower_toLower hupper, Bool.true_or]
  · rwa [toLower_eq_of_isSmall hsmall]

lemma isWord_inSmall {run : List Char} (hne : run ≠ [])
    (hrun : ∀ c ∈ run, isAlphanumeric c = true) : IsWord (inSmall run) := by
  rw [IsWord, inSmall, String.toList_ofList, List.forall_mem_map]
  exact ⟨List.map_eq_nil_iff.not.mpr hne, fun c hc => isSmall_toLower (hrun c hc)⟩

/-- A word is in small letters already. -/
lemma inSmall_toList (h : IsWord word) : inSmall word.toList = word := by
  have hsame : word.toList.map Char.toLower = word.toList.map id :=
    List.map_congr_left fun c hc => toLower_eq_of_isSmall (h.2 c hc)
  rw [inSmall, hsame, List.map_id, String.ofList_toList]

end Letters

/-! ### Runs -/

namespace Runs

variable {cs : List Char} {runs : List (List Char)}

/-- Every text has runs. -/
lemma exists_runs (cs : List Char) : ∃ runs, Runs cs runs := by
  induction cs with
  | nil => exact ⟨[], .nil⟩
  | cons c cs ih =>
    obtain ⟨runs, h⟩ := ih
    cases hc : isAlphanumeric c with
    | false => exact ⟨runs, .gap hc h⟩
    | true =>
      have hone : ∀ d ∈ [c], isAlphanumeric d = true := List.forall_mem_singleton.mpr hc
      -- the character goes to the run behind it, if there is one right there
      cases h with
      | nil => exact ⟨[[c]], .run (List.cons_ne_nil _ _) hone nofun .nil⟩
      | gap hd h =>
        refine ⟨[c] :: runs, .run (List.cons_ne_nil _ _) hone (fun d hd' => ?_) (.gap hd h)⟩
        cases hd'
        exact hd
      | @run run cs runs _ hrun hend h =>
        exact ⟨(c :: run) :: runs,
          .run (List.cons_ne_nil _ _) (List.forall_mem_cons.mpr ⟨hc, hrun⟩) hend h⟩

/-- A run is taken up to its end. -/
lemma takeWhile_append {run : List Char} (hrun : ∀ c ∈ run, isAlphanumeric c = true)
    (hend : ∀ c ∈ cs.head?, isAlphanumeric c = false) :
    (run ++ cs).takeWhile isAlphanumeric = run := by
  have hnone : cs.takeWhile isAlphanumeric = [] := by
    cases cs with
    | nil => rfl
    | cons c cs => exact List.takeWhile_cons_of_neg (Bool.eq_false_iff.mp (hend c rfl))
  rw [List.takeWhile_append_of_pos hrun, hnone, List.append_nil]

lemma head_run {run : List Char} (hne : run ≠ []) (hrun : ∀ c ∈ run, isAlphanumeric c = true)
    {c : Char} {rest : List Char} (h : run ++ cs = c :: rest) : isAlphanumeric c = true := by
  cases run with
  | nil => exact absurd rfl hne
  | cons d run =>
    cases h
    exact hrun c List.mem_cons_self

/-- A text has its runs in one way only. -/
lemma unique {others : List (List Char)} (h : Runs cs runs) (hothers : Runs cs others) :
    others = runs := by
  -- By induction on the one list of runs, whose first character tells which case the other one is
  -- in.
  induction h generalizing others with
  | nil =>
    generalize hcs : ([] : List Char) = cs at hothers
    cases hothers with
    | nil => rfl
    | gap => cases hcs
    | run hne => exact absurd (List.append_eq_nil_iff.mp hcs.symm).1 hne
  | @gap c cs runs hc _ ih =>
    generalize htext : c :: cs = text at hothers
    cases hothers with
    | nil => cases htext
    | gap _ hcs =>
      cases htext
      exact ih hcs
    | run hne hrun =>
      rw [head_run hne hrun htext.symm] at hc
      cases hc
  | @run run cs runs hne hrun hend _ ih =>
    generalize htext : run ++ cs = text at hothers
    cases hothers with
    | nil => exact absurd (List.append_eq_nil_iff.mp htext).1 hne
    | gap hc =>
      rw [head_run hne hrun htext] at hc
      cases hc
    | @run run' cs' runs' _ hrun' hend' hcs' =>
      have hsame : run = run' := by
        rw [← takeWhile_append hrun hend, htext, takeWhile_append hrun' hend']
      subst hsame
      rw [List.append_cancel_left htext] at ih
      rw [ih hcs']

/-- Every text has runs, and in one way only. -/
lemma exists_eq_iff (cs : List Char) : ∃ runs, ∀ others, Runs cs others ↔ others = runs := by
  obtain ⟨runs, h⟩ := exists_runs cs
  refine ⟨runs, fun others => ⟨h.unique, ?_⟩⟩
  rintro rfl
  exact h

/-- Runs in small characters are words. -/
lemma isWord (h : Runs cs runs) : ∀ word ∈ runs.map inSmall, IsWord word := by
  induction h with
  | nil => exact nofun
  | gap _ _ ih => exact ih
  | run hne hrun _ _ ih =>
    rw [List.map_cons, List.forall_mem_cons]
    exact ⟨isWord_inSmall hne hrun, ih⟩

end Runs

/-! ### What becomes of the runs -/

section Slugs

variable {cs run : List Char} {runs : List (List Char)} {started gap : Bool}

lemma slugFrom_gap {c : Char} (hc : isAlphanumeric c = false) (cs : List Char) :
    slugFrom started gap (c :: cs) = slugFrom started true cs := by
  rw [slugFrom, hc, if_neg Bool.false_ne_true]

lemma slugFrom_cons {c : Char} (hc : isAlphanumeric c = true) (cs : List Char) :
    slugFrom started gap (c :: cs)
      = (if started && gap then ['-'] else []) ++ c.toLower :: slugFrom true false cs := by
  rw [slugFrom, if_pos hc]

/-- A run goes over in lower case. -/
lemma slugFrom_append (hrun : ∀ c ∈ run, isAlphanumeric c = true) (cs : List Char) :
    slugFrom true false (run ++ cs) = run.map Char.toLower ++ slugFrom true false cs := by
  induction run with
  | nil => rfl
  | cons c run ih =>
    obtain ⟨hc, hrun⟩ := List.forall_mem_cons.mp hrun
    rw [List.cons_append, slugFrom_cons hc, ih hrun]
    rfl

/-- A run is written with a dash before it, if something stands between it and an earlier one. -/
lemma slugFrom_run (hne : run ≠ []) (hrun : ∀ c ∈ run, isAlphanumeric c = true) (cs : List Char) :
    slugFrom started gap (run ++ cs)
      = (if started && gap then ['-'] else [])
        ++ ((inSmall run).toList ++ slugFrom true false cs) := by
  cases run with
  | nil => exact absurd rfl hne
  | cons c run =>
    obtain ⟨hc, hrun⟩ := List.forall_mem_cons.mp hrun
    rw [List.cons_append, slugFrom_cons hc, slugFrom_append hrun, inSmall, String.toList_ofList]
    rfl

/-- Where a run ends there is a gap, unless the text ends too. -/
lemma slugFrom_end (hend : ∀ c ∈ cs.head?, isAlphanumeric c = false) :
    slugFrom true false cs = slugFrom true true cs := by
  cases cs with
  | nil => rfl
  | cons c cs => rw [slugFrom_gap (hend c rfl), slugFrom_gap (hend c rfl)]

/-- Behind the first run each run goes over with a dash in front. -/
lemma Runs.slugFrom_started (h : Runs cs runs) :
    Text.slugFrom true true cs = dashed (runs.map inSmall) := by
  induction h with
  | nil => rfl
  | gap hc _ ih => rw [slugFrom_gap hc, ih]
  | run hne hrun hend _ ih =>
    rw [slugFrom_run hne hrun, slugFrom_end hend, ih]
    rfl

/-- A slug is made of the runs in small letters, with a dash between each two of them. -/
lemma Runs.slugFrom (h : Runs cs runs) :
    Text.slugFrom false gap cs = ("-".intercalate (runs.map inSmall)).toList := by
  induction h generalizing gap with
  | nil => rfl
  | gap hc _ ih => rw [slugFrom_gap hc, ih]
  | run hne hrun hend h _ =>
    rw [slugFrom_run hne hrun, slugFrom_end hend, h.slugFrom_started, List.map_cons,
      toList_intercalate_dash]
    rfl

end Slugs

/-! ### Words with dashes between them -/

section Words

variable {words : List String}

lemma head_dashed (words : List String) : ∀ c ∈ (dashed words).head?, isAlphanumeric c = false := by
  cases words with
  | nil => exact nofun
  | cons word words =>
    intro c hc
    cases hc
    rfl

lemma runs_append {word : String} (h : IsWord word)
    (hwords : Runs (dashed words) (words.map String.toList)) :
    Runs (word.toList ++ dashed words) ((word :: words).map String.toList) :=
  .run h.1 (fun c hc => isAlphanumeric_of_isSmall (h.2 c hc)) (head_dashed words) hwords

/-- Words with dashes in front of them are the runs of the whole. -/
lemma runs_dashed (h : ∀ word ∈ words, IsWord word) :
    Runs (dashed words) (words.map String.toList) := by
  induction words with
  | nil => exact .nil
  | cons word words ih =>
    obtain ⟨hword, hwords⟩ := List.forall_mem_cons.mp h
    exact .gap rfl (runs_append hword (ih hwords))

/-- Words with dashes between them are the runs of that text. -/
lemma runs_intercalate (h : ∀ word ∈ words, IsWord word) :
    Runs ("-".intercalate words).toList (words.map String.toList) := by
  cases words with
  | nil => exact .nil
  | cons word words =>
    obtain ⟨hword, hwords⟩ := List.forall_mem_cons.mp h
    rw [toList_intercalate_dash]
    exact runs_append hword (runs_dashed hwords)

/-- Words with dashes between them are their own slug. -/
lemma toSlug_intercalate (h : ∀ word ∈ words, IsWord word) :
    toSlug ("-".intercalate words) = "-".intercalate words := by
  have hwords : (words.map String.toList).map inSmall = words.map id := by
    rw [List.map_map]
    exact List.map_congr_left fun word hword => inSmall_toList (h word hword)
  rw [toSlug, (runs_intercalate h).slugFrom, hwords, List.map_id, String.ofList_toList]

/-- Words with dashes in front of them have small characters and dashes only. -/
lemma small_of_mem_dashed (h : ∀ word ∈ words, IsWord word) :
    ∀ c ∈ dashed words, isSmall c || c = '-' := by
  intro c hc
  obtain ⟨word, hword, hc⟩ := List.mem_flatMap.mp hc
  obtain rfl | hc := List.mem_cons.mp hc
  · rfl
  · rw [(h word hword).2 c hc, Bool.true_or]

/-- Words joined by dashes are in kebab case. -/
lemma isKebab_intercalate (hne : words ≠ []) (h : ∀ word ∈ words, IsWord word) :
    isKebab ("-".intercalate words) = true := by
  cases words with
  | nil => exact absurd rfl hne
  | cons word words =>
    obtain ⟨hword, hwords⟩ := List.forall_mem_cons.mp h
    rw [isKebab, toList_intercalate_dash, Bool.and_eq_true, List.all_append, Bool.and_eq_true,
      List.all_eq_true, List.all_eq_true]
    refine ⟨?_, fun c hc => ?_, small_of_mem_dashed hwords⟩
    · rw [Bool.not_eq_true', List.isEmpty_eq_false_iff]
      exact List.append_ne_nil_of_left_ne_nil hword.1 _
    · exact Bool.or_eq_true_iff.mpr (.inl (hword.2 c hc))

/-- No dash is next to another, also if there is one more behind the words. -/
lemma isChain_dashed (h : ∀ word ∈ words, IsWord word) :
    (dashed words ++ ['-']).IsChain fun b c => b = '-' → c ≠ '-' := by
  induction words with
  | nil => exact .singleton _
  | cons word words ih =>
    obtain ⟨⟨hne, hword⟩, hwords⟩ := List.forall_mem_cons.mp h
    have hnone : ∀ c ∈ word.toList, c ≠ '-' := fun c hc =>
      ne_dash_of_isAlphanumeric (isAlphanumeric_of_isSmall (hword c hc))
    have hrest : (word.toList ++ (dashed words ++ ['-'])).IsChain fun b c => b = '-' → c ≠ '-' := by
      refine List.isChain_append.mpr ⟨?_, ih hwords, fun b hb _ _ hdash => ?_⟩
      · exact List.Pairwise.isChain (List.pairwise_of_forall_mem_list fun b hb _ _ hdash =>
          absurd hdash (hnone b hb))
      · exact absurd hdash (hnone b (List.mem_of_getLast? hb))
    have hfirst : ∀ c ∈ (word.toList ++ (dashed words ++ ['-'])).head?, '-' = '-' → c ≠ '-' := by
      intro c hc _
      rw [List.head?_append_of_ne_nil _ hne] at hc
      exact hnone c (List.mem_of_head? hc)
    have hwhole := List.isChain_cons.mpr ⟨hfirst, hrest⟩
    rwa [← List.append_assoc] at hwhole

/-- No dash is first, last or behind another one. -/
lemma dashes_apart (h : ∀ word ∈ words, IsWord word) :
    ¬ ['-'] <+: ("-".intercalate words).toList ∧ ¬ ['-'] <:+ ("-".intercalate words).toList
      ∧ ¬ ['-', '-'] <:+: ("-".intercalate words).toList := by
  cases words with
  | nil => decide
  | cons word words =>
    have hchain := isChain_dashed h
    have hwhole : dashed (word :: words) ++ ['-']
        = '-' :: ("-".intercalate (word :: words)).toList ++ ['-'] := by
      rw [toList_intercalate_dash]
      rfl
    rw [hwhole] at hchain
    have hnone : ¬ ['-', '-'] <:+: '-' :: ("-".intercalate (word :: words)).toList ++ ['-'] := by
      intro hpair
      have hpair := List.IsChain.infix hchain hpair
      exact absurd hpair (by decide)
    refine ⟨fun hfirst => hnone ?_, fun hlast => hnone ?_, fun hmiddle => hnone ?_⟩
    · exact ((List.prefix_cons_inj '-').mpr hfirst).isInfix.trans (List.prefix_append _ _).isInfix
    · obtain ⟨before, hbefore⟩ := hlast
      exact ⟨'-' :: before, [], by rw [← hbefore]; simp⟩
    · exact hmiddle.trans ⟨['-'], ['-'], rfl⟩

end Words

/-- The slug of a text holds its maximal runs of letters and digits, in small letters and with a
dash between each two of them. So there is no dash but between words, and the slug of a slug is the
same. -/
theorem toSlug_runs (s : String) :
    (∃ runs, (∀ others, Runs s.toList others ↔ others = runs)
        ∧ toSlug s = "-".intercalate (runs.map inSmall))
      ∧ (toSlug s = "" ∨ isKebab (toSlug s) = true)
      ∧ (¬ ['-'] <+: (toSlug s).toList ∧ ¬ ['-'] <:+ (toSlug s).toList
        ∧ ¬ ['-', '-'] <:+: (toSlug s).toList)
      ∧ toSlug (toSlug s) = toSlug s := by
  obtain ⟨runs, hruns⟩ := Runs.exists_eq_iff s.toList
  have h : Runs s.toList runs := (hruns runs).mpr rfl
  have hslug : toSlug s = "-".intercalate (runs.map inSmall) := by
    rw [toSlug, h.slugFrom, String.ofList_toList]
  refine ⟨⟨runs, hruns, hslug⟩, ?_⟩
  rw [hslug]
  refine ⟨?_, dashes_apart h.isWord, toSlug_intercalate h.isWord⟩
  cases hwords : runs.map inSmall with
  | nil => exact .inl rfl
  | cons word words =>
    rw [← hwords]
    exact .inr (isKebab_intercalate (by rw [hwords]; exact List.cons_ne_nil _ _) h.isWord)

example : toSlug "  Cyberpunk é Neon!! v2 -" = "cyberpunk-neon-v2" := by decide

end Restyle.Text
