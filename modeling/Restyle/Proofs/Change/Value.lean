import Restyle.Bundle.Basic
import Restyle.Change.Assignment
import Restyle.Proofs.Change.ClassList

/-!
What modifications make of the string of one attribute.

* `reword`, `rewordAll`: the quote and the inner text of a string after modifications;
* `Sticky`: a string that one assignment can meet as it is and leave in its quotes, although it
  would not write it so: it stands in single quotes and holds one;
* `rewordAll_rewordAll`: modifications that are made again change nothing, unless the string was
  sticky.
-/

namespace Restyle

open ClassList (ofValue isValid missing append)

/-! ### Strings after modifications -/

/-- What a modification makes of the inner text of a string. -/
def rewordText (m : Modification) (text : String) : String :=
  match m.action with
  | .addClass =>
    if isValid (ofValue m.value) then
      match missing (ofValue m.value) text with
      | [] => text
      | lacking => append text lacking
    else text
  | .addProp => ((Assignment.ofText? m.value).map Assignment.value).getD text
  | .wrapElement => text

/-- What a modification makes of the quote and the inner text of a string. -/
def reword (m : Modification) (s : Char × String) : Char × String :=
  match m.action with
  | .addProp =>
    match Assignment.ofText? m.value with
    | some a =>
      if s.2 = a.value then s else (if a.value.toList.contains s.1 then '"' else s.1, a.value)
    | none => s
  | _ => (s.1, rewordText m s.2)

/-- What modifications make of a string, one after the other. -/
def rewordAll (ms : List Modification) (s : Char × String) : Char × String :=
  ms.foldl (fun s m => reword m s) s

@[simp] lemma rewordAll_nil (s : Char × String) : rewordAll [] s = s := rfl

@[simp] lemma rewordAll_cons (m : Modification) (ms : List Modification) (s : Char × String) :
    rewordAll (m :: ms) s = rewordAll ms (reword m s) := rfl

lemma rewordAll_append (ms ms' : List Modification) (s : Char × String) :
    rewordAll (ms ++ ms') s = rewordAll ms' (rewordAll ms s) :=
  List.foldl_append

/-- The text of a string does not depend on its quote. -/
lemma reword_snd (m : Modification) (s : Char × String) : (reword m s).2 = rewordText m s.2 := by
  rw [reword, rewordText]
  cases m.action with
  | addClass => rfl
  | addProp =>
      cases Assignment.ofText? m.value with
      | none => rfl
      | some a =>
          dsimp only
          split
          · next h => exact h
          · rfl
  | wrapElement => rfl

/-- The text after modifications. -/
def rewordTextAll (ms : List Modification) (text : String) : String :=
  ms.foldl (fun text m => rewordText m text) text

lemma rewordAll_snd (ms : List Modification) (s : Char × String) :
    (rewordAll ms s).2 = rewordTextAll ms s.2 := by
  induction ms generalizing s with
  | nil => rfl
  | cons m ms ih => rw [rewordAll_cons, ih, reword_snd]; rfl

/-! ### Texts -/

/-- The value that a modification assigns, if it does. -/
def assigned? (m : Modification) : Option Assignment :=
  match m.action with
  | .addProp => Assignment.ofText? m.value
  | _ => none

/-- An assignment sets the text to its value. -/
lemma rewordText_of_assigned {m : Modification} {a : Assignment} (h : assigned? m = some a)
    (text : String) : rewordText m text = a.value := by
  rw [assigned?] at h
  rw [rewordText]
  split at h
  · next haction =>
      rw [haction, h]
      rfl
  · cases h

/-- The classes that a modification adds. -/
def addedClasses (m : Modification) : List String :=
  match m.action with
  | .addClass => if isValid (ofValue m.value) then ofValue m.value else []
  | _ => []

/-- Only a valid addition has classes to add, and it adds all of them. -/
lemma addedClasses_spec {m : Modification} (h : addedClasses m ≠ []) :
    m.action = .addClass ∧ isValid (ofValue m.value) = true
      ∧ addedClasses m = ofValue m.value := by
  rw [addedClasses] at h ⊢
  split at h
  · next haction =>
      split at h
      · next hvalid => exact ⟨haction, hvalid, by rw [if_pos hvalid]⟩
      · exact absurd rfl h
  · exact absurd rfl h

lemma solid_addedClasses {m : Modification} {c : String} (h : c ∈ addedClasses m) :
    Text.Solid c.toList := by
  rw [(addedClasses_spec (List.ne_nil_of_mem h)).2.2] at h
  exact ClassList.solid_of_mem_ofValue h

lemma isForbidden_addedClasses {m : Modification} {c : String} (h : c ∈ addedClasses m) {d : Char}
    (hd : d ∈ c.toList) : ClassList.isForbidden d = false := by
  obtain ⟨-, hvalid, heq⟩ := addedClasses_spec (List.ne_nil_of_mem h)
  rw [heq] at h
  rw [isValid, Bool.and_eq_true, List.all_eq_true] at hvalid
  have hall := hvalid.2 c h
  rw [Bool.not_eq_true', List.any_eq_false] at hall
  exact Bool.not_eq_true _ ▸ hall d hd

/-- A modification that assigns nothing puts the classes that are missing behind a text. -/
lemma rewordText_of_not_assigned {m : Modification} (h : assigned? m = none) (text : String) :
    rewordText m text = text ∧ missing (addedClasses m) text = []
      ∨ missing (addedClasses m) text ≠ []
        ∧ rewordText m text = append text (missing (addedClasses m) text) := by
  have hempty : missing [] text = [] :=
    ClassList.missing_eq_nil_iff.mpr (.inr fun c hc => nomatch hc)
  rw [assigned?] at h
  rw [rewordText, addedClasses]
  -- Only an addition of valid classes does anything.
  cases haction : m.action with
  | addClass =>
      dsimp only
      split
      · cases hmissing : missing (ofValue m.value) text with
        | nil => exact .inl ⟨rfl, rfl⟩
        | cons c lacking => exact .inr ⟨List.cons_ne_nil _ _, rfl⟩
      · exact .inl ⟨rfl, hempty⟩
  | addProp =>
      rw [haction] at h
      dsimp only at h ⊢
      rw [h]
      exact .inl ⟨rfl, hempty⟩
  | wrapElement => exact .inl ⟨rfl, hempty⟩

/-- What a modification adds is there, and stays there while nothing is assigned. -/
lemma missing_rewordText {m m' : Modification} (hm' : assigned? m' = none) {text : String}
    (h : missing (addedClasses m) text = []) :
    missing (addedClasses m) (rewordText m' text) = [] := by
  rcases rewordText_of_not_assigned hm' text with ⟨heq, -⟩ | ⟨-, heq⟩
  · rw [heq]
    exact h
  · rw [heq]
    by_cases hne : addedClasses m = []
    · rw [hne]
      exact ClassList.missing_eq_nil_iff.mpr (.inr fun c hc => nomatch hc)
    · exact ClassList.missing_append (fun c hc => solid_addedClasses hc) hne
        (fun c hc => solid_addedClasses (ClassList.mem_of_mem_missing hc)) h

/-- After an addition none of its classes is missing. -/
lemma missing_rewordText_self {m : Modification} (hm : assigned? m = none) (text : String) :
    missing (addedClasses m) (rewordText m text) = [] := by
  rcases rewordText_of_not_assigned hm text with ⟨heq, h⟩ | ⟨hne, heq⟩
  · rw [heq]
    exact h
  · rw [heq]
    exact ClassList.missing_append_missing text (fun c hc => solid_addedClasses hc) hne

lemma rewordText_of_missing {m : Modification} (hm : assigned? m = none) {text : String}
    (h : missing (addedClasses m) text = []) : rewordText m text = text := by
  rcases rewordText_of_not_assigned hm text with ⟨heq, -⟩ | ⟨hne, -⟩
  · exact heq
  · exact absurd h hne

/-- Further additions take no class away. -/
lemma missing_rewordTextAll {ms : List Modification} (hms : ∀ m ∈ ms, assigned? m = none)
    {m : Modification} {text : String} (h : missing (addedClasses m) text = []) :
    missing (addedClasses m) (rewordTextAll ms text) = [] := by
  induction ms generalizing text with
  | nil => exact h
  | cons m' ms ih =>
      exact ih (fun x hx => hms x (List.mem_cons_of_mem _ hx))
        (missing_rewordText (hms m' List.mem_cons_self) h)

/-- After modifications that assign nothing, none of their classes is missing. -/
lemma missing_of_mem_rewordTextAll {ms : List Modification} (hms : ∀ m ∈ ms, assigned? m = none)
    {m : Modification} (hm : m ∈ ms) (text : String) :
    missing (addedClasses m) (rewordTextAll ms text) = [] := by
  induction ms generalizing text with
  | nil => cases hm
  | cons m' ms ih =>
      have hms' : ∀ x ∈ ms, assigned? x = none := fun x hx => hms x (List.mem_cons_of_mem _ hx)
      rcases List.mem_cons.mp hm with rfl | hm
      · exact missing_rewordTextAll hms' (missing_rewordText_self (hms m List.mem_cons_self) text)
      · exact ih hms' hm _

/-- Additions with nothing missing keep the text. -/
lemma rewordTextAll_of_missing {ms : List Modification} (hms : ∀ m ∈ ms, assigned? m = none)
    {text : String} (h : ∀ m ∈ ms, missing (addedClasses m) text = []) :
    rewordTextAll ms text = text := by
  induction ms with
  | nil => rfl
  | cons m ms ih =>
      have hm : rewordText m text = text :=
        rewordText_of_missing (hms m List.mem_cons_self) (h m List.mem_cons_self)
      have hrest := ih (fun x hx => hms x (List.mem_cons_of_mem _ hx))
        fun x hx => h x (List.mem_cons_of_mem _ hx)
      rw [rewordTextAll, List.foldl_cons, hm]
      exact hrest

/-- Once something is assigned, the text before is of no account. -/
lemma rewordTextAll_of_assigned {ms : List Modification} {m : Modification} (hm : m ∈ ms)
    (h : assigned? m ≠ none) (text text' : String) :
    rewordTextAll ms text = rewordTextAll ms text' := by
  obtain ⟨before, behind, rfl⟩ := List.append_of_mem hm
  obtain ⟨a, ha⟩ := Option.ne_none_iff_exists'.mp h
  simp only [rewordTextAll, List.foldl_append, List.foldl_cons, rewordText_of_assigned ha]

/-- Modifications that are made again leave the text as it is. -/
theorem rewordTextAll_rewordTextAll (ms : List Modification) (text : String) :
    rewordTextAll ms (rewordTextAll ms text) = rewordTextAll ms text := by
  by_cases h : ∃ m ∈ ms, assigned? m ≠ none
  · obtain ⟨m, hm, hassigned⟩ := h
    exact rewordTextAll_of_assigned hm hassigned _ _
  · have hms : ∀ m ∈ ms, assigned? m = none := fun m hm => by
      by_contra hne
      exact h ⟨m, hm, hne⟩
    exact rewordTextAll_of_missing hms fun m hm => missing_of_mem_rewordTextAll hms hm text

/-! ### Quotes -/

/-- A string in single quotes that holds one, and that can be assigned, perhaps with classes behind
it: met as it is, it is left in its quotes, but it is not written so. -/
def Sticky (s : Char × String) : Prop :=
  s.1 = '\'' ∧ '\'' ∈ s.2.toList
    ∧ (Text.trimEnd s.2).toList.any Assignment.breaksValue = false

/-- A string in quotes that is not sticky. -/
structure Tame (s : Char × String) : Prop where
  quote : s.1 = '"' ∨ s.1 = '\''
  not_sticky : ¬ Sticky s

/-- Whether a modification assigns a value that cannot stand in single quotes. -/
def needsDouble (m : Modification) : Bool :=
  (assigned? m).any fun a => a.value.toList.contains '\''

/-- An assignment read from a text has a markup name and a value that breaks no string. -/
lemma ofText?_spec {s : String} {a : Assignment} (h : Assignment.ofText? s = some a) :
    isMarkupName a.name = true ∧ a.value.toList.any Assignment.breaksValue = false := by
  rw [Assignment.ofText?] at h
  split at h
  · cases h
  · dsimp only at h
    split at h
    · next hvalid =>
        cases h
        simpa using hvalid
    · cases h

lemma assigned?_spec {m : Modification} {a : Assignment} (h : assigned? m = some a) :
    m.action = .addProp ∧ isMarkupName a.name = true
      ∧ a.value.toList.any Assignment.breaksValue = false := by
  rw [assigned?] at h
  split at h
  · next haction => exact ⟨haction, ofText?_spec h⟩
  · cases h

/-- An assignment sets the value, in double quotes if it holds the quote there is. -/
lemma reword_of_assigned {m : Modification} {a : Assignment} (h : assigned? m = some a)
    (s : Char × String) :
    reword m s = if s.2 = a.value then s
      else (if a.value.toList.contains s.1 then '"' else s.1, a.value) := by
  rw [assigned?] at h
  rw [reword]
  split at h
  · rw [h]
  · cases h

/-- What is no assignment keeps the quote. -/
lemma reword_of_not_assigned {m : Modification} (h : assigned? m = none) (s : Char × String) :
    reword m s = (s.1, rewordText m s.2) := by
  rw [assigned?] at h
  rw [reword]
  cases haction : m.action with
  | addProp =>
      rw [haction] at h
      dsimp only at h ⊢
      rw [rewordText, haction, h]
      rfl
  | addClass => rfl
  | wrapElement => rfl

lemma not_mem_of_not_any {s : String} {c : Char} (hc : Assignment.breaksValue c = true)
    (h : s.toList.any Assignment.breaksValue = false) : c ∉ s.toList := fun hmem => by
  rw [List.any_eq_false] at h
  exact h c hmem hc

lemma any_trimEnd {s : String} (h : s.toList.any Assignment.breaksValue = false) :
    (Text.trimEnd s).toList.any Assignment.breaksValue = false := by
  rw [List.any_eq_false] at h ⊢
  intro c hc
  rw [Text.trimEnd, String.toList_ofList] at hc
  exact h c (Text.mem_of_mem_trimRight hc)

/-- A value that is assigned and holds a single quote is not the text of a tame string in single
quotes. -/
lemma Tame.ne_of_needsDouble {s : Char × String} (hs : Tame s) (hquote : s.1 = '\'')
    {m : Modification} {a : Assignment} (ha : assigned? m = some a)
    (hdouble : '\'' ∈ a.value.toList) : s.2 ≠ a.value := fun heq => by
  refine hs.not_sticky ⟨hquote, heq ▸ hdouble, ?_⟩
  rw [heq]
  exact any_trimEnd (assigned?_spec ha).2.2

/-- The quotes of a tame string after a modification. -/
lemma Tame.reword_fst {s : Char × String} (hs : Tame s) (m : Modification) :
    (reword m s).1 = if needsDouble m then '"' else s.1 := by
  cases ha : assigned? m with
  | none =>
      rw [reword_of_not_assigned ha, needsDouble, ha]
      rfl
  | some a =>
      rw [reword_of_assigned ha, needsDouble, ha, Option.any_some]
      rcases hs.quote with hq | hq
      · have hno : a.value.toList.contains s.1 = false := by
          rw [hq]
          simpa using not_mem_of_not_any (by decide) (assigned?_spec ha).2.2
        rw [hno]
        split <;> split <;> simp [hq]
      · by_cases hdouble : '\'' ∈ a.value.toList
        · rw [if_neg (hs.ne_of_needsDouble hq ha hdouble), hq]
        · rw [hq]
          split <;> simp [hdouble, hq]

/-- Modifications leave tame strings. -/
lemma Tame.reword {s : Char × String} (hs : Tame s) (m : Modification) : Tame (reword m s) := by
  have hfst := hs.reword_fst m
  refine ⟨?_, fun hsticky => ?_⟩
  · rw [hfst]
    split
    · exact .inl rfl
    · exact hs.quote
  · obtain ⟨hquote, hmem, hany⟩ := hsticky
    rw [hfst] at hquote
    split at hquote
    · cases hquote
    · next hdouble =>
        rw [reword_snd] at hmem hany
        cases ha : assigned? m with
        | some a =>
            rw [rewordText_of_assigned ha] at hmem
            rw [needsDouble, ha] at hdouble
            exact hdouble (by simpa using hmem)
        | none =>
            rcases rewordText_of_not_assigned ha s.2 with ⟨heq, -⟩ | ⟨hne, heq⟩
            · rw [heq] at hmem hany
              exact hs.not_sticky ⟨hquote, hmem, hany⟩
            · rw [heq] at hmem
              rw [heq, ClassList.trimEnd_append _ (fun c hc =>
                solid_addedClasses (ClassList.mem_of_mem_missing hc)) hne] at hany
              -- what is added has no quote in it, so that a quote in the new text was there before
              have hno : '\'' ∉ (" ".intercalate (missing (addedClasses m) s.2)).toList := by
                intro h
                obtain ⟨c, hc, hd⟩ := ClassList.mem_intercalate (by decide) h
                have := isForbidden_addedClasses (ClassList.mem_of_mem_missing hc) hd
                exact absurd this (by decide)
              rw [ClassList.toList_append] at hmem hany
              split at hmem
              · exact hno hmem
              · next hblank =>
                rw [if_neg hblank, List.any_append, Bool.or_eq_false_iff] at hany
                rcases List.mem_append.mp hmem with hmem | hmem
                · refine hs.not_sticky ⟨hquote, Text.mem_of_mem_trimRight hmem, ?_⟩
                  rw [Text.trimEnd, String.toList_ofList]
                  exact hany.1
                · rcases List.mem_cons.mp hmem with hmem | hmem
                  · cases hmem
                  · exact hno hmem

lemma Tame.rewordAll {s : Char × String} (hs : Tame s) (ms : List Modification) :
    Tame (rewordAll ms s) := by
  induction ms generalizing s with
  | nil => exact hs
  | cons m ms ih => exact ih (hs.reword m)

/-- A tame string ends in double quotes once some assignment needs them. -/
lemma Tame.rewordAll_fst {s : Char × String} (hs : Tame s) (ms : List Modification) :
    (Restyle.rewordAll ms s).1 = if ms.any needsDouble then '"' else s.1 := by
  induction ms generalizing s with
  | nil => rfl
  | cons m ms ih =>
      rw [rewordAll_cons, ih (hs.reword m), hs.reword_fst, List.any_cons]
      cases needsDouble m <;> simp

/-- Without assignments the quote stays. -/
lemma rewordAll_fst_of_not_assigned {ms : List Modification} (hms : ∀ m ∈ ms, assigned? m = none)
    (s : Char × String) : (rewordAll ms s).1 = s.1 := by
  induction ms generalizing s with
  | nil => rfl
  | cons m ms ih =>
      rw [rewordAll_cons, ih fun x hx => hms x (List.mem_cons_of_mem _ hx),
        reword_of_not_assigned (hms m List.mem_cons_self)]

/-- Modifications that are made again leave a string as it is, unless they assign to it and it was
sticky. -/
theorem rewordAll_rewordAll {s : Char × String} {ms : List Modification}
    (hs : (∃ m ∈ ms, assigned? m ≠ none) → Tame s) :
    rewordAll ms (rewordAll ms s) = rewordAll ms s := by
  refine Prod.ext ?_ ?_
  · by_cases h : ∃ m ∈ ms, assigned? m ≠ none
    · rw [((hs h).rewordAll ms).rewordAll_fst, (hs h).rewordAll_fst]
      split <;> rfl
    · have hms : ∀ m ∈ ms, assigned? m = none := fun m hm => by
        by_contra hne
        exact h ⟨m, hm, hne⟩
      exact rewordAll_fst_of_not_assigned hms _
  · rw [rewordAll_snd, rewordAll_snd, rewordTextAll_rewordTextAll]

/-- A string in double quotes stays in them. -/
lemma rewordAll_fst_of_double {s : Char × String} (hs : s.1 = '"') (ms : List Modification) :
    (rewordAll ms s).1 = '"' := by
  have htame : Tame s := ⟨.inl hs, fun h => absurd (hs.symm.trans h.1) (by decide)⟩
  rw [htame.rewordAll_fst, hs]
  split <;> rfl

/-- An assignment to a string in double quotes. -/
lemma reword_of_double {s : Char × String} (hs : s.1 = '"') {m : Modification} {a : Assignment}
    (ha : assigned? m = some a) : reword m s = ('"', a.value) := by
  rw [reword_of_assigned ha]
  split
  · next h => exact Prod.ext hs h
  · rw [hs, ite_self]

end Restyle
