import Mathlib
import Restyle.Text.Naming

/-!
Names of several words, in `kebab-case` and in `camelCase`.

* `IsPart`, `Humped`: the parts of a name in the one form, and where its capitals stand in the
  other;
* `kebabFrom_camelFrom_dashed`: a part that became a capital with what follows it is split off
  again;
* `camelFrom_kebabFrom_iff`: what is split at its capitals is put together again exactly if each of
  them follows a small letter or a digit;
* `kebab_camel_inverse`: the two ways to write a name undo each other.
-/

namespace Restyle.Text

/-- A small letter or a digit. -/
def isSmall (c : Char) : Bool :=
  isLower c || isNumeral c

/-- A part of a name: a small letter, and behind it one or more of them or of digits. -/
def IsPart (part : String) : Prop :=
  ∃ first rest, part.toList = first :: rest ∧ isLower first = true ∧ rest ≠ []
    ∧ ∀ c ∈ rest, isSmall c = true

/-- Every capital stands directly behind a small letter or a digit; at the start this is as
`afterWord` says. -/
structure Humped (afterWord : Bool) (cs : List Char) : Prop where
  first : ∀ c ∈ cs.head?, isUpper c = true → afterWord = true
  next : cs.IsChain fun b c => isUpper c = true → isSmall b = true

/-! ### Letters -/

section Letters

variable {c : Char}

lemma isUpper_eq (c : Char) : isUpper c = c.isUpper := by
  rw [isUpper, Char.isUpper, Bool.decide_and]
  rfl

lemma isLower_eq (c : Char) : isLower c = c.isLower := by
  simp only [isLower, Char.isLower, ge_iff_le, Char.le_def]

lemma isUpper_eq_false_of_isNumeral (h : isNumeral c = true) : isUpper c = false := by
  simp only [isNumeral, isUpper, Bool.and_eq_true, Bool.and_eq_false_iff, decide_eq_true_eq,
    decide_eq_false_iff_not, Char.le_def, UInt32.le_iff_toNat_le] at h ⊢
  exact .inl fun hle => absurd (hle.trans h.2) (by decide)

/-- A small character is no capital. -/
lemma isUpper_eq_false_of_isSmall (h : isSmall c = true) : isUpper c = false := by
  obtain hlower | hnumeral := (Bool.or_eq_true _ _).mp h
  · rw [isLower_eq] at hlower
    rw [isUpper_eq]
    exact Bool.eq_false_iff.mpr (Char.not_isUpper_of_isLower hlower)
  · exact isUpper_eq_false_of_isNumeral hnumeral

lemma ne_dash_of_isAlphanumeric (h : isAlphanumeric c = true) : c ≠ '-' := by
  rintro rfl
  exact absurd h (by decide)

lemma isAlphanumeric_of_isSmall (h : isSmall c = true) : isAlphanumeric c = true := by
  rw [isAlphanumeric, Bool.or_assoc]
  exact Bool.or_eq_true_iff.mpr (.inr h)

lemma isUpper_toUpper (h : isLower c = true) : isUpper c.toUpper = true := by
  rw [isLower_eq] at h
  rw [isUpper_eq, Char.isUpper_toUpper_eq_isAlpha, Char.isAlpha, h, Bool.or_true]

lemma isLower_toLower (h : isUpper c = true) : isLower c.toLower = true := by
  rw [isUpper_eq] at h
  rw [isLower_eq, Char.isLower_toLower_eq_isAlpha, Char.isAlpha, h, Bool.true_or]

/-- A small letter is found again from its capital. -/
lemma toLower_toUpper (h : isLower c = true) : c.toUpper.toLower = c := by
  rw [isLower_eq] at h
  rw [Char.toLower_toUpper_eq_toLower,
    Char.toLower_eq_of_not_isUpper (Char.not_isUpper_of_isLower h)]

/-- A capital is found again from its small letter. -/
lemma toUpper_toLower (h : isUpper c = true) : c.toLower.toUpper = c := by
  rw [isUpper_eq] at h
  rw [Char.toUpper_toLower_eq_toUpper,
    Char.toUpper_eq_of_not_isLower (Char.not_isLower_of_isUpper h)]

end Letters

/-! ### One step of each -/

section Steps

variable {c : Char} {cs rest : List Char} {afterWord : Bool}

lemma camelFrom_cons (h : c ≠ '-') (cs : List Char) : camelFrom (c :: cs) = c :: camelFrom cs := by
  rw [camelFrom]
  exact fun _ _ hc _ => h hc

/-- A dash takes the small letter behind it with it, as a capital. -/
lemma camelFrom_dash (h : isLower c = true) (cs : List Char) :
    camelFrom ('-' :: c :: cs) = c.toUpper :: camelFrom cs := by
  rw [camelFrom, if_pos h]

/-- A word of small characters goes over as it is. -/
lemma camelFrom_append (h : ∀ c ∈ cs, isSmall c = true) (rest : List Char) :
    camelFrom (cs ++ rest) = cs ++ camelFrom rest := by
  induction cs with
  | nil => rfl
  | cons c cs ih =>
    obtain ⟨hc, hcs⟩ := List.forall_mem_cons.mp h
    rw [List.cons_append, camelFrom_cons (ne_dash_of_isAlphanumeric (isAlphanumeric_of_isSmall hc)),
      ih hcs, List.cons_append]

lemma kebabFrom_small (h : isUpper c = false) (cs : List Char) :
    kebabFrom afterWord (c :: cs) = c :: kebabFrom (isSmall c) cs := by
  rw [kebabFrom, h]
  rfl

lemma kebabFrom_capital (h : isUpper c = true) (cs : List Char) :
    kebabFrom afterWord (c :: cs)
      = (if afterWord then ['-'] else []) ++ c.toLower :: kebabFrom false cs := by
  rw [kebabFrom, if_pos h]

/-- A word of small characters goes over as it is, and a capital behind it gets a dash. -/
lemma kebabFrom_append (hne : cs ≠ []) (h : ∀ c ∈ cs, isSmall c = true) (rest : List Char) :
    kebabFrom afterWord (cs ++ rest) = cs ++ kebabFrom true rest := by
  induction cs generalizing afterWord with
  | nil => exact absurd rfl hne
  | cons c cs ih =>
    obtain ⟨hc, hcs⟩ := List.forall_mem_cons.mp h
    rw [List.cons_append, kebabFrom_small (isUpper_eq_false_of_isSmall hc), hc, List.cons_append]
    cases cs with
    | nil => rfl
    | cons d cs => rw [ih (List.cons_ne_nil _ _) hcs]

end Steps

/-! ### From dashes to capitals and back -/

section Parts

variable {part : String} {parts : List String}

/-- The parts behind the first one, each with its dash. -/
def dashed (parts : List String) : List Char :=
  parts.flatMap fun part => '-' :: part.toList

/-- Parts joined by dashes are the first one and the others with a dash in front of each. -/
lemma toList_intercalate_dash (part : String) (parts : List String) :
    ("-".intercalate (part :: parts)).toList = part.toList ++ dashed parts := by
  induction parts generalizing part with
  | nil => simp [dashed]
  | cons part' parts ih =>
    rw [String.intercalate_cons_cons, String.toList_append, String.toList_append, ih]
    simp [dashed]

/-- Parts that became capitals with what follows them are split off again. -/
lemma kebabFrom_camelFrom_dashed (h : ∀ part ∈ parts, IsPart part) :
    kebabFrom true (camelFrom (dashed parts)) = dashed parts := by
  induction parts with
  | nil => rfl
  | cons part parts ih =>
    obtain ⟨⟨first, rest, hpart, hfirst, hne, hrest⟩, hparts⟩ := List.forall_mem_cons.mp h
    have hdashed : dashed (part :: parts) = '-' :: first :: (rest ++ dashed parts) := by
      rw [dashed, List.flatMap_cons, hpart]
      rfl
    rw [hdashed, camelFrom_dash hfirst, camelFrom_append hrest,
      kebabFrom_capital (isUpper_toUpper hfirst),
      toLower_toUpper hfirst, kebabFrom_append hne hrest, ih hparts]
    rfl

/-- Parts joined by dashes come back from camel case. -/
lemma toKebab_toCamel (h : ∀ part ∈ parts, IsPart part) :
    toKebab (toCamel ("-".intercalate parts)) = "-".intercalate parts := by
  cases parts with
  | nil => rfl
  | cons part parts =>
    obtain ⟨⟨first, rest, hpart, hfirst, hne, hrest⟩, hparts⟩ := List.forall_mem_cons.mp h
    have hsmall : ∀ c ∈ part.toList, isSmall c = true := by
      rw [hpart, List.forall_mem_cons]
      exact ⟨by rw [isSmall, hfirst, Bool.true_or], hrest⟩
    have hsome : part.toList ≠ [] := hpart ▸ List.cons_ne_nil _ _
    rw [← String.toList_inj, toKebab, String.toList_ofList, toCamel, String.toList_ofList,
      toList_intercalate_dash, camelFrom_append hsmall, kebabFrom_append hsome hsmall,
      kebabFrom_camelFrom_dashed hparts]

end Parts

/-! ### From capitals to dashes and back -/

section Humps

variable {c : Char} {cs : List Char} {afterWord : Bool}

lemma humped_cons : Humped afterWord (c :: cs)
    ↔ (isUpper c = true → afterWord = true) ∧ Humped (isSmall c) cs := by
  constructor
  · rintro ⟨hfirst, hnext⟩
    obtain ⟨hhead, hrest⟩ := List.isChain_cons.mp hnext
    exact ⟨hfirst c rfl, hhead, hrest⟩
  · rintro ⟨hc, hhead, hrest⟩
    refine ⟨fun d hd => ?_, List.isChain_cons.mpr ⟨hhead, hrest⟩⟩
    cases hd
    exact hc

/-- Letters and digits that are split at their capitals are put together again exactly if each
capital follows a small letter or a digit: one that does not is left without a dash, and stays
small. -/
lemma camelFrom_kebabFrom_iff (h : ∀ c ∈ cs, isAlphanumeric c = true) :
    camelFrom (kebabFrom afterWord cs) = cs ↔ Humped afterWord cs := by
  -- By induction on the text: a capital comes back just when it got a dash, which it does behind a
  -- word.
  induction cs generalizing afterWord with
  | nil => exact ⟨fun _ => ⟨nofun, .nil⟩, fun _ => rfl⟩
  | cons c cs ih =>
    obtain ⟨hc, hcs⟩ := List.forall_mem_cons.mp h
    rw [humped_cons]
    cases hupper : isUpper c with
    | false =>
      rw [kebabFrom_small hupper, camelFrom_cons (ne_dash_of_isAlphanumeric hc),
        List.cons_inj_right, ih hcs]
      simp
    | true =>
      have hsmall : isSmall c = false := by
        by_contra hne
        rw [isUpper_eq_false_of_isSmall (Bool.eq_true_of_not_eq_false hne)] at hupper
        cases hupper
      have hlower := isLower_toLower hupper
      rw [kebabFrom_capital hupper, hsmall]
      cases afterWord with
      | true =>
        rw [if_pos rfl, List.singleton_append, camelFrom_dash hlower, toUpper_toLower hupper,
          List.cons_inj_right, ih hcs]
        simp
      | false =>
        have hdash : c.toLower ≠ '-' :=
          ne_dash_of_isAlphanumeric
            (isAlphanumeric_of_isSmall (by rw [isSmall, hlower, Bool.true_or]))
        have hne : c.toLower ≠ c := by
          intro heq
          rw [heq] at hlower
          rw [isSmall, hlower, Bool.true_or] at hsmall
          cases hsmall
        rw [if_neg Bool.false_ne_true, List.nil_append, camelFrom_cons hdash]
        simp [hne]

end Humps

/-- Parts of two or more characters with dashes between them are found again from their capitals.
Letters and digits are found again from the parts that they are split into, exactly if every capital
is directly behind a small letter or a digit. -/
theorem kebab_camel_inverse :
    (∀ parts : List String, (∀ part ∈ parts, IsPart part) →
        toKebab (toCamel ("-".intercalate parts)) = "-".intercalate parts)
      ∧ ∀ s : String, (∀ c ∈ s.toList, isAlphanumeric c = true) →
        (toCamel (toKebab s) = s ↔ Humped false s.toList) := by
  refine ⟨fun parts => toKebab_toCamel, fun s hs => ?_⟩
  rw [← String.toList_inj, toCamel, String.toList_ofList, toKebab, String.toList_ofList]
  exact camelFrom_kebabFrom_iff hs

/-- Digits go with the letters before them, and a second capital in a row is lost. -/
theorem kebab_camel_inverse_digits :
    toKebab (toCamel "neon-glow2-x9") = "neon-glow2-x9"
      ∧ toCamel (toKebab "neonGlow2X9Y") = "neonGlow2X9Y" ∧ toCamel (toKebab "aAA") ≠ "aAA" := by
  have hparts : ∀ part ∈ ["neon", "glow2", "x9"], IsPart part := by
    refine List.forall_mem_cons.mpr ⟨⟨'n', "eon".toList, ?_⟩, List.forall_mem_cons.mpr
      ⟨⟨'g', "low2".toList, ?_⟩, List.forall_mem_singleton.mpr ⟨'x', "9".toList, ?_⟩⟩⟩
    all_goals exact ⟨rfl, by decide, by decide, List.all_eq_true.mp (by decide)⟩
  have hhumped : Humped false "neonGlow2X9Y".toList := by
    refine ⟨fun c hc => ?_, by decide⟩
    cases hc
    exact fun h => absurd h (by decide)
  have hflat : ¬ Humped false "aAA".toList := fun h => absurd h.next (by decide)
  refine ⟨kebab_camel_inverse.1 ["neon", "glow2", "x9"] hparts, ?_, ?_⟩
  · exact (kebab_camel_inverse.2 _ (List.all_eq_true.mp (by decide))).mpr hhumped
  · exact fun h => hflat ((kebab_camel_inverse.2 _ (List.all_eq_true.mp (by decide))).mp h)

end Restyle.Text
