import Restyle.Proofs.Bundle.Accepted
import Restyle.Proofs.Json.ReadBack
import Restyle.Proofs.Theme.Stylesheet

/-!
The stylesheet of a component declares its variables.

* `StyleBlock.first?`, `StyleBlock.first?_append`: the block with which a stylesheet begins is read,
  whatever follows;
* `Bundle.bare`, `Bundle.eq_bare_or`: a name without the dashes that it starts with;
* `Dictionary.DeclaredOnce`, `Dictionary.Unambiguous`: each variable is declared once, with the
  value that its name has; the names that a dictionary must not hold for it;
* `Bundle.declaredOnce_iff`: a component's variables are declared once exactly if its names are
  unambiguous.
-/

namespace Restyle

/-! ### The first block of a stylesheet -/

namespace StyleBlock

/-- The block with which a stylesheet begins: its lines up to the first with nothing but an end. -/
def first? (css : String) : Option StyleBlock :=
  let lines := css.toList.splitOn '\n'
  ofLines? (lines.takeWhile (· ≠ ['\x7d']) ++ (lines.dropWhile (· ≠ ['\x7d'])).take 1)

variable {b : StyleBlock}

/-- A line of a block that is not its last is none with nothing but an end. -/
lemma ne_end_of_mem (b : StyleBlock) :
    ∀ line ∈ (b.selector.toList ++ " \x7b".toList) :: b.declarations.map row, line ≠ ['\x7d'] := by
  refine List.forall_mem_cons.mpr ⟨fun h => ?_, List.forall_mem_map.mpr fun d _ => by simp [row]⟩
  have hlength := congrArg List.length h
  simp at hlength

/-- A block is read where a stylesheet begins with it, if no value breaks a line. -/
lemma first?_append (h : b.Named) (hvalues : b.Unbroken) (rest : String) :
    first? (b.text ++ rest) = some b := by
  have hrows : b.rows
      = ((b.selector.toList ++ " \x7b".toList) :: b.declarations.map row) ++ [['\x7d']] := rfl
  have hfront : ∀ line ∈ (b.selector.toList ++ " \x7b".toList) :: b.declarations.map row,
      decide (line ≠ ['\x7d']) = true :=
    fun line hline => decide_eq_true (b.ne_end_of_mem line hline)
  rw [first?, String.toList_append, toList_text,
    Text.splitOn_lines (notMem_of_mem_rows h hvalues), hrows,
    List.append_assoc, List.takeWhile_append_of_pos hfront,
    List.dropWhile_append_of_pos hfront, List.singleton_append,
    List.takeWhile_cons_of_neg (by decide), List.dropWhile_cons_of_neg (by decide), List.append_nil,
    List.take_succ_cons, List.take_zero, ← hrows]
  exact ofLines?_rows h

end StyleBlock

/-! ### Names without dashes -/

namespace Bundle

/-- A name without the dashes, in pairs, that it starts with. -/
def bare (name : String) : String :=
  String.ofList (bareName name.toList)

section Bare

variable {name : String} {cs : List Char}

lemma bareName_dashes (cs : List Char) : bareName ('-' :: '-' :: cs) = bareName cs := rfl

lemma bareName_of_ne (h : ∀ rest, cs ≠ '-' :: '-' :: rest) : bareName cs = cs := by
  rw [bareName]
  exact h

lemma bareName_suffix (cs : List Char) : bareName cs <:+ cs := by
  fun_induction bareName cs with
  | case1 rest ih => exact ih.trans (List.suffix_append ['-', '-'] rest)
  | case2 cs => exact List.suffix_refl cs

lemma bareName_bareName (cs : List Char) : bareName (bareName cs) = bareName cs := by
  fun_induction bareName cs with
  | case1 rest ih => exact ih
  | case2 cs hnone => exact bareName_of_ne hnone

/-- What does not start with four dashes is bare, or it has two dashes before its bare form. -/
lemma eq_bareName_or (h : ¬ ['-', '-', '-', '-'] <+: cs) :
    cs = bareName cs ∨ cs = '-' :: '-' :: bareName cs := by
  by_cases hdashes : ∃ rest, cs = '-' :: '-' :: rest
  · obtain ⟨rest, rfl⟩ := hdashes
    have hrest : ∀ more, rest ≠ '-' :: '-' :: more := by
      rintro more rfl
      exact h ⟨more, rfl⟩
    rw [bareName_dashes, bareName_of_ne hrest]
    exact .inr rfl
  · rw [bareName_of_ne (not_exists.mp hdashes)]
    exact .inl rfl

lemma bare_dashes (name : String) : bare ("--" ++ name) = bare name := by
  rw [bare, String.toList_append]
  rfl

lemma bare_bare (name : String) : bare (bare name) = bare name := by
  rw [bare, bare, String.toList_ofList, bareName_bareName]

/-- Two dashes in front make another name. -/
lemma dashes_ne (name : String) : "--" ++ name ≠ name := by
  intro h
  have hlength := congrArg String.length h
  rw [String.length_append] at hlength
  have htwo : "--".length = 2 := rfl
  omega

/-- A name that does not start with four dashes is bare, or it has two dashes before its bare
form. -/
lemma eq_bare_or (h : ¬ "----".toList <+: name.toList) :
    name = bare name ∨ name = "--" ++ bare name := by
  simp only [← String.toList_inj, bare, String.toList_append, String.toList_ofList]
  exact eq_bareName_or h

/-- A name that starts with four dashes is too long to have two before its bare form. -/
lemma length_bare_of_prefix (h : "----".toList <+: name.toList) :
    (bare name).length + 4 ≤ name.length := by
  obtain ⟨rest, hrest⟩ := h
  have hbare : bare name = String.ofList (bareName rest) := by
    rw [bare, ← hrest]
    rfl
  have hlength := congrArg List.length hrest
  rw [List.length_append, String.length_toList, String.length_toList] at hlength
  have hfour : "----".length = 4 := rfl
  rw [hbare, String.length_ofList]
  have hle := (bareName_suffix rest).length_le
  omega

end Bare

end Bundle

/-! ### Dictionaries of variables -/

namespace Text.Dictionary

/-- The names and the values of a dictionary stay on a line, and its names end where values
begin. -/
structure Plain (d : Dictionary) : Prop where
  name : ∀ e ∈ d.entries, '\n' ∉ e.1.toList ∧ ':' ∉ e.1.toList
  value : ∀ e ∈ d.entries, '\n' ∉ e.2.toList

/-- Each variable of a dictionary is declared once, with the value that stands under its name, which
may have two dashes before it. -/
structure DeclaredOnce (d : Dictionary) (declarations : List (String × String)) : Prop where
  once : (declarations.map Prod.fst).Nodup
  valued : ∀ v ∈ declarations, d.get? v.1 = some v.2 ∨ d.get? ("--" ++ v.1) = some v.2

/-- No name starts with four dashes, and none is there with two dashes before it as well as
without. -/
structure Unambiguous (d : Dictionary) : Prop where
  short : ∀ e ∈ d.entries, ¬ "----".toList <+: e.1.toList
  apart : ∀ e ∈ d.entries, ∀ e' ∈ d.entries, e'.1 ≠ "--" ++ e.1

end Text.Dictionary

namespace Bundle

open Text.Dictionary (get?_eq_some_iff Plain DeclaredOnce Unambiguous)

variable {b : Bundle} {json : String}

lemma map_fst_declarations (b : Bundle) :
    b.declarations.map Prod.fst = b.cssVars.entries.map fun e => bare e.1 :=
  List.map_map

/-- Two entries whose names come to the same are one, if no name is declared twice. -/
lemma eq_of_bare_eq (h : (b.declarations.map Prod.fst).Nodup) {e e' : String × String}
    (he : e ∈ b.cssVars.entries) (he' : e' ∈ b.cssVars.entries)
    (heq : bare e.1 = bare e'.1) : e = e' := by
  rw [map_fst_declarations] at h
  exact List.inj_on_of_nodup_map h he he' heq

/-- Names that are declared once each are unambiguous. -/
lemma unambiguous_of_declaredOnce (hsorted : Text.Sorted b.cssVars.entries)
    (h : DeclaredOnce b.cssVars b.declarations) : Unambiguous b.cssVars where
  short e he hdashes := by
    -- The value is that of a name with at most two dashes more than the bare one: it is too short.
    have hlength := length_bare_of_prefix hdashes
    have hmem : (bare e.1, e.2) ∈ b.declarations := List.mem_map_of_mem he
    obtain hvalue | hvalue := h.valued _ hmem
    · have heq := eq_of_bare_eq h.once ((get?_eq_some_iff hsorted).mp hvalue) he (bare_bare e.1)
      have hname : bare e.1 = e.1 := congrArg Prod.fst heq
      rw [hname] at hlength
      omega
    · have heq := eq_of_bare_eq h.once ((get?_eq_some_iff hsorted).mp hvalue) he
        ((bare_dashes _).trans (bare_bare e.1))
      have hname : "--" ++ bare e.1 = e.1 := congrArg Prod.fst heq
      have htwo : "--".length = 2 := rfl
      rw [← hname, String.length_append, hname] at hlength
      omega
  apart e he e' he' hname := by
    have heq : bare e.1 = bare e'.1 := by rw [hname, bare_dashes]
    obtain rfl := eq_of_bare_eq h.once he he' heq
    exact dashes_ne _ hname.symm

/-- Unambiguous names are declared once each, with their values. -/
lemma declaredOnce_of_unambiguous (hsorted : Text.Sorted b.cssVars.entries)
    (h : Unambiguous b.cssVars) : DeclaredOnce b.cssVars b.declarations where
  once := by
    rw [map_fst_declarations]
    refine List.Nodup.map_on (fun e he e' he' heq => hsorted.eq_of_fst_eq he he' ?_)
      hsorted.nodup.of_map
    -- Two names with one bare name: both are bare, both have their dashes, or they are the two
    -- spellings that may not stand together.
    obtain hbare | hdashes := eq_bare_or (h.short e he)
    · obtain hbare' | hdashes' := eq_bare_or (h.short e' he')
      · rw [hbare, heq, ← hbare']
      · rw [← heq, ← hbare] at hdashes'
        exact absurd hdashes' (h.apart e he e' he')
    · obtain hbare' | hdashes' := eq_bare_or (h.short e' he')
      · rw [heq, ← hbare'] at hdashes
        exact absurd hdashes (h.apart e' he' e he)
      · rw [hdashes, heq, ← hdashes']
  valued := by
    have hvalued : ∀ e ∈ b.cssVars.entries,
        b.cssVars.get? (bare e.1) = some e.2 ∨ b.cssVars.get? ("--" ++ bare e.1) = some e.2 := by
      intro e he
      have hvalue : b.cssVars.get? e.1 = some e.2 := (get?_eq_some_iff hsorted).mpr he
      obtain hbare | hdashes := eq_bare_or (h.short e he)
      · exact .inl (by rwa [← hbare])
      · exact .inr (by rwa [← hdashes])
    exact List.forall_mem_map.mpr hvalued

/-! ### The stylesheet of a component -/

/-- The block of the variables can be read back by its names. -/
lemma named_root (h : Plain b.cssVars) : StyleBlock.Named ⟨":root", b.declarations⟩ := by
  have hbare {c : Char} (e : String × String) (hc : c ∉ e.1.toList) : c ∉ (bare e.1).toList := by
    rw [bare, String.toList_ofList]
    exact fun hmem => hc ((bareName_suffix _).subset hmem)
  exact ⟨(by decide : '\n' ∉ ":root".toList),
    List.forall_mem_map.mpr fun e he => hbare e (h.name e he).2,
    List.forall_mem_map.mpr fun e he => hbare e (h.name e he).1⟩

lemma unbroken_root (h : Plain b.cssVars) : StyleBlock.Unbroken ⟨":root", b.declarations⟩ :=
  List.forall_mem_map.mpr h.value

/-- A component's stylesheet begins with the block of its variables, if there are any. -/
lemma exists_css_eq (hne : b.cssVars.entries ≠ []) :
    ∃ rest, b.css = StyleBlock.text ⟨":root", b.declarations⟩ ++ rest := by
  have hsome : b.declarations.isEmpty = false := by
    rw [List.isEmpty_eq_false_iff]
    simpa [declarations] using hne
  rw [css, hsome, if_neg Bool.false_ne_true]
  split
  · exact ⟨"", String.append_empty.symm⟩
  · exact ⟨_, by rw [String.append_assoc, String.append_assoc]⟩

/-- The stylesheet of a bundle that was read begins with a block of its variables. Each of them is
declared once in it, with the value that stands under its name, exactly if no name starts with four
dashes, and none is there with two dashes before it as well as without. -/
theorem declaredOnce_iff (h : ofJson json = .ok b) (hplain : Plain b.cssVars) :
    (b.cssVars.entries ≠ [] → StyleBlock.first? b.css = some ⟨":root", b.declarations⟩)
      ∧ (DeclaredOnce b.cssVars b.declarations ↔ Unambiguous b.cssVars) := by
  have hsorted := (accepted_ofJson h).sorted
  refine ⟨fun hne => ?_, unambiguous_of_declaredOnce hsorted, declaredOnce_of_unambiguous hsorted⟩
  obtain ⟨rest, hcss⟩ := exists_css_eq hne
  rw [hcss]
  exact StyleBlock.first?_append (named_root hplain) (unbroken_root hplain) rest

/-- A bundle of two variables. -/
def twoVars (name name' : String) : Json :=
  .object [("cssVars", .object [(name, .string "1px"), (name', .string "2px")])]

/-- Names with dashes and without are declared side by side. -/
theorem declaredOnce_apart : ∃ b, ofJson (twoVars "--glow" "size").compact = .ok b ∧ Plain b.cssVars
    ∧ Unambiguous b.cssVars
    ∧ StyleBlock.first? b.css = some ⟨":root", [("glow", "1px"), ("size", "2px")]⟩
    ∧ DeclaredOnce b.cssVars b.declarations := by
  have htext : Decoder.text Payload.decode (twoVars "--glow" "size").compact
      = .ok ⟨⟨[("--glow", "1px"), ("size", "2px")]⟩, [], [], []⟩ := Json.text_compact rfl rfl
  have hread : ofJson (twoVars "--glow" "size").compact
      = .ok ⟨⟨[("--glow", "1px"), ("size", "2px")]⟩, [], [], []⟩ := (ofJson_eq htext).trans rfl
  have hplain : Plain ⟨[("--glow", "1px"), ("size", "2px")]⟩ := ⟨by decide, by decide⟩
  have happart : Unambiguous ⟨[("--glow", "1px"), ("size", "2px")]⟩ := ⟨by decide, by decide⟩
  have hdeclared := declaredOnce_iff hread hplain
  exact ⟨_, hread, hplain, happart, hdeclared.1 (List.cons_ne_nil _ _), hdeclared.2.mpr happart⟩

/-- A name with two dashes and the same name without them are declared twice. -/
theorem declared_twice : ∃ b, ofJson (twoVars "--size" "size").compact = .ok b ∧ Plain b.cssVars
    ∧ StyleBlock.first? b.css = some ⟨":root", [("size", "1px"), ("size", "2px")]⟩
    ∧ ¬ DeclaredOnce b.cssVars b.declarations := by
  have htext : Decoder.text Payload.decode (twoVars "--size" "size").compact
      = .ok ⟨⟨[("--size", "1px"), ("size", "2px")]⟩, [], [], []⟩ := Json.text_compact rfl rfl
  exact ⟨_, (ofJson_eq htext).trans rfl, ⟨by decide, by decide⟩, by decide,
    fun h => absurd h.once (by decide)⟩

end Bundle

end Restyle
