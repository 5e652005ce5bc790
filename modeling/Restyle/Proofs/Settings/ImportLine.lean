import Restyle.Proofs.Search.Attribute
import Restyle.Proofs.Syntax.Reading
import Restyle.Proofs.Tree.Placed
import Restyle.Settings.Layers

/-!
The import line of a configuration. What passes the check of the settings is read as an import of
the library, unless a character of the library's name means something else between quotes, or the
binding is a reserved word.

* `Quotable`, `Quotable.exists_reads`: what can stand between double quotes, and is read there;
* `exists_reads_string`, `reads_importClause`: the parts of an import;
* `exists_reads_import`: the line as a module;
* `importOf?_importTree`: the import is found in it;
* `importLine_reads`: the line of a configuration that keeps the rules.
-/

namespace Restyle.Syntax

open Grammar Lexeme

variable {reserved : String → Bool} {role : Option Role} {place : Nat}
  {binding library rest : List Char}

/-! ### The parts of an import -/

/-- A run that ends where the rest begins is found whole. -/
lemma run_append {p : Char → Bool} {s : List Char} (hne : s ≠ []) (hs : ∀ c ∈ s, p c = true)
    (hrest : ∀ c ∈ rest.head?, p c = false) : run p (s ++ rest) = some s.length := by
  have hspan : (s ++ rest).takeWhile p = s := by
    rw [List.takeWhile_append_of_pos hs]
    cases rest with
    | nil => exact List.append_nil s
    | cons c rest =>
        rw [List.takeWhile_cons_of_neg (by rw [hrest c rfl]; exact Bool.false_ne_true),
          List.append_nil]
  rw [run, hspan]
  cases s with
  | nil => exact absurd rfl hne
  | cons c s => rfl

lemma run_eq_some {p : Char → Bool} {s : List Char} {n : Nat} (h : run p s = some n) :
    ∀ c ∈ s.take n, p c = true := by
  have hn : (s.takeWhile p).length = n := by
    rw [run] at h
    split at h
    · cases h
    · next heq => exact Option.some.inj h
  obtain ⟨back, hback⟩ := List.takeWhile_prefix p (l := s)
  intro c hc
  rw [← hback, List.take_left' hn] at hc
  exact List.mem_takeWhile_imp hc

/-- Whether a character stands for itself between double quotes. -/
def isVerbatim (c : Char) : Bool :=
  c ≠ '"' && c ≠ '\\' && c ≠ '\r' && c ≠ '\n' && c ≠ '\x00'

/-- What stands between two double quotes, once. -/
def stringItem : Rule :=
  .alt (.shown .stringFragment (.the .doubleFragment)) (.the .escapeSequence)

/-- An escape begins with a backslash and takes one more character at least. -/
lemma two_le_of_escape {text : List Char} {n : Nat} (h : escape text = some n) :
    text.head? = some '\\' ∧ 2 ≤ n := by
  unfold escape at h
  split at h
  · exact ⟨rfl, (unicodeEscape_eq_some h).2.trans' (by decide)⟩
  · split_ifs at h
    cases h
    exact ⟨rfl, by decide⟩
  · cases h
  · next c text =>
      dsimp only at h
      split_ifs at h with hoctal
      · cases h
        rw [List.take_succ_cons, List.takeWhile_cons_of_pos (by simpa using hoctal),
          List.length_cons]
        exact ⟨rfl, by omega⟩
      all_goals
        cases h
        exact ⟨rfl, by decide⟩
  · cases h

/-- What can stand between double quotes: characters that stand for themselves, and escapes. -/
inductive Quotable : List Char → Prop where
  | nothing : Quotable []
  | plain {c : Char} {text : List Char} : isVerbatim c = true → Quotable text → Quotable (c :: text)
  | escaped {body text : List Char} :
      (∀ more, escape (body ++ text ++ '"' :: more) = some body.length) → Quotable text →
      Quotable (body ++ text)

namespace Quotable

/-- Characters that stand for themselves are quotable. -/
lemma of_verbatim (h : ∀ c ∈ library, isVerbatim c = true) : Quotable library := by
  induction library with
  | nil => exact .nothing
  | cons c library ih =>
      obtain ⟨hc, hlibrary⟩ := List.forall_mem_cons.mp h
      exact .plain hc (ih hlibrary)

/-- The characters that stand for themselves, up to the first escape. -/
lemma exists_split (h : Quotable library) :
    ∃ front back, library = front ++ back ∧ (∀ c ∈ front, isVerbatim c = true)
      ∧ (back = [] ∨ ∃ body text, back = body ++ text
        ∧ (∀ more, escape (body ++ text ++ '"' :: more) = some body.length) ∧ Quotable text) := by
  induction h with
  | nothing => exact ⟨[], [], rfl, fun c hc => absurd hc List.not_mem_nil, .inl rfl⟩
  | @plain c text hc _ ih =>
      obtain ⟨front, back, rfl, hfront, hback⟩ := ih
      exact ⟨c :: front, back, rfl, List.forall_mem_cons.mpr ⟨hc, hfront⟩, hback⟩
  | @escaped body text hscan htext =>
      exact ⟨[], body ++ text, rfl, fun c hc => absurd hc List.not_mem_nil,
        .inr ⟨body, text, rfl, hscan, htext⟩⟩

/-- An escape is read, and what stands behind it. -/
lemma reads_escape {body text : List Char} (place : Nat) (rest : List Char)
    (hscan : ∀ more, escape (body ++ text ++ '"' :: more) = some body.length)
    (hmore : text = [] ∨ ∃ kids, Reads reserved none none (.many stringItem) (place + body.length)
      text ('"' :: rest) kids) :
    ∃ kids, Reads reserved none none (.many stringItem) place (body ++ text)
      ('"' :: rest) kids := by
  have hbody : Reads reserved none none stringItem place body (text ++ '"' :: rest) _ :=
    .second (.token_here rfl (by rw [← List.append_assoc]; exact hscan rest))
  rcases hmore with rfl | ⟨kids, hmore⟩
  · rw [List.append_nil]
    exact ⟨_, .once hbody⟩
  · exact ⟨_, .again hbody hmore⟩

/-- What can stand between double quotes is read there. -/
lemma exists_reads (h : Quotable library) (reserved : String → Bool) (hne : library ≠ [])
    (place : Nat) (rest : List Char) :
    ∃ kids, Reads reserved none none (.many stringItem) place library ('"' :: rest) kids := by
  -- behind the characters in front and an escape, less is left
  induction hn : library.length using Nat.strong_induction_on generalizing library place with
  | _ n ih =>
  obtain ⟨front, back, rfl, hfront, hback⟩ := h.exists_split
  have hescaped : back = [] ∨ ∃ kids, Reads reserved none none (.many stringItem)
      (place + front.length) back ('"' :: rest) kids := by
    refine hback.imp_right fun ⟨body, text, heq, hscan, htext⟩ => ?_
    subst heq
    have hbody := (two_le_of_escape (hscan [])).2
    refine reads_escape (place + front.length) rest hscan ?_
    by_cases hnil : text = []
    · exact .inl hnil
    · exact .inr (ih text.length (by rw [← hn]; simp; omega) htext hnil _ rfl)
  by_cases hnil : front = []
  · subst hnil
    exact hescaped.resolve_left hne
  have hhead : ∀ c ∈ (back ++ '"' :: rest).head?, isVerbatim c = false := by
    rcases hback with rfl | ⟨body, text, rfl, hscan, -⟩
    · simp [isVerbatim]
    · obtain ⟨hstart, -⟩ := two_le_of_escape (hscan rest)
      rw [hstart]
      simp [isVerbatim]
  have hfragment : Reads reserved (some .stringFragment) none (.the .doubleFragment) place front
      (back ++ '"' :: rest) _ := .token_here rfl (run_append hnil hfront hhead)
  have hitem : Reads reserved none none stringItem place front (back ++ '"' :: rest) _ :=
    .first (.shown hfragment)
  rcases hescaped with rfl | ⟨kids, hescaped⟩
  · rw [List.append_nil]
    exact ⟨_, .once hitem⟩
  · exact ⟨_, .again hitem hescaped⟩

end Quotable

/-- A string behind a space. -/
lemma exists_reads_string (reserved : String → Bool) (role : Option Role) (place : Nat)
    (hne : library ≠ []) (hlibrary : Quotable library) (rest : List Char) :
    ∃ kids, Reads reserved none role (.the .string) place
      (' ' :: "\"".toList ++ library ++ "\"".toList) rest
      [.node (.named .string) role (place + 1) (place + 3 + library.length)
        (.node (.token "\"") none (place + 1) (place + 2) [] :: (kids ++
          [.node (.token "\"") none (place + 2 + library.length) (place + 3 + library.length)
            []]))] := by
  obtain ⟨kids, hpieces⟩ := hlibrary.exists_reads reserved hne (place + 2) rest
  have hquote : Reads reserved none none (.spelled "\"") place (' ' :: "\"".toList)
      (library ++ ("\"".toList ++ rest)) _ := .spaced "\"" (spellingScan_mark rfl _)
  have hstring : Reads reserved none role (.the .string) place _ rest _ :=
    .construct_here rfl rfl rfl
      (.first ((hquote.seq (.first hpieces)).seq (.mark "\"" rfl))) (by rintro _ ⟨⟩ ⟨⟩)
  refine ⟨kids, ?_⟩
  convert hstring using 1
  simp [Cst.start]
  omega

lemma isPlain_of_isWordChar {c : Char} (h : Settings.isWordChar c = true) : isPlain c = true := by
  rcases Bool.or_eq_true_iff.mp h with hstart | hdigit
  · exact (isPlain_of_start hstart).1
  · rw [isPlain, isDigit, hdigit, Bool.or_true]
    rfl

/-- What the settings call an identifier is a word. -/
lemma word_of_isIdentifier (h : Settings.isIdentifier (String.ofList binding) = true)
    (hrest : ∀ c ∈ rest.head?, isWordChar c = false ∧ c ≠ '\\') :
    word (binding ++ rest) = some binding.length := by
  cases binding with
  | nil => exact absurd h (by decide)
  | cons c binding =>
      rw [Settings.isIdentifier, String.toList_ofList, Bool.and_eq_true] at h
      obtain ⟨hc, hdigit⟩ := isPlain_of_start h.1
      refine word_append ?_ (fun d hd => ?_) hrest
      · rw [isWordStart, isWordChar_of_isPlain hc, hdigit]
        rfl
      · exact isWordChar_of_isPlain (isPlain_of_isWordChar (List.all_eq_true.mp h.2 d hd))

/-- Braces with one name in them, behind a space. -/
lemma reads_importClause (place : Nat)
    (hbinding : Settings.isIdentifier (String.ofList binding) = true)
    (hfree : reserved (String.ofList binding) = false) (rest : List Char) :
    Reads reserved none none (.the .importClause) place
      (' ' :: "\x7b".toList ++ ' ' :: binding ++ ' ' :: "\x7d".toList) rest
      [.node (.named .importClause) none (place + 1) (place + 5 + binding.length)
        [.node (.named .namedImports) none (place + 1) (place + 5 + binding.length)
          [.node (.token "\x7b") none (place + 1) (place + 2) [],
            .node (.named .importSpecifier) none (place + 3) (place + 3 + binding.length)
              [.node (.named .identifier) (some .name) (place + 3) (place + 3 + binding.length) []],
            .node (.token "\x7d") none (place + 4 + binding.length) (place + 5 + binding.length)
              []]]] := by
  -- From the inside out: the binding, the specifier around it, the braces, the clause.
  have hname : Reads reserved none (some .name) (.the .identifier) (place + 2) (' ' :: binding)
      (' ' :: "\x7d".toList ++ rest)
      [.node (.named .identifier) (some .name) (place + 3) (place + 3 + binding.length) []] := by
    refine .token rfl (Layout.blank rfl .nothing) nofun ?_
    rw [Option.filter_eq_some_iff]
    exact ⟨word_of_isIdentifier hbinding (by simp; decide),
      by rw [List.take_left, reservedAs_none, hfree]; rfl⟩
  have hspecifier : Reads reserved none none (.the .importSpecifier) (place + 2) _ _ _ :=
    .construct_here rfl rfl rfl (.nothing_seq (.first (.slot (.hides rfl rfl rfl (.first hname)))))
      (by rintro _ ⟨⟩ ⟨⟩)
  have hopen : Reads reserved none none (.spelled "\x7b") place (' ' :: "\x7b".toList)
      (' ' :: binding ++ (' ' :: "\x7d".toList ++ rest)) _ :=
    .spaced "\x7b" (spellingScan_mark rfl _)
  have himports : Reads reserved none none (.the .namedImports) place _ rest _ :=
    .construct_here rfl rfl rfl
      (((hopen.seq (.first hspecifier.seq_nothing)).seq_nothing).seq
        (.spaced "\x7d" (spellingScan_mark rfl rest))) (by rintro _ ⟨⟩ ⟨⟩)
  have hclause : Reads reserved none none (.the .importClause) place _ rest _ :=
    .construct_here rfl rfl rfl (.second (.first himports)) (by rintro _ ⟨⟩ ⟨⟩)
  convert hclause using 1
  simp [Cst.start]
  omega

/-! ### The line as a module -/

/-- An import of one name from a library. -/
def importText (binding library : List Char) : List Char :=
  "import".toList ++ (' ' :: "\x7b".toList ++ ' ' :: binding ++ ' ' :: "\x7d".toList
    ++ (' ' :: "from".toList ++ (' ' :: "\"".toList ++ library ++ "\"".toList))) ++ ";".toList

lemma importText_eq (binding library : List Char) : importText binding library
    = "import \x7b ".toList ++ binding ++ " \x7d from \"".toList ++ library ++ "\";".toList := by
  delta importText
  simp

/-- The concrete tree of a module with such an import and nothing else. The name has `n` characters,
and the library `m`, which are read as `kids`. -/
def importTree (n m : Nat) (kids : List Cst) : Cst :=
  .node (.named .program) none 0 (20 + n + m)
    [.node (.named .importStatement) none 0 (20 + n + m)
      [.node (.token "import") none 0 6 [],
        .node (.named .importClause) none 7 (11 + n)
          [.node (.named .namedImports) none 7 (11 + n)
            [.node (.token "\x7b") none 7 8 [],
              .node (.named .importSpecifier) none 9 (9 + n)
                [.node (.named .identifier) (some .name) 9 (9 + n) []],
              .node (.token "\x7d") none (10 + n) (11 + n) []]],
        .node (.token "from") none (12 + n) (16 + n) [],
        .node (.named .string) (some .source) (17 + n) (19 + n + m)
          (.node (.token "\"") none (17 + n) (18 + n) [] :: (kids ++
            [.node (.token "\"") none (18 + n + m) (19 + n + m) []])),
        .node (.token ";") none (19 + n + m) (20 + n + m) []]]

/-- An import of a free word from a library that can stand between quotes is a module. -/
lemma exists_reads_import (hbinding : Settings.isIdentifier (String.ofList binding) = true)
    (hfree : reserved (String.ofList binding) = false) (hne : library ≠ [])
    (hlibrary : Quotable library) :
    ∃ kids, Reads reserved none none (.the .program) 0 (importText binding library) []
      [importTree binding.length library.length kids] := by
  obtain ⟨kids, hstring⟩ := exists_reads_string reserved (some .source)
    (11 + binding.length + 5) hne hlibrary (";".toList ++ [])
  have hfrom : Reads reserved none none (.the .fromClause) (11 + binding.length) _
      (";".toList ++ []) _ :=
    .hides rfl rfl rfl
      ((Reads.spaced "from" (spellingScan_word rfl (by decide) (by simp; decide))).seq
        (.slot hstring))
  -- The word `import` takes six places and the clause five and the binding.
  have hplace : 6 + (' ' :: "\x7b".toList ++ ' ' :: binding ++ ' ' :: "\x7d".toList).length
      = 11 + binding.length := by
    simp
    omega
  have hwhole := (reads_importClause 6 hbinding hfree _).seq (hplace ▸ hfrom)
  have hstatement : Reads reserved none none (.the .importStatement) 0 _ [] _ :=
    .construct_here rfl rfl rfl
      ((((Reads.here "import" (spellingScan_word rfl (by decide) (by simp; decide))).seq_nothing.seq
        (.first hwhole)).seq_nothing).seq (.opens rfl rfl (.second (.mark ";" rfl))))
      (by rintro _ ⟨⟩ ⟨⟩)
  have hprogram : Reads reserved none none (.the .program) 0 _ [] _ :=
    .construct_here rfl rfl rfl
      (.nothing_seq (.first (.once (.hides rfl rfl rfl (.second (.first hstatement))))))
      (by rintro _ ⟨⟩ ⟨⟩)
  refine ⟨kids, ?_⟩
  convert hprogram using 1
  · rfl
  · simp [importTree, Cst.start]
    omega

end Restyle.Syntax

namespace Restyle.SyntaxTree

open Syntax

lemma length_importText (binding library : List Char) :
    (importText binding library).length = 20 + binding.length + library.length := by
  rw [importText_eq]
  simp
  omega

/-- Where the library stands in the line, in its quotes. -/
lemma slice_importText (binding library : List Char) :
    slice (importText binding library) (17 + binding.length) (19 + binding.length + library.length)
      = quoted '"' (String.ofList library) := by
  have htext : importText binding library
      = ("import \x7b ".toList ++ binding ++ " \x7d from ".toList) ++
        (("\"".toList ++ library ++ "\"".toList) ++ ";".toList) := by
    rw [importText_eq]
    simp
  rw [slice, htext, List.drop_left' (by simp; omega), List.take_left' (by simp; omega), quoted]
  exact String.toList_inj.mp (by simp)

/-- The import is found in the module that is read. -/
lemma importOf?_importTree (binding library : List Char) (kids : List Cst) :
    ((ofConcrete (importText binding library)
      (importTree binding.length library.length kids)).importOf?
        (String.ofList library)).isSome = true := by
  set t := ofConcrete (importText binding library)
    (importTree binding.length library.length kids)
  have hroot := (ofConcrete_spec (importText binding library)
    (importTree binding.length library.length kids)).2.2.forall₂
      (show NodeKind.program ≠ .attribute by decide)
      ⟨le_rfl, Nat.zero_le _, (length_importText binding library).ge, trivial⟩
  obtain ⟨x, _, hx, -, hchildren⟩ := List.forall₂_cons_right_iff.mp hroot
  have hstatement := hx.copies.forall₂ (show NodeKind.importStatement ≠ .attribute by decide)
    (by simp [Cst.Ordered, Cst.start, Cst.stop, Cst.children]; omega)
  -- The source is the child in that role, whose text is the quoted library.
  obtain ⟨y, hy, hcopy⟩ := childIn?_of_forall₂ .source hstatement rfl
  have htext : t.text y = quoted '"' (String.ofList library) := by
    rw [(wellFormed_ofConcrete _ _).text_of_asRead (changed_ofConcrete _) hcopy.asRead_eq]
    exact slice_importText binding library
  rw [importOf?_isSome_iff]
  refine ⟨x, by rw [hchildren]; exact List.mem_cons_self, hx.kind_eq, ?_⟩
  have hkind : t.kind y = .stringLiteral := hcopy.kind_eq
  rw [importSource?, hy, Option.bind_some, quotation?, if_pos hkind, htext,
    quotationOf?_quoted (.inl rfl), Option.map_some]

end Restyle.SyntaxTree

namespace Restyle.Settings

open Syntax

/-- What a configuration that keeps the rules says about the import line. -/
structure Importable (c : Settings) : Prop where
  library_ne : c.transform.actualAnimationLibrary.toList ≠ []
  library_unquoted : ∀ d ∈ c.transform.actualAnimationLibrary.toList, d ≠ '"' ∧ d ≠ '\n'
  binding : isIdentifier c.transform.actualMotionBinding = true

/-- What the check lets through can be put in an import line. -/
lemma importable_of_check {c : Settings} (h : c.check = .ok ()) : c.Importable := by
  rw [check] at h
  split_ifs at h with hclasses hlibrary hbinding
  rw [Bool.not_eq_true, Option.any_eq_false] at hlibrary hbinding
  have hlibrary' : Text.isBlankText c.transform.actualAnimationLibrary = false
      ∧ (c.transform.actualAnimationLibrary.toList.any fun d => d = '"' || d = '\'' || d = '\n')
        = false := by
    -- A library that is not set is the default one, which is fine; one that is set has been
    -- checked.
    rw [TransformSettings.actualAnimationLibrary]
    cases hset : c.transform.animationLibrary with
    | none => decide
    | some library =>
        rw [Option.getD_some]
        exact Bool.or_eq_false_iff.mp (by simpa using hlibrary library hset)
  refine ⟨fun hnil => ?_, fun d hd => ?_, ?_⟩
  · rw [Text.isBlankText, hnil] at hlibrary'
    cases hlibrary'.1
  · have hd' := List.any_eq_false.mp hlibrary'.2 d hd
    simp only [Bool.or_eq_true, decide_eq_true_eq, not_or] at hd'
    exact ⟨hd'.1.1, hd'.2⟩
  · rw [TransformSettings.actualMotionBinding]
    cases hset : c.transform.motionBinding with
    | none => decide
    | some binding => simpa using hbinding binding hset

/-- The import line of a configuration that keeps the rules is read as a module in which the import
is found, if the name of the library can stand between quotes as it is, so that each backslash in it
begins an escape, and the binding is not reserved. -/
theorem importLine_reads (reserved : String → Bool) {c : Settings} (h : c.check = .ok ())
    (hlibrary : Quotable c.transform.actualAnimationLibrary.toList)
    (hfree : reserved c.transform.actualMotionBinding = false) :
    let line := c.transform.importLine.toList
    ∃ tree, Reads reserved none none (.the .program) 0 line [] [tree]
      ∧ ((SyntaxTree.ofConcrete line tree).importOf?
        c.transform.actualAnimationLibrary).isSome = true := by
  intro line
  obtain ⟨hne, -, hbinding⟩ := importable_of_check h
  have hline : line = importText c.transform.actualMotionBinding.toList
      c.transform.actualAnimationLibrary.toList := by
    simp [line, importText_eq, TransformSettings.importLine]
  obtain ⟨kids, hread⟩ := exists_reads_import (by rwa [String.ofList_toList])
    (by rwa [String.ofList_toList]) hne hlibrary
  have hfound := SyntaxTree.importOf?_importTree c.transform.actualMotionBinding.toList
    c.transform.actualAnimationLibrary.toList kids
  rw [String.ofList_toList, ← hline] at hfound
  rw [← hline] at hread
  exact ⟨_, hread, hfound⟩

/-- What keeps the rules has no quotes and line breaks in it, so that the name of a library can
stand between quotes if it has no backslash, no carriage return and no null character. -/
lemma quotable_of_check {c : Settings} (h : c.check = .ok ())
    (hplain : ∀ d ∈ c.transform.actualAnimationLibrary.toList,
      d ≠ '\\' ∧ d ≠ '\r' ∧ d ≠ '\x00') :
    Quotable c.transform.actualAnimationLibrary.toList := by
  obtain ⟨-, hunquoted, -⟩ := importable_of_check h
  exact .of_verbatim fun d hd => by simp [isVerbatim, hplain d hd, hunquoted d hd]

/-- A library with an escape in its name, and a binding of another name. -/
theorem importLine_reads_renamed :
    let c : Settings := { transform :=
      { animationLibrary := some "motion\\react", motionBinding := some "m" } }
    let line := "import \x7b m \x7d from \"motion\\react\";".toList
    c.check = .ok () ∧ c.transform.importLine.toList = line ∧ Quotable "motion\\react".toList
      ∧ ∃ tree, Reads (fun s => s == "typeof") none none (.the .program) 0 line [] [tree]
        ∧ ((SyntaxTree.ofConcrete line tree).importOf? "motion\\react").isSome = true := by
  intro c line
  have hcheck : c.check = .ok () := by decide +kernel
  have hline : c.transform.importLine.toList = line := by decide +kernel
  have hlibrary : Quotable "motion\\react".toList := by
    have hback : Quotable (['\\', 'r'] ++ "eact".toList) :=
      .escaped (fun _ => rfl) (.of_verbatim (List.all_eq_true.mp rfl))
    exact .plain rfl (.plain rfl (.plain rfl (.plain rfl (.plain rfl (.plain rfl hback)))))
  have hread := importLine_reads (fun s => s == "typeof") hcheck hlibrary (by decide +kernel)
  rw [hline] at hread
  exact ⟨hcheck, hline, hlibrary, hread⟩

/-! ### A library that ends with a backslash -/

variable {reserved : String → Bool} {name : Option Construct} {role : Option Role} {place : Nat}
  {text rest : List Char} {trees : List Cst}

/-- A piece of a string without a backslash in front is without any. -/
lemma backslash_of_stringItem (h : Reads reserved name role stringItem place text rest trees) :
    '\\' ∉ text ∨ text.head? = some '\\' ∧ 2 ≤ text.length := by
  rcases Reads.alt_iff.mp h with h | h
  · obtain ⟨layout, body, _, rfl, -, hlayout, hscan, -⟩ := (Reads.shown_iff.mp h).of_token rfl
    cases hlayout rfl
    have hall := run_eq_some hscan
    rw [List.take_left] at hall
    exact .inl fun hmem => absurd (hall _ hmem) (by decide)
  · obtain ⟨layout, body, _, rfl, -, hlayout, hscan, -⟩ := h.of_token rfl
    cases hlayout rfl
    obtain ⟨hhead, hlength⟩ := two_le_of_escape hscan
    obtain ⟨c, body, rfl⟩ := List.exists_cons_of_length_pos (by omega : 0 < body.length)
    exact .inr ⟨hhead, hlength⟩

/-- The last of the pieces of a string is no single backslash. -/
lemma backslash_of_stringItems
    (h : Reads reserved name role (.many stringItem) place text rest trees) {front : List Char}
    (hfront : '\\' ∉ front) : text ≠ front ++ ['\\'] := by
  have hitem : ∀ {name role place text rest trees} {front : List Char},
      Reads reserved name role stringItem place text rest trees → '\\' ∉ front →
      text ≠ front ++ ['\\'] := by
    rintro name role place _ rest trees front h hfront rfl
    rcases backslash_of_stringItem h with hno | ⟨hhead, hlength⟩
    · exact hno (by simp)
    · cases front with
      | nil => simp at hlength
      | cons c front =>
          cases hhead
          exact hfront List.mem_cons_self
  -- By induction on the items: the text ends with its last one, so the backslash is that one's.
  generalize hr : Rule.many stringItem = r at h
  induction h generalizing front with
  | once h =>
      cases hr
      exact hitem h hfront
  | @again _ _ _ _ text more _ _ _ h _ _ ih =>
      cases hr
      rcases List.eq_nil_or_concat more with rfl | ⟨init, last, rfl⟩
      · rw [List.append_nil]
        exact hitem h hfront
      · rw [List.concat_eq_append, ← List.append_assoc]
        intro heq
        obtain ⟨rfl, hlast⟩ := List.append_inj' heq rfl
        cases hlast
        exact ih (fun hmem => hfront (List.mem_append_right _ hmem)) rfl (List.concat_eq_append)
  | _ => cases hr

/-- A library that ends with a backslash keeps the rules, but no string is read where the import
names it: the backslash takes the closing quote in. -/
theorem importLine_backslash :
    let c : Settings := { transform := { animationLibrary := some "a\\" } }
    c.check = .ok () ∧ c.transform.importLine = "import \x7b motion \x7d from \"a\\\";"
      ∧ ∀ reserved role place front rest trees, "\"a\\\";".toList = front ++ rest →
        ¬ Reads reserved none role (.the .string) place front rest trees := by
  intro c
  refine ⟨by decide +kernel, by decide +kernel,
    fun reserved role place front rest trees htext h => ?_⟩
  obtain ⟨_, _, _, h⟩ := h.of_rule (r := .alt
    (.seq (.seq (.spelled "\"") (.any stringItem)) (.spelled "\""))
    (.seq (.seq (.spelled "'") (.any (.alt (.shown .stringFragment (.the .singleFragment))
      (.the .escapeSequence)))) (.spelled "'"))) rfl
  rcases Reads.alt_iff.mp h with h | h
  · obtain ⟨front, close, _, _, rfl, -, h, hclose⟩ := Reads.seq_iff.mp h
    obtain ⟨quote, pieces, _, _, rfl, -, hquote, h⟩ := Reads.seq_iff.mp h
    obtain ⟨layout, _, rfl, hlayout⟩ := hquote.of_spelled
    obtain ⟨layout', _, rfl, hlayout'⟩ := hclose.of_spelled
    have hstart : layout = [] := (hlayout.eq_nil fun d hd => by
      obtain ⟨more, rfl⟩ := List.head?_eq_some_iff.mp hd
      cases (List.cons.inj htext).1
      decide).1
    rw [hstart] at htext
    -- Up to the only quote there is, the pieces take all characters, so a backslash comes last.
    have hbetween : pieces ++ layout' = ['a', '\\'] := by
      have hlist : ['a', '\\'] ++ '"' :: [';'] = (pieces ++ layout') ++ '"' :: rest := by
        simpa using htext
      exact ((List.append_cons_inj_of_notMem (by decide) (by decide)).mp hlist).1.symm
    have hsolid : layout' = [] := (hlayout'.eq_nil fun d hd => by
      have hmem : d ∈ ['a', '\\'] := by
        rw [← hbetween]
        exact List.mem_append_right _ (List.mem_of_mem_head? hd)
      rcases List.mem_pair.mp hmem with rfl | rfl <;> decide).1
    rw [hsolid, List.append_nil] at hbetween
    rcases Reads.alt_iff.mp h with h | h
    · exact backslash_of_stringItems h (show '\\' ∉ ['a'] by decide) hbetween
    · rw [(Reads.blank_iff.mp h).1] at hbetween
      cases hbetween
  -- A string in single quotes would need one in the text.
  · obtain ⟨front, close, _, _, rfl, -, -, hclose⟩ := Reads.seq_iff.mp h
    obtain ⟨layout, _, rfl, -⟩ := hclose.of_spelled
    have hmem : '\'' ∈ "\"a\\\";".toList := by
      rw [htext]
      simp
    exact absurd hmem (by decide)

end Restyle.Settings
