import Mathlib.Tactic
import Restyle.Syntax.Concrete
import Restyle.Syntax.Grammar
import Restyle.Syntax.Semicolon

/-!
What the grammar reads in a text, apart from how the parser finds it.

* `Layout`: what may stand between two tokens, and the comments in it;
* `tokenScan?`, `reservedAs`: which characters a token is told by, and which words are no
  identifiers;
* `Reads`: a rule reads a stretch of a text as a row of trees;
* `Reads.of_token`, `Reads.rule_cases`, `Reads.of_rule`: what a construct reads, by its token or its
  rule;
* `Reads.of_inlined`, `Reads.of_shows`: what is replaced by its rule, and what is one node behind
  comments;
* `word_append`, `exactly_append`, `spellingScan_word`, `spellingScan_mark`: tokens in front of more
  text.
-/

namespace Restyle.Syntax

open Grammar Lexeme

/-! ### Tokens -/

/-- Blanks and comments from a place on, with the trees of the comments. -/
inductive Layout : (place : Nat) → (text rest : List Char) → List Cst → Prop where
  | nothing {place : Nat} {rest : List Char} : Layout place [] rest []
  | blank {place : Nat} {c : Char} {text rest : List Char} {trees : List Cst} : isBlank c = true →
      Layout (place + 1) text rest trees → Layout place (c :: text) rest trees
  | comment {place : Nat} {body text rest : List Char} {trees : List Cst} :
      Lexeme.comment (body ++ text ++ rest) = some body.length →
        Layout (place + body.length) text rest trees →
          Layout place (body ++ text) rest
            (.node (.named .comment) none place (place + body.length) [] :: trees)

/-- A word that is exactly this one. -/
def exactWord (spelling : String) : Scan := fun text =>
  match word text with
  | some n => if text.take n = spelling.toList then some n else none
  | none => none

/-- How far a spelling reaches: a word ends where words end. -/
def spellingScan (spelling : String) : Scan :=
  if spelling.toList.all isLetter then exactWord spelling else exactly spelling

/-- The words that are no identifiers where these show under a name. Any word names a property:
where only an identifier fits, a reserved word is taken as one. -/
def reservedAs (reserved : String → Bool) (name : Option Construct) (word : String) : Bool :=
  name != some .propertyName && reserved word

@[simp] lemma reservedAs_none (reserved : String → Bool) (word : String) :
    reservedAs reserved none word = reserved word := rfl

/-- The characters that a token is told by, and whether layout may stand before it. Words that are
`reserved` are no identifiers. -/
def tokenScan? (reserved : String → Bool) : Construct → Option (Bool × Scan)
  | .identifier => some (true, fun text =>
      (word text).filter fun n => !reserved (String.ofList (text.take n)))
  | .dashedName => some (true, dashedName)
  | .privateName => some (true, privateName)
  | .number => some (true, number)
  | .characterReference => some (true, entity)
  | .hashBang => some (true, hashBang)
  | .thisExpression => some (true, exactWord "this")
  | .superExpression => some (true, exactWord "super")
  | .trueLiteral => some (true, exactWord "true")
  | .falseLiteral => some (true, exactWord "false")
  | .nullLiteral => some (true, exactWord "null")
  | .undefinedLiteral => some (true, exactWord "undefined")
  | .ternaryMark => some (true, exactly "?")
  | .doubleFragment => some (false, stringFragment '"')
  | .singleFragment => some (false, stringFragment '\'')
  | .doubleMarkupFragment => some (false, markupFragment '"')
  | .singleMarkupFragment => some (false, markupFragment '\'')
  | .escapeSequence => some (false, escape)
  | .regexPattern => some (false, regexPattern)
  | .regexEnd => some (false, exactly "/")
  | .regexFlags => some (false, run fun c => 'a' ≤ c && c ≤ 'z')
  | .templateChars => some (false, fun text => (templateChars text).filter (0 < ·))
  | .text => some (false, markupText)
  | _ => none

/-- The label of a token. The slash that ends a regular expression and the mark behind a condition
are punctuation. -/
def tokenLabel (name : Option Construct) (c : Construct) : Label :=
  match name, c with
  | some shown, _ => .named shown
  | none, .regexEnd => .token "/"
  | none, .ternaryMark => .token "?"
  | none, c => .named c

/-! ### Rules -/

/-- Layout in front of a semicolon that is left out: up to the end of the last comment, or none. The
blanks behind that are looked at, but not taken. -/
def EndsWithComment (place : Nat) (layout : List Char) (comments : List Cst) : Prop :=
  (comments.getLast?.map Cst.stop).getD place = place + layout.length

/-- A rule reads the characters `text` at a place, with `rest` behind them, as a row of trees, which
show under `name` and fill the slot `role` if these are said. Comments in front of a construct do
not belong to it. -/
inductive Reads (reserved : String → Bool) : (name : Option Construct) → (role : Option Role) →
    Rule → (place : Nat) → (text rest : List Char) → List Cst → Prop where
  | blank {name : Option Construct} {role : Option Role} {place : Nat} {rest : List Char} :
      Reads reserved name role .blank place [] rest []
  | spelled {name : Option Construct} {role : Option Role} {s : String} {place : Nat}
      {layout rest : List Char} {comments : List Cst} :
      Layout place layout (s.toList ++ rest) comments →
      spellingScan s (s.toList ++ rest) = some s.length →
      Reads reserved name role (.spelled s) place (layout ++ s.toList) rest
        (comments ++ [.node ((name.map Label.named).getD (.token s)) role (place + layout.length)
          (place + layout.length + s.length) []])
  | token {name : Option Construct} {role : Option Role} {c : Construct} {takesLayout : Bool}
      {scan : Scan} {place : Nat} {layout text rest : List Char} {comments : List Cst} :
      tokenScan? (reservedAs reserved name) c = some (takesLayout, scan) →
      Layout place layout (text ++ rest) comments → (takesLayout = false → layout = []) →
      scan (text ++ rest) = some text.length →
      Reads reserved name role (.the c) place (layout ++ text) rest
        (comments ++ [.node (tokenLabel name c) role (place + layout.length)
          (place + layout.length + text.length) []])
  | semicolon {name : Option Construct} {role : Option Role} {setting : Semicolon.Setting}
      {place : Nat} {layout rest : List Char} {comments : List Cst} :
      Layout place layout rest comments → EndsWithComment place layout comments →
      Semicolon.verdict setting rest = .due →
      Reads reserved name role (.the .automaticSemicolon) place layout rest comments
  | signature {name : Option Construct} {role : Option Role} {inExpression : Bool} {place : Nat}
      {layout rest : List Char} {comments : List Cst} :
      Layout place layout rest comments → EndsWithComment place layout comments →
      Semicolon.verdict ⟨inExpression, true⟩ rest = .due →
      Reads reserved name role (.the .signatureSemicolon) place layout rest comments
  | opens {name : Option Construct} {role : Option Role} {c : Construct} {r : Rule} {place : Nat}
      {text rest : List Char} {trees : List Cst} :
      rule? c = some r → isInlined c = true → Reads reserved name role r place text rest trees →
      Reads reserved name role (.the c) place text rest trees
  | hides {role : Option Role} {c : Construct} {r : Rule} {place : Nat} {text rest : List Char}
      {trees : List Cst} :
      rule? c = some r → isInlined c = false → c.isHidden = true →
      Reads reserved none role r place text rest trees →
      Reads reserved none role (.the c) place text rest trees
  | shows {name : Option Construct} {role : Option Role} {c : Construct} {r : Rule} {place : Nat}
      {text rest : List Char} {comments trees : List Cst} :
      rule? c = some r → isInlined c = false → (name.isSome || !c.isHidden) = true →
      Reads reserved none none r place text rest (comments ++ trees) →
      (∀ t ∈ comments, t.label = .named .comment) →
      (∀ t ∈ trees.head?, t.label ≠ .named .comment) →
      Reads reserved name role (.the c) place text rest
        (comments ++ [.node (.named (name.getD c)) role
          ((trees.head?.map Cst.start).getD (place + text.length)) (place + text.length) trees])
  | seq {name : Option Construct} {role : Option Role} {r s : Rule} {place : Nat}
      {text more rest : List Char} {trees others : List Cst} :
      Reads reserved name role r place text (more ++ rest) trees →
      Reads reserved name role s (place + text.length) more rest others →
      Reads reserved name role (.seq r s) place (text ++ more) rest (trees ++ others)
  | first {name : Option Construct} {role : Option Role} {r s : Rule} {place : Nat}
      {text rest : List Char} {trees : List Cst} :
      Reads reserved name role r place text rest trees →
      Reads reserved name role (.alt r s) place text rest trees
  | second {name : Option Construct} {role : Option Role} {r s : Rule} {place : Nat}
      {text rest : List Char} {trees : List Cst} :
      Reads reserved name role s place text rest trees →
      Reads reserved name role (.alt r s) place text rest trees
  | once {name : Option Construct} {role : Option Role} {r : Rule} {place : Nat}
      {text rest : List Char} {trees : List Cst} :
      Reads reserved name role r place text rest trees →
      Reads reserved name role (.many r) place text rest trees
  | again {name : Option Construct} {role : Option Role} {r : Rule} {place : Nat}
      {text more rest : List Char} {trees others : List Cst} :
      Reads reserved name role r place text (more ++ rest) trees →
      Reads reserved name role (.many r) (place + text.length) more rest others →
      Reads reserved name role (.many r) place (text ++ more) rest (trees ++ others)
  | bound {name : Option Construct} {role : Option Role} {binding : Binding} {side : Option Side}
      {r : Rule} {place : Nat} {text rest : List Char} {trees : List Cst} :
      Reads reserved name role r place text rest trees →
      Reads reserved name role (.bound binding side r) place text rest trees
  | weighed {name : Option Construct} {role : Option Role} {weight : Int} {r : Rule} {place : Nat}
      {text rest : List Char} {trees : List Cst} :
      Reads reserved name role r place text rest trees →
      Reads reserved name role (.weighed weight r) place text rest trees
  | shown {name : Option Construct} {role : Option Role} {c : Construct} {r : Rule} {place : Nat}
      {text rest : List Char} {trees : List Cst} :
      Reads reserved (name <|> some c) role r place text rest trees →
      Reads reserved name role (.shown c r) place text rest trees
  | slot {name : Option Construct} {role : Option Role} {own : Role} {r : Rule} {place : Nat}
      {text rest : List Char} {trees : List Cst} :
      Reads reserved name (some own) r place text rest trees →
      Reads reserved name role (.slot own r) place text rest trees

variable {reserved : String → Bool} {name : Option Construct} {role : Option Role} {r r' : Rule}
  {place : Nat} {s text rest : List Char} {trees : List Cst}

/-! ### Tokens in front of more text -/

/-- A unicode escape begins with a backslash and has four characters at least. -/
lemma unicodeEscape_eq_some {c : Char} {n : Nat} (h : unicodeEscape (c :: text) = some n) :
    c = '\\' ∧ 4 ≤ n := by
  unfold unicodeEscape at h
  split at h
  · rename_i heq
    cases heq
    dsimp only at h
    split at h
    · split_ifs at h
      cases h
      exact ⟨rfl, by omega⟩
    · cases h
  · rename_i heq
    cases heq
    split_ifs at h
    cases h
    exact ⟨rfl, by omega⟩
  · cases h

/-- A word ends where neither a word character nor an escape follows. -/
lemma wordTail_append (hs : ∀ c ∈ s, isWordChar c = true)
    (hrest : ∀ c ∈ rest.head?, isWordChar c = false ∧ c ≠ '\\') {fuel : Nat}
    (hfuel : s.length ≤ fuel) : wordTail fuel (s ++ rest) = s.length := by
  -- By induction on the word, for which the fuel is enough.
  induction s generalizing fuel with
  | nil =>
      cases rest with
      | nil => cases fuel <;> rfl
      | cons c rest =>
          obtain ⟨hc, hback⟩ := hrest c rfl
          cases fuel with
          | zero => rfl
          | succ fuel =>
              have hescape : unicodeEscape (c :: rest) = none :=
                Option.eq_none_iff_forall_ne_some.mpr fun n h =>
                  hback (unicodeEscape_eq_some h).1
              rw [List.nil_append, wordTail, hc, if_neg Bool.false_ne_true, hescape]
              rfl
  | cons c s ih =>
      cases fuel with
      | zero => cases hfuel
      | succ fuel =>
          obtain ⟨hc, hs⟩ := List.forall_mem_cons.mp hs
          rw [List.cons_append, wordTail, if_pos hc, ih hs (Nat.le_of_succ_le_succ hfuel),
            List.length_cons, Nat.add_comm]

/-- A word reaches to the first character that cannot belong to it. -/
lemma word_append {c : Char} (hc : isWordStart c = true) (hs : ∀ d ∈ s, isWordChar d = true)
    (hrest : ∀ d ∈ rest.head?, isWordChar d = false ∧ d ≠ '\\') :
    word (c :: s ++ rest) = some (c :: s).length := by
  rw [List.cons_append, word, if_pos hc,
    wordTail_append hs hrest (by rw [List.length_append]; exact Nat.le_add_right _ _),
    List.length_cons, Nat.add_comm]

/-- Letters, digits, the underscore and the dollar sign. -/
def isPlain (c : Char) : Bool :=
  isLetter c || isDigit c || c = '_' || c = '$'

/-- Plain characters are word characters. -/
lemma isWordChar_of_isPlain {c : Char} (h : isPlain c = true) : isWordChar c = true := by
  simp only [isPlain, isLetter, isDigit, Bool.or_eq_true, Bool.and_eq_true, decide_eq_true_eq,
    Char.le_def, UInt32.le_iff_toNat_le, Char.ext_iff, UInt32.ext_iff] at h
  simp only [isWordChar, isBlank, isPlainBlank, isPunctuation, Bool.not_eq_true',
    Bool.or_eq_false_iff, Bool.and_eq_false_iff, decide_eq_false_iff_not, Char.le_def, Char.lt_def,
    UInt32.le_iff_toNat_le, UInt32.lt_iff_toNat_lt, List.mem_cons, List.not_mem_nil, not_or,
    Char.ext_iff, UInt32.ext_iff]
  simp at h ⊢
  omega

/-- What a name starts with is such a character, and no digit. -/
lemma isPlain_of_start {c : Char} (h : (('a' ≤ c && c ≤ 'z') || ('A' ≤ c && c ≤ 'Z') || c = '_'
    || c = '$') = true) : isPlain c = true ∧ isDigit c = false := by
  simp only [Bool.or_eq_true, Bool.and_eq_true, decide_eq_true_eq, Char.le_def,
    UInt32.le_iff_toNat_le, Char.ext_iff, UInt32.ext_iff] at h
  simp only [isPlain, isLetter, isDigit, Bool.or_eq_true, Bool.and_eq_true, Bool.and_eq_false_iff,
    decide_eq_true_eq, decide_eq_false_iff_not, Char.le_def, UInt32.le_iff_toNat_le, Char.ext_iff,
    UInt32.ext_iff]
  simp at h ⊢
  omega

lemma isPlain_of_isLetter {c : Char} (h : isLetter c = true) : isPlain c = true := by
  rw [isPlain, h]
  rfl

lemma isWordStart_of_isLetter {c : Char} (h : isLetter c = true) : isWordStart c = true := by
  have hstart := (isPlain_of_start (by rw [isLetter] at h; rw [h]; rfl)).2
  rw [isWordStart, isWordChar_of_isPlain (isPlain_of_isLetter h), hstart]
  rfl

/-- A word of letters is read where no word goes on behind it. -/
lemma spellingScan_word {spelling : String} (hletters : spelling.toList.all isLetter = true)
    (hne : spelling.toList ≠ []) (hrest : ∀ c ∈ rest.head?, isWordChar c = false ∧ c ≠ '\\') :
    spellingScan spelling (spelling.toList ++ rest) = some spelling.length := by
  rw [spellingScan, if_pos hletters, exactWord]
  have hword : word (spelling.toList ++ rest) = some spelling.toList.length := by
    cases hs : spelling.toList with
    | nil => exact absurd hs hne
    | cons c s =>
        rw [hs, List.all_cons, Bool.and_eq_true] at hletters
        refine word_append (isWordStart_of_isLetter hletters.1) (fun d hd => ?_) hrest
        exact isWordChar_of_isPlain (isPlain_of_isLetter (List.all_eq_true.mp hletters.2 d hd))
  rw [hword]
  dsimp only
  rw [List.take_left, if_pos rfl, String.length_toList]

lemma exactly_append (spelling : String) (rest : List Char) :
    exactly spelling (spelling.toList ++ rest) = some spelling.length := by
  rw [exactly, if_pos (by simp)]

lemma spellingScan_mark {spelling : String} (h : spelling.toList.all isLetter = false)
    (rest : List Char) :
    spellingScan spelling (spelling.toList ++ rest) = some spelling.length := by
  rw [spellingScan, h]
  exact exactly_append spelling rest

/-! ### What rules read -/

namespace Reads

@[simp] lemma blank_iff :
    Reads reserved name role .blank place text rest trees ↔ text = [] ∧ trees = [] := by
  refine ⟨fun h => ?_, fun ⟨htext, htrees⟩ => htext ▸ htrees ▸ .blank⟩
  cases h
  exact ⟨rfl, rfl⟩

@[simp] lemma bound_iff {binding : Binding} {side : Option Side} :
    Reads reserved name role (.bound binding side r) place text rest trees
      ↔ Reads reserved name role r place text rest trees := by
  refine ⟨fun h => ?_, .bound⟩
  cases h
  assumption

@[simp] lemma shown_iff {c : Construct} :
    Reads reserved name role (.shown c r) place text rest trees
      ↔ Reads reserved (name <|> some c) role r place text rest trees := by
  refine ⟨fun h => ?_, .shown⟩
  cases h
  assumption

/-- An alternative is read one way or the other. -/
lemma alt_iff :
    Reads reserved name role (.alt r r') place text rest trees
      ↔ Reads reserved name role r place text rest trees
        ∨ Reads reserved name role r' place text rest trees := by
  refine ⟨fun h => ?_, fun h => h.elim .first .second⟩
  cases h with
  | first h => exact .inl h
  | second h => exact .inr h

/-- A sequence is read in two pieces, one behind the other. -/
lemma seq_iff :
    Reads reserved name role (.seq r r') place text rest trees
      ↔ ∃ front back first second, text = front ++ back ∧ trees = first ++ second
        ∧ Reads reserved name role r place front (back ++ rest) first
        ∧ Reads reserved name role r' (place + front.length) back rest second := by
  refine ⟨fun h => ?_, ?_⟩
  · cases h with
    | seq h h' => exact ⟨_, _, _, _, rfl, rfl, h, h'⟩
  · rintro ⟨front, back, first, second, rfl, rfl, h, h'⟩
    exact .seq h h'

end Reads

/-- A comment begins with a slash. -/
lemma comment_eq_some {text : List Char} {n : Nat} (h : Lexeme.comment text = some n) :
    text.head? = some '/' ∧ 0 < n := by
  unfold Lexeme.comment at h
  split at h
  · cases h
    exact ⟨rfl, by omega⟩
  · obtain ⟨m, -, rfl⟩ := Option.map_eq_some_iff.mp h
    exact ⟨rfl, by omega⟩
  · cases h

/-- Layout starts with a blank or a slash. -/
lemma Layout.eq_nil (h : Layout place text rest trees)
    (hstart : ∀ c ∈ text.head?, isBlank c = false ∧ c ≠ '/') : text = [] ∧ trees = [] := by
  cases h with
  | nothing => exact ⟨rfl, rfl⟩
  | blank hblank _ => exact absurd hblank (Bool.eq_false_iff.mp (hstart _ rfl).1)
  | @comment _ body _ _ _ hscan _ =>
      obtain ⟨hhead, hpos⟩ := comment_eq_some hscan
      obtain ⟨c, body, rfl⟩ := List.exists_cons_of_length_pos hpos
      cases hhead
      exact absurd rfl (hstart '/' rfl).2

/-- What has a rule is no token. -/
lemma tokenScan?_eq_none {c : Construct} (h : rule? c = some r) : tokenScan? reserved c = none := by
  unfold tokenScan?
  split
  all_goals first
    | rfl
    | cases h

lemma rule?_eq_none {c : Construct} {p : Bool × Scan} (h : tokenScan? reserved c = some p) :
    rule? c = none :=
  Option.eq_none_iff_forall_ne_some.mpr fun r hrule => by
    rw [tokenScan?_eq_none hrule] at h
    cases h

namespace Reads

/-- The characters of a token, behind what stands in front of it, and its tree. -/
lemma of_token {c : Construct} {takesLayout : Bool} {scan : Scan}
    (hscan : tokenScan? (reservedAs reserved name) c = some (takesLayout, scan))
    (h : Reads reserved name role (.the c) place text rest trees) :
    ∃ layout body comments, text = layout ++ body ∧ Layout place layout (body ++ rest) comments
      ∧ (takesLayout = false → layout = []) ∧ scan (body ++ rest) = some body.length
      ∧ trees = comments ++ [.node (tokenLabel name c) role (place + layout.length)
          (place + layout.length + body.length) []] := by
  have hrule := rule?_eq_none hscan
  cases h with
  | token hscan' hlayout htakes htext =>
      rw [hscan] at hscan'
      cases hscan'
      exact ⟨_, _, _, rfl, hlayout, htakes, htext, rfl⟩
  | semicolon _ _ _ => cases hscan
  | signature _ _ _ => cases hscan
  | opens hr _ _ => cases hrule.symm.trans hr
  | hides hr _ _ _ => cases hrule.symm.trans hr
  | shows hr _ _ _ _ _ => cases hrule.symm.trans hr

/-- The ways in which a construct with a rule is read: the rule stands in its place, what the rule
reads is hidden in the row, or it is one node behind comments. -/
lemma rule_cases {c : Construct} (hrule : rule? c = some r)
    (h : Reads reserved name role (.the c) place text rest trees) :
    (isInlined c = true ∧ Reads reserved name role r place text rest trees)
    ∨ (isInlined c = false ∧ (name.isSome || !c.isHidden) = false
      ∧ Reads reserved name role r place text rest trees)
    ∨ (isInlined c = false ∧ (name.isSome || !c.isHidden) = true ∧ ∃ comments children,
      trees = comments ++ [.node (.named (name.getD c)) role
        ((children.head?.map Cst.start).getD (place + text.length)) (place + text.length) children]
      ∧ Reads reserved none none r place text rest (comments ++ children)
      ∧ (∀ t ∈ comments, t.label = .named .comment)
      ∧ ∀ t ∈ children.head?, t.label ≠ .named .comment) := by
  cases h with
  | token hscan _ _ _ => cases (rule?_eq_none hscan).symm.trans hrule
  | semicolon _ _ _ => cases hrule
  | signature _ _ _ => cases hrule
  | opens hr hinlined h =>
      cases hrule.symm.trans hr
      exact .inl ⟨hinlined, h⟩
  | hides hr hown hhidden h =>
      cases hrule.symm.trans hr
      exact .inr (.inl ⟨hown, by rw [hhidden]; rfl, h⟩)
  | shows hr hown hshown h hcomments hhead =>
      cases hrule.symm.trans hr
      exact .inr (.inr ⟨hown, hshown, _, _, rfl, h, hcomments, hhead⟩)

/-- A construct reads what its rule reads. -/
lemma of_rule {c : Construct} (hrule : rule? c = some r)
    (h : Reads reserved name role (.the c) place text rest trees) :
    ∃ name role trees, Reads reserved name role r place text rest trees := by
  rcases h.rule_cases hrule with ⟨_, h⟩ | ⟨_, _, h⟩ | ⟨_, _, _, _, _, h, _⟩
  all_goals exact ⟨_, _, _, h⟩

/-- A construct that is replaced by its alternatives is read as one of them. -/
lemma of_inlined {c : Construct} (hrule : rule? c = some r) (hinlined : isInlined c = true)
    (h : Reads reserved name role (.the c) place text rest trees) :
    Reads reserved name role r place text rest trees := by
  rcases h.rule_cases hrule with ⟨_, h⟩ | ⟨hown, _⟩ | ⟨hown, _⟩
  · exact h
  all_goals cases hinlined.symm.trans hown

/-- A construct with a rule that shows is read as one node behind comments. -/
lemma of_shows {c : Construct} (hrule : rule? c = some r) (hown : isInlined c = false)
    (hshown : (name.isSome || !c.isHidden) = true)
    (h : Reads reserved name role (.the c) place text rest trees) :
    ∃ comments children, trees = comments ++ [.node (.named (name.getD c)) role
        ((children.head?.map Cst.start).getD (place + text.length)) (place + text.length) children]
      ∧ Reads reserved none none r place text rest (comments ++ children)
      ∧ (∀ t ∈ comments, t.label = .named .comment)
      ∧ ∀ t ∈ children.head?, t.label ≠ .named .comment := by
  rcases h.rule_cases hrule with ⟨hinlined, _⟩ | ⟨_, hhides, _⟩ | ⟨_, _, h⟩
  · cases hown.symm.trans hinlined
  · cases hhides.symm.trans hshown
  · exact h

/-- A spelling is read behind layout. -/
lemma of_spelled {spelling : String}
    (h : Reads reserved name role (.spelled spelling) place text rest trees) :
    ∃ layout comments, text = layout ++ spelling.toList
      ∧ Layout place layout (spelling.toList ++ rest) comments := by
  cases h with
  | spelled hlayout _ => exact ⟨_, _, rfl, hlayout⟩

/-- A spelling with nothing in front of it. -/
lemma here (spelling : String)
    (h : spellingScan spelling (spelling.toList ++ rest) = some spelling.length) :
    Reads reserved none role (.spelled spelling) place spelling.toList rest
      [.node (.token spelling) role place (place + spelling.toList.length) []] :=
  String.length_toList.symm ▸ .spelled .nothing h

/-- A spelling behind a space. -/
lemma spaced (spelling : String)
    (h : spellingScan spelling (spelling.toList ++ rest) = some spelling.length) :
    Reads reserved none role (.spelled spelling) place (' ' :: spelling.toList) rest
      [.node (.token spelling) role (place + 1) (place + 1 + spelling.toList.length) []] :=
  String.length_toList.symm ▸ .spelled (.blank rfl .nothing) h

/-- Punctuation with nothing in front of it. -/
lemma mark (spelling : String) (h : spelling.toList.all isLetter = false) :
    Reads reserved none role (.spelled spelling) place spelling.toList rest
      [.node (.token spelling) role place (place + spelling.toList.length) []] :=
  .here spelling (spellingScan_mark h rest)

/-- A token with nothing in front of it. -/
lemma token_here {c : Construct} {takesLayout : Bool} {scan : Scan}
    (hscan : tokenScan? (reservedAs reserved name) c = some (takesLayout, scan))
    (h : scan (text ++ rest) = some text.length) :
    Reads reserved name role (.the c) place text rest
      [.node (tokenLabel name c) role place (place + text.length) []] :=
  .token hscan .nothing (fun _ => rfl) h

/-- A construct with nothing in front of it. -/
lemma construct_here {c : Construct} (hrule : rule? c = some r) (hown : isInlined c = false)
    (hshown : (name.isSome || !c.isHidden) = true)
    (h : Reads reserved none none r place text rest trees)
    (hhead : ∀ t ∈ trees.head?, t.label ≠ .named .comment) :
    Reads reserved name role (.the c) place text rest
      [.node (.named (name.getD c)) role ((trees.head?.map Cst.start).getD (place + text.length))
        (place + text.length) trees] :=
  .shows hrule hown hshown (show Reads reserved none none r place text rest ([] ++ trees) from h)
    nofun hhead

/-- What may be left out behind a rule. -/
lemma seq_nothing (h : Reads reserved name role r place text rest trees) :
    Reads reserved name role (.seq r (.maybe r')) place text rest trees := by
  have hseq : Reads reserved name role (.seq r (.maybe r')) place (text ++ []) rest (trees ++ []) :=
    .seq h (.second .blank)
  rwa [List.append_nil, List.append_nil] at hseq

/-- What may be left out in front of a rule. -/
lemma nothing_seq (h : Reads reserved name role r place text rest trees) :
    Reads reserved name role (.seq (.maybe r') r) place text rest trees :=
  show Reads reserved name role (.seq (.maybe r') r) place ([] ++ text) rest ([] ++ trees) from
    .seq (.second .blank) h

end Reads

end Restyle.Syntax
