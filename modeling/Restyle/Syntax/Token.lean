import Restyle.Syntax.Lookahead
import Restyle.Syntax.Semicolon
import Std.Data.HashMap

/-!
The next token of a text. Which token stands at a place depends on the terminals that the parser can
take there: `Token.next` takes the set of these. Tokens that depend on their surroundings are looked
for first (`contextual`), then those that are told by their characters, the longest first
(`plain`). Where nothing acceptable stands, any token is taken, and failing that, characters up to
the next token.
-/

namespace Restyle.Syntax

open Grammar

/-- A token: which terminal it is, the characters before it that are layout, and its length. -/
structure Token where
  terminal : Nat
  lead : Nat
  length : Nat
  /-- Whether it is a word with a meaning of its own, be it taken as an identifier here. -/
  isKeyword : Bool
  deriving Repr, DecidableEq, Inhabited

namespace Token

/-! ### Terminals by name -/

/-- The number of a token that is a construct. -/
def number (c : Construct) : Nat :=
  terminalNumber (.token c)

/-- The end of the text. -/
def finish : Nat := 0

/-- The identifier, which stands for every word that is no keyword. -/
def identifier : Nat := number .identifier

def automaticSemicolon : Nat := number .automaticSemicolon
def signatureSemicolon : Nat := number .signatureSemicolon
def templateChars : Nat := number .templateChars
def ternaryMark : Nat := number .ternaryMark
def markupComment : Nat := number .markupComment
def text : Nat := number .text
def comment : Nat := number .comment
def regexPattern : Nat := number .regexPattern
def escapeSequence : Nat := number .escapeSequence
def disjunction : Nat := terminalNumber (.spelled "||")

/-- The tokens that are single words, with those words. -/
def namedWords : List (String × Construct) :=
  [("this", .thisExpression), ("super", .superExpression), ("true", .trueLiteral),
    ("false", .falseLiteral), ("null", .nullLiteral), ("undefined", .undefinedLiteral)]

/-- The spelled terminals with their numbers. -/
def spelled : List (String × Nat) :=
  terminals.toList.zipIdx.filterMap fun (t, n) =>
    match t with
    | .spelled s => some (s, n)
    | _ => none

/-- Whether a spelling is a word. -/
def isWord (s : String) : Bool :=
  s.toList.all Lexeme.isLetter

/-- The words with a meaning of their own. -/
def keywords : Std.HashMap String Nat :=
  Std.HashMap.ofList
    (spelled.filter (isWord ·.1) ++ namedWords.map fun (s, c) => (s, number c))

/-- The set of the words with a meaning of their own. -/
def keywordSet : TokenSet :=
  keywords.fold (fun set _ n => set.union (.single n)) .empty

/-- The pieces of punctuation with their numbers, longer ones before shorter ones. -/
def punctuation : List (List Char × Nat) :=
  ((spelled.filter fun (s, _) => !isWord s).map fun (s, n) => (s.toList, n)).mergeSort
    fun p q => q.1.length ≤ p.1.length

/-- The pieces of punctuation that start with each character of the ASCII range. -/
def punctuationFrom : Array (List (List Char × Nat)) :=
  Array.ofFn fun (n : Fin 128) =>
    punctuation.filter fun (s, _) => s.head?.any fun c => c.toNat = n.val

/-- The tokens that may stand between any two others. -/
def layout : TokenSet :=
  layoutTokens.foldl (fun set c => set.union (.single (number c))) .empty

/-- The tokens that are looked for where nothing acceptable stands: all but those that take in what
is a token elsewhere. -/
def anywhere : TokenSet :=
  let excluded : List Nat :=
    [.doubleFragment, .singleFragment, .doubleMarkupFragment, .singleMarkupFragment, .regexPattern,
      .regexFlags, .dashedName, .characterReference].map number
    ++ ["?:", "/>"].map fun s => terminalNumber (.spelled s)
  (List.range terminals.size).foldl
    (fun set n => if excluded.contains n then set else set.union (.single n)) .empty

/-! ### Tokens that depend on their surroundings -/

/-- The mark between a condition and the first branch. Before an index, a colon, a bracket or a
comma it is something else. `skipped` characters have been passed. -/
def ternary (skipped : Nat) (rest : List Char) : Option Token :=
  let blanks := (rest.takeWhile Lexeme.isPlainBlank).length
  let found := some ⟨ternaryMark, skipped + blanks, 1, false⟩
  match rest.drop blanks with
  | '?' :: '?' :: _ | '?' :: '.' :: _ => none
  | '?' :: rest =>
    match rest.dropWhile Lexeme.isPlainBlank with
    | ':' :: _ | ')' :: _ | ',' :: _ => none
    | '.' :: c :: _ => if Lexeme.isDigit c then found else none
    | ['.'] => none
    | _ => found
  | _ => none

/-- A comment as documents of markup write it. `skipped` characters have been passed. -/
def markupCommentAt (skipped : Nat) (rest : List Char) : Option Token :=
  let blank (c : Char) : Bool := Lexeme.isPlainBlank c || c = '\u2028' || c = '\u2029'
  let blanks := (rest.takeWhile blank).length
  (Lexeme.markupComment (rest.drop blanks)).map fun n =>
    if blanks = 0 then ⟨markupComment, 0, skipped + n, false⟩
    else ⟨markupComment, skipped + blanks, n, false⟩

/-- A token that depends on its surroundings. -/
def contextual (valid : TokenSet) (rest : List Char) : Option Token :=
  if valid.has templateChars then
    if valid.has automaticSemicolon then none
    else
      match Lexeme.templateChars rest with
      | none | some 0 => none
      | some n => some ⟨templateChars, 0, n, false⟩
  else
    let inMarkup : Bool := valid.has text
    match if inMarkup then Lexeme.markupText rest else none with
    | some n => some ⟨text, 0, n, false⟩
    | none =>
      let skipped := if inMarkup then (Lexeme.textRun rest).length else 0
      let rest := rest.drop skipped
      if valid.has automaticSemicolon || valid.has signatureSemicolon then
        match Semicolon.verdict ⟨valid.has disjunction, valid.has signatureSemicolon⟩ rest with
        | .due => some ⟨automaticSemicolon, 0, 0, false⟩
        | .carriedOn left metComment =>
          if !metComment && valid.has ternaryMark && left.head? = some '?' then
            ternary (rest.length - left.length) left
          else none
      else if valid.has ternaryMark then ternary skipped rest
      else if valid.has disjunction || valid.has escapeSequence || valid.has regexPattern then
        none
      else markupCommentAt skipped rest

/-! ### Tokens that are told by their characters -/

/-- What stands between the quotes of a string or the slashes of a regular expression. These tokens
start right where the one before them ended, and blanks belong to them. -/
def stretches : List (Nat × Scan) :=
  [(number .doubleFragment, Lexeme.stringFragment '"'),
    (number .singleFragment, Lexeme.stringFragment '\''),
    (number .doubleMarkupFragment, Lexeme.markupFragment '"'),
    (number .singleMarkupFragment, Lexeme.markupFragment '\''),
    (regexPattern, Lexeme.regexPattern)]

/-- The other tokens that start right where the one before them ended. -/
def adjacent : List (Nat × Scan) :=
  [(escapeSequence, Lexeme.escape),
    (number .regexFlags, Lexeme.run fun c => 'a' ≤ c && c ≤ 'z')]

/-- The other tokens that are no words and no fixed punctuation. -/
def patterned : List (Nat × Scan) :=
  [(comment, Lexeme.comment), (number .number, Lexeme.number),
    (number .privateName, Lexeme.privateName), (number .dashedName, Lexeme.dashedName),
    (number .characterReference, Lexeme.entity), (number .hashBang, Lexeme.hashBang)]

/-- The longer one of two tokens, the first one of equals. -/
def longer (t : Option Token) (u : Option Token) : Option Token :=
  match t, u with
  | some t, some u => if t.length < u.length then some u else some t
  | some t, none => some t
  | none, u => u

/-- The first of some tokens that can be read. -/
def firstOf (valid : TokenSet) (lead : Nat) (rest : List Char) :
    List (Nat × Scan) → Option Token
  | [] => none
  | (n, scan) :: more =>
    match if valid.has n then scan rest else none with
    | some length => some ⟨n, lead, length, false⟩
    | none => firstOf valid lead rest more

/-- The longest of some tokens that can be read. -/
def longestOf (valid : TokenSet) (lead : Nat) (rest : List Char)
    (candidates : List (Nat × Scan)) : Option Token :=
  candidates.foldl
    (fun best (n, scan) =>
      if valid.has n then longer best ((scan rest).map fun length => ⟨n, lead, length, false⟩)
      else best)
    none

/-- A word: a keyword where `allowed` takes it, and an identifier otherwise. -/
def word (allowed : TokenSet) (lead : Nat) (rest : List Char) : Option Token :=
  (Lexeme.word rest).map fun n =>
    match keywords[String.ofList (rest.take n)]? with
    | some k => ⟨if allowed.has k then k else identifier, lead, n, true⟩
    | none => ⟨identifier, lead, n, false⟩

/-- The longest piece of punctuation. -/
def mark (valid : TokenSet) (lead : Nat) (rest : List Char) : Option Token :=
  match rest with
  | [] => none
  | c :: _ =>
    ((punctuationFrom.getD c.toNat []).find? fun (s, n) =>
      valid.has n && s.isPrefixOf rest).map fun (s, n) => ⟨n, lead, s.length, false⟩

/-- A token that layout may stand before. Keywords must be `allowed`. -/
def spaced (valid allowed : TokenSet) (rest : List Char) : Option Token :=
  let lead := (rest.takeWhile Lexeme.isBlank).length
  match rest.drop lead with
  | [] => if valid.has finish then some ⟨finish, lead, 0, false⟩ else none
  | rest =>
    let words : TokenSet := keywordSet.union (.single identifier)
    let word := if valid &&& words = 0 then none else word allowed lead rest
    longer (longer word (mark valid lead rest)) (longestOf valid lead rest patterned)

/-- A comment or a character reference together with the blanks before it. -/
def withBlanks (valid : TokenSet) (rest : List Char) : Option Token :=
  let blanks := (rest.takeWhile Lexeme.isBlank).length
  (longestOf valid 0 (rest.drop blanks)
    [(comment, Lexeme.comment), (number .characterReference, Lexeme.entity)]).map
    fun t => { t with length := blanks + t.length }

/-- A stretch of a string or of a regular expression. Where it ends at an ampersand or a slash, a
comment or a reference that began at the same place reaches further and goes first. Blanks alone at
the end of a line are layout in a regular expression. -/
def stretch (valid allowed : TokenSet) (rest : List Char) : Option Token :=
  (firstOf valid 0 rest stretches).bind fun t =>
    match rest.drop t.length with
    | '&' :: _ | '/' :: _ => longer (some t) (withBlanks valid rest)
    | '\n' :: _ =>
      if t.terminal = regexPattern && (rest.take t.length).all Lexeme.isBlank then
        spaced valid allowed rest <|> some { t with lead := t.length, length := 0 }
      else some t
    | _ => some t

/-- A token that is told by its characters. Keywords must be `allowed`. -/
def plain (valid allowed : TokenSet) (rest : List Char) : Option Token :=
  stretch valid allowed rest <|> firstOf valid 0 rest [(number .regexEnd, Lexeme.exactly "/")]
    <|> longer (firstOf valid 0 rest adjacent) (spaced valid allowed rest)

/-! ### The next token -/

/-- What the parser finds next. -/
inductive Found where
  | token (t : Token)
  /-- Characters that are no token. -/
  | unknown (lead length : Nat)
  deriving Repr

/-- The characters up to the next token. Blanks, and what looks like the beginning of a token behind
them, are passed as a whole. The fuel is the number of characters left. -/
def lengthToNext (allowed : TokenSet) : Nat → List Char → Nat
  | 0, _ => 0
  | fuel + 1, text =>
    if (plain anywhere allowed text).isSome then 0
    else
      let blanks := (text.takeWhile Lexeme.isBlank).length
      let passed := max 1 (blanks + Lexeme.begun (blanks = 0) (text.drop blanks))
      passed + lengthToNext allowed fuel (text.drop passed)

/-- The characters that are no token, behind `lead` blanks. There is at least one, unless the text
ends. -/
def unknownLength (allowed : TokenSet) (lead : Nat) (text : List Char) : Nat :=
  let passed := min text.length (max 1 (Lexeme.begun (lead = 0) text))
  passed + lengthToNext allowed text.length (text.drop passed)

/-- The next token where the terminals of `valid` are acceptable and those of `mode` are looked for.
A token without characters counts if `takesEmpty` holds. -/
def next (valid mode : TokenSet) (takesEmpty : Bool) (rest : List Char) : Found :=
  let found := (contextual valid rest).filter fun t => takesEmpty || 0 < t.length
  match found <|> plain mode valid rest <|> plain anywhere valid rest with
  | some t => .token t
  | none =>
    let lead := (rest.takeWhile Lexeme.isBlank).length
    .unknown lead (unknownLength valid lead (rest.drop lead))

end Token

end Restyle.Syntax
