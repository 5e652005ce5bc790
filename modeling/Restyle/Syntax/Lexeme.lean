/-!
Lexemes: how far each kind of token reaches at the front of a text.

A scan takes the characters that are left and answers how many of them the token takes, or `none`
when no such token starts there. Layout is what stands between tokens: blanks and comments.
-/

namespace Restyle.Syntax

/-- How many characters a token takes at the front of a text. -/
abbrev Scan := List Char → Option Nat

namespace Lexeme

/-! ### Classes of characters -/

/-- Blanks of the ASCII range, the only ones that count as blank inside the text of an element and
where a statement may end without a semicolon. -/
def isPlainBlank (c : Char) : Bool :=
  c = ' ' || ('\t' ≤ c && c ≤ '\r')

/-- Blanks that may stand between two tokens. -/
def isBlank (c : Char) : Bool :=
  isPlainBlank c || c = '\u00a0' || c = '\u1680' || ('\u2000' ≤ c && c ≤ '\u200b')
    || c = '\u2028' || c = '\u2029' || c = '\u202f' || c = '\u205f' || c = '\u2060'
    || c = '\u3000' || c = '\ufeff'

def isDigit (c : Char) : Bool :=
  '0' ≤ c && c ≤ '9'

def isHexDigit (c : Char) : Bool :=
  isDigit c || ('a' ≤ c && c ≤ 'f') || ('A' ≤ c && c ≤ 'F')

def isLetter (c : Char) : Bool :=
  ('a' ≤ c && c ≤ 'z') || ('A' ≤ c && c ≤ 'Z')

/-- The punctuation that ends an identifier. -/
def isPunctuation (c : Char) : Bool :=
  c ∈ [':', ';', '\x60', '"', '\'', '@', '#', '.', ',', '|', '^', '&', '<', '=', '>', '+', '-', '*',
    '/', '\\', '%', '?', '!', '~', '(', ')', '[', ']', '\x7b', '\x7d']

/-- A character that an identifier may hold after its first. Everything outside the ASCII range
counts, except blanks. -/
def isWordChar (c : Char) : Bool :=
  !(c < ' ' || isBlank c || isPunctuation c)

/-- A character that an identifier may start with. -/
def isWordStart (c : Char) : Bool :=
  isWordChar c && !isDigit c

/-! ### Words -/

/-- The length of a Unicode escape, backslash included. -/
def unicodeEscape : Scan
  | '\\' :: 'u' :: '\x7b' :: rest =>
    let digits := (rest.takeWhile isHexDigit).length
    match rest.drop digits with
    | '\x7d' :: _ => if 0 < digits then some (digits + 4) else none
    | _ => none
  | '\\' :: 'u' :: rest =>
    if (rest.take 4).length = 4 && (rest.take 4).all isHexDigit then some 6 else none
  | _ => none

/-- How many characters at the front of a text belong to an identifier that has begun. The fuel is
the length of the text. -/
def wordTail : Nat → List Char → Nat
  | 0, _ => 0
  | _, [] => 0
  | fuel + 1, c :: rest =>
    if isWordChar c then 1 + wordTail fuel rest
    else
      match unicodeEscape (c :: rest) with
      | some n => n + wordTail fuel ((c :: rest).drop n)
      | none => 0

/-- An identifier or keyword. -/
def word : Scan := fun text =>
  match text with
  | [] => none
  | c :: rest =>
    if isWordStart c then some (1 + wordTail rest.length rest)
    else (unicodeEscape text).map fun n => n + wordTail text.length (text.drop n)

/-- A private name such as `#count`. -/
def privateName : Scan
  | '#' :: rest => (word rest).map (· + 1)
  | _ => none

/-- The name of an element or attribute that holds a dash. -/
def dashedName : Scan := fun text =>
  let plain (c : Char) : Bool := isLetter c || isDigit c || c = '_' || c = '$'
  let head := (text.takeWhile plain).length
  match text with
  | [] => none
  | c :: _ =>
    if plain c && !isDigit c then
      match text.drop head with
      | '-' :: rest => some (head + 1 + (rest.takeWhile fun c => plain c || c = '-').length)
      | _ => none
    else none

/-- Exactly the characters of `spelling`. -/
def exactly (spelling : String) : Scan := fun text =>
  if spelling.toList.isPrefixOf text then some spelling.length else none

/-! ### Numbers -/

/-- Digits in which a single underscore may stand between two of them. -/
def digitRun (isDigit : Char → Bool) : List Char → Nat
  | [] => 0
  | [c] => if isDigit c then 1 else 0
  | '_' :: c :: rest => if isDigit c then 2 + digitRun isDigit rest else 0
  | c :: rest => if isDigit c then 1 + digitRun isDigit rest else 0

/-- Digits with separators, the first of them a digit. -/
def digits (isDigit : Char → Bool) (text : List Char) : Nat :=
  match text with
  | c :: _ => if isDigit c then digitRun isDigit text else 0
  | [] => 0

/-- An exponent such as `e-7`; nothing if there is none. -/
def exponent (text : List Char) : Nat :=
  match text with
  | c :: rest =>
    if c = 'e' || c = 'E' then
      let sign :=
        match rest with
        | '+' :: _ | '-' :: _ => 1
        | _ => 0
      let n := digits isDigit (rest.drop sign)
      if n = 0 then 0 else 1 + sign + n
    else 0
  | [] => 0

/-- Whether digits may stand before a decimal point or an exponent: no two zeros in front. -/
def isInteger : List Char → Bool
  | '0' :: d :: _ => '1' ≤ d && d ≤ '9'
  | _ => true

/-- A decimal number, or digits that end in `n`. -/
def decimal : Scan := fun text =>
  let whole := digits isDigit text
  let digitsAlone : Nat :=
    match text.drop whole with
    | 'n' :: _ => whole + 1
    | _ => whole
  if whole = 0 then
    match text with
    | '.' :: rest =>
      let n := digits isDigit rest
      if n = 0 then none else some (1 + n + exponent (rest.drop n))
    | _ => none
  else if !isInteger (text.take whole) then some digitsAlone
  else
    match text.drop whole with
    | '.' :: rest =>
      let n := digits isDigit rest
      some (whole + 1 + n + exponent (rest.drop n))
    | rest =>
      let e := exponent rest
      some (if e = 0 then digitsAlone else whole + e)

/-- An integer of base 2, 8 or 16, behind the two characters that name the base. -/
def radixInteger (isDigit : Char → Bool) : Scan := fun text =>
  match digits isDigit (text.drop 2) with
  | 0 => none
  | n =>
    match text.drop (n + 2) with
    | 'n' :: _ => some (n + 3)
    | _ => some (n + 2)

/-- A number. -/
def number : Scan := fun text =>
  let based : Option Nat :=
    match text with
    | '0' :: 'x' :: _ | '0' :: 'X' :: _ => radixInteger isHexDigit text
    | '0' :: 'o' :: _ | '0' :: 'O' :: _ => radixInteger (fun c => '0' ≤ c && c ≤ '7') text
    | '0' :: 'b' :: _ | '0' :: 'B' :: _ => radixInteger (fun c => c = '0' || c = '1') text
    | _ => none
  based <|> decimal text

/-! ### Strings, templates and patterns -/

/-- A run of characters, as a token that is not empty. -/
def run (p : Char → Bool) : Scan := fun text =>
  match (text.takeWhile p).length with
  | 0 => none
  | n => some n

/-- What stands in a string between its quotes, up to an escape or the end of the line. -/
def stringFragment (quote : Char) : Scan :=
  run fun c => c ≠ quote && c ≠ '\\' && c ≠ '\r' && c ≠ '\n' && c ≠ '\x00'

/-- An escape sequence in a string, backslash included. -/
def escape : Scan
  | '\\' :: 'u' :: rest => unicodeEscape ('\\' :: 'u' :: rest)
  | '\\' :: 'x' :: a :: b :: _ => if isHexDigit a && isHexDigit b then some 4 else none
  | '\\' :: 'x' :: _ => none
  | '\\' :: c :: rest =>
    let breaks : Bool := rest.head?.any fun d => d = '\n' || d = '\u2028' || d = '\u2029'
    if '0' ≤ c && c ≤ '7' then
      some (1 + ((c :: rest).take 3 |>.takeWhile fun d => '0' ≤ d && d ≤ '7').length)
    else if (c = '\r' || c = '?') && breaks then some 3
    else if c = '\x00' then none
    else some 2
  | _ => none

/-- A character reference such as `&nbsp;` or `&#10;`. -/
def entity : Scan
  | '&' :: '#' :: c :: rest =>
    let (lead, isDigit, most, body) : Nat × (Char → Bool) × Nat × List Char :=
      if c = 'x' || c = 'X' then (3, isHexDigit, 6, rest) else (2, isDigit, 5, c :: rest)
    let n := (body.takeWhile isDigit).length
    match body.drop n with
    | ';' :: _ => if 0 < n && n ≤ most then some (lead + n + 1) else none
    | _ => none
  | '&' :: rest =>
    let n := (rest.takeWhile isLetter).length
    match rest.drop n with
    | ';' :: _ => if 0 < n && n ≤ 30 then some (n + 2) else none
    | _ => none
  | _ => none

/-- How much of an attribute's string holds no character reference. An ampersand takes the character
behind it along, be it the quote. -/
def markupFragmentTail (quote : Char) : List Char → Nat
  | [] => 0
  | '&' :: c :: rest =>
    if c = '#' || isLetter c || c = '\x00' then 0 else 2 + markupFragmentTail quote rest
  | ['&'] => 0
  | c :: rest => if c = quote || c = '\x00' then 0 else 1 + markupFragmentTail quote rest

/-- What stands in the string of an attribute between its quotes. -/
def markupFragment (quote : Char) : Scan := fun text =>
  match markupFragmentTail quote text with
  | 0 => none
  | n => some n

/-- A character that ends the text between two tags. -/
def endsText (c : Char) : Bool :=
  c = '<' || c = '>' || c = '\x7b' || c = '\x7d' || c = '&' || c = '\x00'

/-- Whether a run of characters shows as text: it holds a character other than line breaks and the
blanks that follow them. `afterBreak` says that only those have been seen since a line break. -/
def showsAsText (afterBreak : Bool) : List Char → Bool
  | [] => false
  | c :: rest =>
    if c = '\n' || (afterBreak && isPlainBlank c) then showsAsText true rest else true

/-- The characters between two tags. -/
def textRun (text : List Char) : List Char :=
  text.takeWhile fun c => !endsText c

/-- The text between two tags. A run of blanks that starts with a line break is layout instead. -/
def markupText : Scan := fun text =>
  let run := textRun text
  if showsAsText false run then some run.length else none

/-- A stretch of a template without substitutions. It ends before a substitution, an escape or the
closing quote. -/
def templateChars : List Char → Option Nat
  | '\x60' :: _ | '\\' :: _ | '$' :: '\x7b' :: _ => some 0
  | '\x00' :: _ | [] => none
  | _ :: rest => (templateChars rest).map (· + 1)

/-- Whether `c` can stand nowhere in a regular expression. -/
def endsPattern (c : Char) : Bool :=
  c = '\n' || c = '\x00'

/-- The class of characters in a regular expression that has been opened by a bracket. -/
def classTail : List Char → Option Nat
  | ']' :: _ => some 1
  | '\\' :: c :: rest => if endsPattern c then none else (classTail rest).map (· + 2)
  | ['\\'] => none
  | c :: rest => if endsPattern c then none else (classTail rest).map (· + 1)
  | [] => none

/-- How many characters of a regular expression stand before its closing slash. The fuel is the
length of the text. -/
def regexTail : Nat → List Char → Nat
  | 0, _ => 0
  | _, [] => 0
  | fuel + 1, c :: rest =>
    if c = '/' || endsPattern c then 0
    else if c = '\\' then
      match rest with
      | d :: more => if endsPattern d then 0 else 2 + regexTail fuel more
      | [] => 0
    else if c = '[' then
      match classTail rest with
      | some n => 1 + n + regexTail fuel (rest.drop n)
      | none => 0
    else 1 + regexTail fuel rest

/-- What stands between the slashes of a regular expression. -/
def regexPattern : Scan := fun text =>
  match regexTail text.length text with
  | 0 => none
  | n => some n

/-- The line that names an interpreter. -/
def hashBang : Scan
  | '#' :: '!' :: rest => some (2 + (rest.takeWhile fun c => c ≠ '\n' && c ≠ '\x00').length)
  | _ => none

/-- How many characters look like the beginning of an identifier that is not finished. -/
def begunWord : List Char → Nat
  | '\\' :: 'u' :: '\x7b' :: rest => 3 + (rest.takeWhile isHexDigit).length
  | '\\' :: 'u' :: rest => 2 + ((rest.take 3).takeWhile isHexDigit).length
  | '\\' :: _ => 1
  | _ => 0

/-- How many characters look like the beginning of a word or a private name that is not finished, or
of an escape, where one may stand. -/
def begun (escapes : Bool) : List Char → Nat
  | '\\' :: 'x' :: rest =>
    if escapes then 2 + ((rest.take 1).takeWhile isHexDigit).length else 1
  | '#' :: rest => 1 + begunWord rest
  | text => begunWord text

/-! ### Comments -/

/-- Whether `c` ends a line, as far as a line comment is concerned. -/
def endsLine (c : Char) : Bool :=
  c = '\n' || c = '\r' || c = '\u2028' || c = '\u2029' || c = '\x00'

/-- The part of a block comment after its opening, closing included. -/
def blockTail : List Char → Option Nat
  | '*' :: '/' :: _ => some 2
  | '\x00' :: _ => none
  | _ :: rest => (blockTail rest).map (· + 1)
  | [] => none

/-- A comment. -/
def comment : Scan
  | '/' :: '/' :: rest => some (2 + (rest.takeWhile fun c => !endsLine c).length)
  | '/' :: '*' :: rest => (blockTail rest).map (· + 2)
  | _ => none

/-- A comment as documents of markup write it: `<!--` or `-->` with the rest of the line. -/
def markupComment : Scan := fun text =>
  let body (mark : String) : Nat :=
    ((text.drop mark.length).takeWhile fun c =>
      c ≠ '\n' && c ≠ '\u2028' && c ≠ '\u2029' && c ≠ '\x00').length
  match exactly "<!--" text, exactly "-->" text with
  | some n, _ => some (n + body "<!--")
  | none, some n => some (n + body "-->")
  | none, none => none

end Lexeme

end Restyle.Syntax
