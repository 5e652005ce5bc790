/-!
Blanks: the characters that count as white space, and the ways to cut a text at them.
-/

namespace Restyle.Text

/-- Whether a character is white space in any script. -/
def isBlank (c : Char) : Bool :=
  ('\t' ≤ c && c ≤ '\r') || c = ' ' || c = '\u0085' || c = '\u00a0' || c = '\u1680'
    || ('\u2000' ≤ c && c ≤ '\u200a') || c = '\u2028' || c = '\u2029' || c = '\u202f'
    || c = '\u205f' || c = '\u3000'

/-- The characters without the blanks before them. -/
def trimLeft (cs : List Char) : List Char :=
  cs.dropWhile isBlank

/-- The characters without the blanks behind them. -/
def trimRight (cs : List Char) : List Char :=
  (cs.reverse.dropWhile isBlank).reverse

/-- The text without the blanks around it. -/
def trim (s : String) : String :=
  String.ofList (trimRight (trimLeft s.toList))

/-- The text without the blanks behind it. -/
def trimEnd (s : String) : String :=
  String.ofList (trimRight s.toList)

/-- Whether a text holds nothing but blanks. -/
def isBlankText (s : String) : Bool :=
  s.toList.all isBlank

/-- The words of a text; `word` holds the characters of the current one in reverse. -/
def wordsFrom : List Char → List Char → List (List Char)
  | [], [] => []
  | [], word => [word.reverse]
  | c :: cs, word =>
    if isBlank c then
      match word with
      | [] => wordsFrom cs []
      | word => word.reverse :: wordsFrom cs []
    else wordsFrom cs (c :: word)

/-- The parts of a text between blanks. -/
def words (s : String) : List String :=
  (wordsFrom s.toList []).map String.ofList

/-- Whether the characters `part` stand together somewhere in `cs`. -/
def hasInfix (part : List Char) : List Char → Bool
  | [] => part.isEmpty
  | c :: cs => part.isPrefixOf (c :: cs) || hasInfix part cs

/-- Whether a text occurs in another. -/
def contains (s part : String) : Bool :=
  hasInfix part.toList s.toList

/-- The parts of a text between the places where `cut` holds; there is always at least one. -/
def splitList (cut : Char → Bool) : List Char → List (List Char)
  | [] => [[]]
  | c :: cs =>
    if cut c then [] :: splitList cut cs
    else
      match splitList cut cs with
      | [] => [[c]]
      | part :: parts => (c :: part) :: parts

/-- The parts of a text between the characters where `cut` holds. -/
def split (cut : Char → Bool) (s : String) : List String :=
  (splitList cut s.toList).map String.ofList

end Restyle.Text
