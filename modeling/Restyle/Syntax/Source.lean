/-!
Source texts with the measures that the parser asks for again and again: what follows a place, and
how many bytes and lines stand before it.
-/

namespace Restyle.Syntax

/-- A text, measured at every place. A place is the number of characters before it. -/
structure Source where
  /-- What follows each place. -/
  rests : Array (List Char)
  /-- How many bytes of UTF-8 stand before each place. -/
  bytes : Array Nat
  /-- How many line breaks stand before each place. -/
  rows : Array Nat
  deriving Inhabited

namespace Source

/-- What follows each place of a text. -/
def restsOf : List Char → Array (List Char) → Array (List Char)
  | [], found => found.push []
  | c :: rest, found => restsOf rest (found.push (c :: rest))

/-- The sums of a measure over the characters before each place. -/
def sums (measure : Char → Nat) (text : List Char) : Array Nat :=
  (text.foldl
    (fun (found, n) c => (Array.push found (n + measure c), n + measure c))
    ((#[0] : Array Nat), 0)).1

def ofText (text : List Char) : Source :=
  { rests := restsOf text #[]
    bytes := sums Char.utf8Size text
    rows := sums (fun c => if c = '\n' then 1 else 0) text }

/-- How many characters there are. -/
def size (s : Source) : Nat := s.rests.size - 1

/-- What follows a place. -/
def after (s : Source) (place : Nat) : List Char :=
  s.rests.getD place []

/-- How many characters at a place belong to no token: the mark of the byte order, which may stand
at the very front. -/
def frontOf (s : Source) (place : Nat) : Nat :=
  if place = 0 && (s.after 0).head? = some '\ufeff' then 1 else 0

/-- How many bytes stand between two places. -/
def bytesBetween (s : Source) (start stop : Nat) : Nat :=
  s.bytes.getD stop 0 - s.bytes.getD start 0

/-- How many line breaks stand between two places. -/
def rowsBetween (s : Source) (start stop : Nat) : Nat :=
  s.rows.getD stop 0 - s.rows.getD start 0

end Source

end Restyle.Syntax
