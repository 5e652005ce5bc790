import Restyle.Number.Shortest

/-!
JSON values and their printed forms. An object is a list of members in order; `insert` keeps the
place of a key that is there already. A number is a whole number of 64 bits or a floating-point
number, and stays what it was written as.
-/

namespace Restyle

/-- A number in a JSON text. -/
inductive JsonNumber where
  | whole (n : Int)
  | real (x : Binary64)
  deriving DecidableEq, Repr, Inhabited

/-- A JSON value. -/
inductive Json where
  | null
  | bool (b : Bool)
  | number (n : JsonNumber)
  | string (s : String)
  | array (items : List Json)
  | object (members : List (String × Json))
  deriving Repr, Inhabited

namespace Json

/-- Puts a member into an object: in the place of the member with that key, or at the end. -/
def insert (key : String) (value : Json) : List (String × Json) → List (String × Json)
  | [] => [(key, value)]
  | (k, v) :: rest => if k = key then (k, value) :: rest else (k, v) :: insert key value rest

/-- The value of a key. -/
def get? (key : String) (members : List (String × Json)) : Option Json :=
  (members.find? fun m => m.1 = key).map Prod.snd

def ofNat (n : Nat) : Json :=
  .number (.whole n)

/-- A value that may be absent, as `null` if it is. -/
def ofOption {α : Type} (f : α → Json) : Option α → Json
  | some a => f a
  | none => null

/-- A list of strings. -/
def strings (ss : List String) : Json :=
  .array (ss.map .string)

/-- A member that is left out if it has no value. -/
def member? (key : String) (value : Option Json) : List (String × Json) :=
  (value.map fun v => (key, v)).toList

/-! ### Printing -/

def hexDigit (n : Nat) : Char :=
  if n < 10 then Char.ofNat (48 + n) else Char.ofNat (87 + n)

/-- A character of a string as it is printed. -/
def escape (c : Char) : List Char :=
  match c with
  | '"' => ['\\', '"']
  | '\\' => ['\\', '\\']
  | '\n' => ['\\', 'n']
  | '\r' => ['\\', 'r']
  | '\t' => ['\\', 't']
  | '\x08' => ['\\', 'b']
  | '\x0c' => ['\\', 'f']
  | c =>
    if c < ' ' then ['\\', 'u', '0', '0', hexDigit (c.toNat / 16), hexDigit (c.toNat % 16)] else [c]

/-- A string in quotes. -/
def quote (s : String) : String :=
  "\"" ++ String.ofList (s.toList.flatMap escape) ++ "\""

/-- A number as it is printed. -/
def numberText : JsonNumber → String
  | .whole n => toString n
  | .real x => x.scientific

mutual

/-- The value on one line, without blanks. -/
def compact : Json → String
  | null => "null"
  | bool b => if b then "true" else "false"
  | number n => numberText n
  | string s => quote s
  | array items => "[" ++ compactItems true items ++ "]"
  | object members => "\x7b" ++ compactMembers true members ++ "\x7d"

/-- The items of an array; all but the first follow a comma. -/
def compactItems (first : Bool) : List Json → String
  | [] => ""
  | v :: vs => (if first then "" else ",") ++ compact v ++ compactItems false vs

/-- The members of an object; all but the first follow a comma. -/
def compactMembers (first : Bool) : List (String × Json) → String
  | [] => ""
  | (k, v) :: ms =>
    (if first then "" else ",") ++ quote k ++ ":" ++ compact v ++ compactMembers false ms

end

/-- A new line with the blanks that start it. -/
def newLine (indent : Nat) : String :=
  "\n" ++ String.ofList (List.replicate (2 * indent) ' ')

mutual

/-- The value with each item and member on a line of its own. What is empty stays on one line. -/
def prettyAt (indent : Nat) : Json → String
  | array [] => "[]"
  | array (v :: vs) =>
    "[" ++ prettyItems (indent + 1) true (v :: vs) ++ newLine indent ++ "]"
  | object [] => "\x7b\x7d"
  | object (m :: ms) =>
    "\x7b" ++ prettyMembers (indent + 1) true (m :: ms) ++ newLine indent ++ "\x7d"
  | null => "null"
  | bool b => if b then "true" else "false"
  | number n => numberText n
  | string s => quote s

def prettyItems (indent : Nat) (first : Bool) : List Json → String
  | [] => ""
  | v :: vs =>
    (if first then "" else ",") ++ newLine indent ++ prettyAt indent v
      ++ prettyItems indent false vs

def prettyMembers (indent : Nat) (first : Bool) : List (String × Json) → String
  | [] => ""
  | (k, v) :: ms =>
    (if first then "" else ",") ++ newLine indent ++ quote k ++ ": " ++ prettyAt indent v
      ++ prettyMembers indent false ms

end

/-- The value with each item and member on a line of its own. -/
def pretty (v : Json) : String :=
  prettyAt 0 v

end Json

end Restyle
