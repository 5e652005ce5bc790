/-!
TOML values and the way strings and arrays are written.
-/

namespace Restyle

/-- A TOML value. What nobody asks for is kept as it was written. -/
inductive Toml where
  | string (s : String)
  | integer (n : Int)
  | float (text : String)
  | boolean (b : Bool)
  | datetime (text : String)
  | array (items : List Toml)
  | table (entries : List (String × Toml))
  deriving Repr, Inhabited

namespace Toml

/-- The value of a key. -/
def get? (key : String) (entries : List (String × Toml)) : Option Toml :=
  (entries.find? fun e => e.1 = key).map Prod.snd

/-! ### Strings -/

/-- The longest run of a character. -/
def longestRun (c : Char) (cs : List Char) : Nat :=
  (cs.foldl (fun (best, now) d => if d = c then (max best (now + 1), now + 1) else (best, 0))
    ((0, 0) : Nat × Nat)).1

/-- Whether a character has to be escaped in every kind of quotes; a tab and a line break need not
be. -/
def isControl (c : Char) : Bool :=
  (c < ' ' && c ≠ '\t' && c ≠ '\n') || c = '\x7f'

/-- Four hexadecimal digits. -/
def hex4 (n : Nat) : List Char :=
  let digit (n : Nat) : Char := if n < 10 then Char.ofNat (48 + n) else Char.ofNat (55 + n)
  [digit (n / 4096 % 16), digit (n / 256 % 16), digit (n / 16 % 16), digit (n % 16)]

/-- The characters of a string in double quotes. Up to `most` quotes may stand in a row before one
is escaped; `run` of them stand before these characters. -/
def escaped (multiline : Bool) (most : Nat) : Nat → List Char → List Char
  | _, [] => []
  | run, c :: cs =>
    let plain := c :: escaped multiline most 0 cs
    let instead (s : List Char) := s ++ escaped multiline most 0 cs
    match c with
    | '"' =>
      if most ≤ run then instead ['\\', '"'] else '"' :: escaped multiline most (run + 1) cs
    | '\x08' => instead ['\\', 'b']
    | '\t' => instead ['\\', 't']
    | '\n' => if multiline then plain else instead ['\\', 'n']
    | '\x0c' => instead ['\\', 'f']
    | '\r' => instead ['\\', 'r']
    | '\\' => instead ['\\', '\\']
    | c => if isControl c then instead ('\\' :: 'u' :: hex4 c.toNat) else plain

/-- A string in the first kind of quotes that shows it without escapes: double, single, three double
or three single ones. A string that always needs escapes has double quotes, three if it has a line
break. -/
def quote (s : String) : String :=
  let cs := s.toList
  let control := cs.any isControl
  let backslash := cs.contains '\\'
  let lines := cs.contains '\n'
  let doubles := longestRun '"' cs
  let singles := longestRun '\'' cs
  let opening := if lines then "\n" else ""
  let multi := "\"\"\"" ++ opening ++ String.ofList (escaped true 2 0 cs) ++ "\"\"\""
  let single := "\"" ++ String.ofList (escaped false 0 0 cs) ++ "\""
  if !control && !backslash && doubles = 0 && !lines then single
  else if !control && singles = 0 && !lines then "'" ++ s ++ "'"
  else if !control && !backslash && doubles ≤ 2 then multi
  else if !control && singles ≤ 2 then "'''" ++ opening ++ s ++ "'''"
  else if lines then multi
  else single

/-- A list of strings. Two or more stand on lines of their own. -/
def quoteList (ss : List String) : String :=
  match ss with
  | [] => "[]"
  | [s] => "[" ++ quote s ++ "]"
  | ss => "[\n" ++ String.join (ss.map fun s => "    " ++ quote s ++ ",\n") ++ "]"

end Toml

end Restyle
