import Restyle.Number.Read
import Restyle.Text.Blank
import Restyle.Toml.Value

/-!
Reading TOML documents. A document is a row of lines: keys with values, and headers that say which
table the following lines belong to. `assemble` puts the lines together and refuses documents that
define anything twice.
-/

namespace Restyle.Toml

/-- What is read at the front of a text, with what follows. -/
abbrev Scanned (α : Type) := Option (α × List Char)

/-! ### Layout -/

def isSpace (c : Char) : Bool :=
  c = ' ' || c = '\t'

def skipSpaces (text : List Char) : List Char :=
  text.dropWhile isSpace

/-- A character that a comment or a string in single quotes may hold. -/
def isPlain (c : Char) : Bool :=
  c = '\t' || (' ' ≤ c && c ≠ '\x7f')

/-- The end of a line, with the comment before it. -/
def lineEnd (text : List Char) : Option (List Char) :=
  let text := skipSpaces text
  let text :=
    match text with
    | '#' :: rest => rest.dropWhile isPlain
    | _ => text
  match text with
  | [] => some []
  | '\n' :: rest => some rest
  | '\r' :: '\n' :: rest => some rest
  | _ => none

/-- Skips spaces, line breaks and comments inside an array. The fuel is the length of the text. -/
def skipLayout : Nat → List Char → List Char
  | 0, text => text
  | fuel + 1, text =>
    match text with
    | '\n' :: rest => skipLayout fuel rest
    | '\r' :: '\n' :: rest => skipLayout fuel rest
    | '#' :: rest =>
      match rest.dropWhile isPlain with
      | '\n' :: rest => skipLayout fuel rest
      | '\r' :: '\n' :: rest => skipLayout fuel rest
      | _ => text
    | c :: rest => if isSpace c then skipLayout fuel rest else text
    | [] => []

/-! ### Strings -/

def isDigit (c : Char) : Bool :=
  '0' ≤ c && c ≤ '9'

def hexValue? (c : Char) : Option Nat :=
  if isDigit c then some (c.toNat - 48)
  else if 'a' ≤ c && c ≤ 'f' then some (c.toNat - 87)
  else if 'A' ≤ c && c ≤ 'F' then some (c.toNat - 55)
  else none

/-- The character with a number that is written in so many hexadecimal digits. -/
def unicode (count : Nat) (text : List Char) : Scanned Char :=
  let digits := text.take count
  if digits.length < count then none
  else
    (digits.foldlM (fun n c => (hexValue? c).map (n * 16 + ·)) 0).bind fun n =>
      if n < 0xD800 || (0xDFFF < n && n < 0x110000) then some (Char.ofNat n, text.drop count)
      else none

/-- The character of an escape behind the backslash. -/
def escapeAt : List Char → Scanned Char
  | 'b' :: rest => some ('\x08', rest)
  | 't' :: rest => some ('\t', rest)
  | 'n' :: rest => some ('\n', rest)
  | 'f' :: rest => some ('\x0c', rest)
  | 'r' :: rest => some ('\r', rest)
  | '"' :: rest => some ('"', rest)
  | '\\' :: rest => some ('\\', rest)
  | 'u' :: rest => unicode 4 rest
  | 'U' :: rest => unicode 8 rest
  | _ => none

/-- A string in double quotes behind the first of them. The fuel is the length of the text. -/
def basicTail : Nat → List Char → Scanned (List Char)
  | 0, _ => none
  | fuel + 1, text =>
    match text with
    | '"' :: rest => some ([], rest)
    | '\\' :: rest =>
      (escapeAt rest).bind fun (c, rest) =>
        (basicTail fuel rest).map fun (cs, rest) => (c :: cs, rest)
    | c :: rest =>
      if isPlain c then (basicTail fuel rest).map fun (cs, rest) => (c :: cs, rest) else none
    | [] => none

/-- A string in single quotes behind the first of them. -/
def literalTail (text : List Char) : Scanned (List Char) :=
  let cs := text.takeWhile fun c => isPlain c && c ≠ '\''
  match text.drop cs.length with
  | '\'' :: rest => some (cs, rest)
  | _ => none

/-- The closing of a string in three quotes, with up to two quotes before it that belong to the
string. -/
def closing (quote : Char) (text : List Char) : Scanned (List Char) :=
  let n := (text.takeWhile (· = quote)).length
  if n < 3 then none else some (List.replicate (min n 5 - 3) quote, text.drop (min n 5))

/-- A string in three quotes behind the first three. The fuel is the length of the text. -/
def multilineTail (quote : Char) : Nat → List Char → Scanned (List Char)
  | 0, _ => none
  | fuel + 1, text =>
    let keep (c : Char) (rest : List Char) : Scanned (List Char) :=
      (multilineTail quote fuel rest).map fun (cs, rest) => (c :: cs, rest)
    match closing quote text with
    | some r => some r
    | none =>
      match text with
      | '\n' :: rest => keep '\n' rest
      | '\r' :: '\n' :: rest => keep '\n' rest
      | c :: rest =>
        if c = '\\' && quote = '"' then
          let more := skipSpaces rest
          match more with
          | '\n' :: _ | '\r' :: '\n' :: _ =>
            multilineTail quote fuel (skipBreaks more)
          | _ => (escapeAt rest).bind fun (c, rest) => keep c rest
        else if isPlain c then keep c rest
        else none
      | [] => none
where
  /-- Skips spaces and line breaks. -/
  skipBreaks : List Char → List Char
    | '\n' :: rest => skipBreaks rest
    | '\r' :: '\n' :: rest => skipBreaks rest
    | c :: rest => if isSpace c then skipBreaks rest else c :: rest
    | [] => []

/-- What follows the line break right behind three opening quotes. -/
def afterBreak : List Char → List Char
  | '\n' :: rest => rest
  | '\r' :: '\n' :: rest => rest
  | text => text

/-- A string in any quotes. -/
def stringAt (text : List Char) : Scanned String :=
  let toText : List Char × List Char → String × List Char := fun (cs, rest) =>
    (String.ofList cs, rest)
  match text with
  | '"' :: '"' :: '"' :: rest => (multilineTail '"' (rest.length + 1) (afterBreak rest)).map toText
  | '"' :: rest => (basicTail (rest.length + 1) rest).map toText
  | '\'' :: '\'' :: '\'' :: rest =>
    (multilineTail '\'' (rest.length + 1) (afterBreak rest)).map toText
  | '\'' :: rest => (literalTail rest).map toText
  | _ => none

/-! ### Keys -/

/-- A character of a key without quotes. -/
def isBare (c : Char) : Bool :=
  isDigit c || ('a' ≤ c && c ≤ 'z') || ('A' ≤ c && c ≤ 'Z') || c = '-' || c = '_'

/-- One part of a key. -/
def simpleKey (text : List Char) : Scanned String :=
  match text with
  | '"' :: rest =>
    (basicTail (rest.length + 1) rest).map fun (cs, rest) => (String.ofList cs, rest)
  | '\'' :: rest => (literalTail rest).map fun (cs, rest) => (String.ofList cs, rest)
  | _ =>
    let cs := text.takeWhile isBare
    if cs.isEmpty then none else some (String.ofList cs, text.drop cs.length)

/-- The parts of a key, with dots between them. The fuel is more than the length of the text. -/
def keyParts : Nat → List Char → Scanned (List String)
  | 0, _ => none
  | fuel + 1, text =>
    (simpleKey (skipSpaces text)).bind fun (part, rest) =>
      let rest := skipSpaces rest
      match rest with
      | '.' :: more => (keyParts fuel more).map fun (parts, rest) => (part :: parts, rest)
      | _ => some ([part], rest)

/-- Keys have fewer parts than this, and values are nested less deep. -/
def maxDepth : Nat := 80

/-- A key. -/
def keyAt (text : List Char) : Scanned (List String) :=
  (keyParts (text.length + 1) text).filter fun (path, _) => path.length < maxDepth

/-! ### Numbers and dates -/

/-- The digits of a number without the single underscores between them. -/
def plainDigits (isDigit : Char → Bool) : List Char → Option (List Char)
  | [] => none
  | [c] => if isDigit c then some [c] else none
  | c :: '_' :: rest => if isDigit c then (plainDigits isDigit rest).map (c :: ·) else none
  | c :: rest => if isDigit c then (plainDigits isDigit rest).map (c :: ·) else none

/-- The sign of a number and what follows it. -/
def signOf : List Char → Bool × List Char
  | '-' :: rest => (true, rest)
  | '+' :: rest => (false, rest)
  | text => (false, text)

/-- The largest whole number. -/
def maxInteger : Nat := Nat.pow 2 63 - 1

def inBase (base : Nat) (isDigit : Char → Bool) (text : List Char) : Option Toml :=
  (plainDigits isDigit text).bind fun cs =>
    let n := cs.foldl (fun n c => n * base + ((hexValue? c).getD 0)) 0
    if n ≤ maxInteger then some (.integer n) else none

/-- A decimal whole number without zeros in front. -/
def decimalDigits (text : List Char) : Option (List Char) :=
  (plainDigits isDigit text).bind fun cs =>
    match cs with
    | '0' :: _ :: _ => none
    | cs => some cs

def integer? (text : List Char) : Option Toml :=
  match text with
  | '0' :: 'x' :: rest => inBase 16 (fun c => (hexValue? c).isSome) rest
  | '0' :: 'o' :: rest => inBase 8 (fun c => '0' ≤ c && c ≤ '7') rest
  | '0' :: 'b' :: rest => inBase 2 (fun c => c = '0' || c = '1') rest
  | _ =>
    let (negative, digits) := signOf text
    (decimalDigits digits).bind fun cs =>
      let n := Binary64.digitsValue cs
      if negative then if n ≤ maxInteger + 1 then some (.integer (-n)) else none
      else if n ≤ maxInteger then some (.integer n)
      else none

def float? (text : List Char) : Option Toml :=
  let (negative, body) := signOf text
  if body = "inf".toList || body = "nan".toList then some (.float (String.ofList text))
  else
    let isExponent (c : Char) : Bool := c = 'e' || c = 'E'
    let mantissa := body.takeWhile fun c => !isExponent c
    let power := body.drop mantissa.length
    let whole := mantissa.takeWhile (· ≠ '.')
    let fraction := mantissa.drop whole.length
    let fractionDigits? : Option (List Char) :=
      match fraction with
      | [] => some []
      | _ :: digits => plainDigits isDigit digits
    let power? : Option (List Char) :=
      match power with
      | [] => some []
      | _ :: rest =>
        let (negative, digits) := signOf rest
        (plainDigits isDigit digits).map fun cs => if negative then '-' :: cs else cs
    match decimalDigits whole, fractionDigits?, power? with
    | some w, some f, some p =>
      if fraction.isEmpty && power.isEmpty then none
      else
        let value :=
          Binary64.ofDigits negative w f (if p.isEmpty then 0 else (Binary64.exponent? p).getD 0)
        if value = .infinity false then none else some (.float (String.ofList text))
    | _, _, _ => none

/-- The number that exactly `count` digits spell. -/
def fixed (count : Nat) (text : List Char) : Scanned Nat :=
  let cs := text.take count
  if cs.length = count && cs.all isDigit then some (Binary64.digitsValue cs, text.drop count)
  else none

def daysIn (year month : Nat) : Nat :=
  if month = 2 then
    if (year % 4 = 0 && year % 100 ≠ 0) || year % 400 = 0 then 29 else 28
  else if month ∈ [4, 6, 9, 11] then 30
  else 31

/-- What follows a date. -/
def afterDate (text : List Char) : Option (List Char) :=
  match fixed 4 text with
  | some (year, '-' :: rest) =>
    match fixed 2 rest with
    | some (month, '-' :: rest) =>
      match fixed 2 rest with
      | some (day, rest) =>
        if 1 ≤ month && month ≤ 12 && 1 ≤ day && day ≤ daysIn year month then some rest else none
      | none => none
    | _ => none
  | _ => none

/-- What follows a time of day. -/
def afterTime (text : List Char) : Option (List Char) :=
  match fixed 2 text with
  | some (hour, ':' :: rest) =>
    match fixed 2 rest with
    | some (minute, ':' :: rest) =>
      match fixed 2 rest with
      | some (second, rest) =>
        if hour ≤ 23 && minute ≤ 59 && second ≤ 60 then
          match rest with
          | '.' :: more =>
            let digits := more.takeWhile isDigit
            if digits.isEmpty then none else some (more.drop digits.length)
          | rest => some rest
        else none
      | none => none
    | _ => none
  | _ => none

/-- What follows the offset behind a time; an offset may be missing. -/
def afterOffset (text : List Char) : Option (List Char) :=
  match text with
  | 'Z' :: rest | 'z' :: rest => some rest
  | '+' :: rest | '-' :: rest =>
    match fixed 2 rest with
    | some (hour, ':' :: rest) =>
      match fixed 2 rest with
      | some (minute, rest) => if hour ≤ 23 && minute ≤ 59 then some rest else none
      | none => none
    | _ => none
  | text => some text

/-- A date, a time or both, with what follows. -/
def datetimeAt (text : List Char) : Scanned Toml :=
  let upTo (rest : List Char) : Toml × List Char :=
    (.datetime (String.ofList (text.take (text.length - rest.length))), rest)
  match afterDate text with
  | some (c :: rest) =>
    if c = 'T' || c = 't' || c = ' ' then
      match afterTime rest with
      | some rest => (afterOffset rest).map upTo
      | none => if c = ' ' then some (upTo (c :: rest)) else none
    else some (upTo (c :: rest))
  | some [] => some (upTo [])
  | none => (afterTime text).map upTo

/-- A value that is neither a string nor put together from others. -/
def scalarAt (text : List Char) : Scanned Toml :=
  match datetimeAt text with
  | some r => some r
  | none =>
    let body := text.takeWhile fun c => isBare c || c = '+' || c = '.'
    let rest := text.drop body.length
    let value? : Option Toml :=
      if body = "true".toList then some (.boolean true)
      else if body = "false".toList then some (.boolean false)
      else (integer? body).orElse fun _ => float? body
    value?.map fun v => (v, rest)

/-! ### Tables under construction -/

/-- Something under a key. A table knows whether it was only opened on the way to another one, and
whether that was in a dotted key. -/
inductive Item where
  | value (v : Toml)
  | table (implicit dotted : Bool) (entries : List (String × Item))
  /-- Tables that a header adds to, the last one first. -/
  | tables (rows : List (List (String × Item)))
  deriving Inhabited

/-- Entries of a table under construction. -/
abbrev Entries := List (String × Item)

def lookup (key : String) (entries : Entries) : Option Item :=
  (entries.find? fun e => e.1 = key).map Prod.snd

def store (key : String) (item : Item) : Entries → Entries
  | [] => [(key, item)]
  | (k, i) :: rest => if k = key then (k, item) :: rest else (k, i) :: store key item rest

/-- Changes the table at the end of a path, and opens those on the way that are missing. `change` is
told whether the table was opened in a dotted key. -/
def descend (dotted : Bool) (change : Bool → Entries → Option Entries) :
    List String → Bool → Entries → Option Entries
  | [], here, entries => change here entries
  | key :: path, _, entries =>
    match lookup key entries with
    | none =>
      (descend dotted change path dotted []).map fun new =>
        store key (.table true dotted new) entries
    | some (.value _) => none
    | some (.table implicit wasDotted inner) =>
      if dotted && !implicit then none
      else
        (descend dotted change path wasDotted inner).map fun new =>
          store key (.table implicit wasDotted new) entries
    | some (.tables (row :: rows)) =>
      (descend dotted change path false row).map fun new =>
        store key (.tables (new :: rows)) entries
    | some (.tables []) => none

/-- Puts a value under a key in the table itself, unless the key is taken or the table was opened in
another way. -/
def putValue (path : List String) (v : Toml) (entries : Entries) : Option Entries :=
  match path.reverse with
  | [] => none
  | last :: front =>
    let front := front.reverse
    descend (!front.isEmpty)
      (fun dotted inner =>
        if dotted = front.isEmpty then none
        else if (lookup last inner).isSome then none
        else some (inner ++ [(last, .value v)]))
      front false entries

/-- Opens the table of a header. -/
def openTable (path : List String) (entries : Entries) : Option Entries :=
  match path.reverse with
  | [] => none
  | last :: front =>
    descend false
      (fun _ inner =>
        match lookup last inner with
        | none => some (inner ++ [(last, .table false false [])])
        | some (.table true false old) => some (store last (.table false false old) inner)
        | some _ => none)
      front.reverse false entries

/-- Opens one more table in a row of tables. -/
def openRow (path : List String) (entries : Entries) : Option Entries :=
  match path.reverse with
  | [] => none
  | last :: front =>
    descend false
      (fun _ inner =>
        match lookup last inner with
        | none => some (inner ++ [(last, .tables [[]])])
        | some (.tables rows) => some (store last (.tables ([] :: rows)) inner)
        | some _ => none)
      front.reverse false entries

mutual

/-- What an item is as a value. -/
def Item.finish : Item → Toml
  | .value v => v
  | .table _ _ entries => .table (finishEntries entries)
  | .tables rows => .array (finishRows rows).reverse

def finishEntries : Entries → List (String × Toml)
  | [] => []
  | (k, i) :: rest => (k, i.finish) :: finishEntries rest

def finishRows : List Entries → List Toml
  | [] => []
  | row :: rows => .table (finishEntries row) :: finishRows rows

end

/-! ### Values -/

mutual

/-- A value that lies `depth` values deep. The fuel is more than the length of the text. -/
def valueAt (depth : Nat) : Nat → List Char → Scanned Toml
  | 0, _ => none
  | fuel + 1, text =>
    match text with
    | '"' :: _ | '\'' :: _ => (stringAt text).map fun (s, rest) => (.string s, rest)
    | '[' :: rest => (itemsAt (depth + 1) fuel rest).map fun (vs, rest) => (.array vs, rest)
    | '\x7b' :: rest =>
      match skipSpaces rest with
      | '\x7d' :: rest => if depth + 1 < maxDepth then some (.table [], rest) else none
      | rest =>
        (pairsAt (depth + 1) fuel [] rest).map fun (es, rest) => (.table (finishEntries es), rest)
    | text => scalarAt text

/-- The items of an array behind its bracket or a comma. -/
def itemsAt (depth : Nat) : Nat → List Char → Scanned (List Toml)
  | 0, _ => none
  | fuel + 1, text =>
    if maxDepth ≤ depth then none
    else
      match skipLayout text.length text with
      | ']' :: rest => some ([], rest)
      | text =>
        (valueAt depth fuel text).bind fun (v, rest) =>
          match skipLayout rest.length rest with
          | ',' :: rest => (itemsAt depth fuel rest).map fun (vs, rest) => (v :: vs, rest)
          | ']' :: rest => some ([v], rest)
          | _ => none

/-- The pairs of a table in braces, added to those that are there. -/
def pairsAt (depth : Nat) : Nat → Entries → List Char → Scanned Entries
  | 0, _, _ => none
  | fuel + 1, entries, text =>
    if maxDepth ≤ depth then none
    else
      (keyAt text).bind fun (path, rest) =>
        match rest with
        | '=' :: rest =>
          (valueAt depth fuel (skipSpaces rest)).bind fun (v, rest) =>
            (putValue path v entries).bind fun entries =>
              match skipSpaces rest with
              | ',' :: rest => pairsAt depth fuel entries rest
              | '\x7d' :: rest => some (entries, rest)
              | _ => none
        | _ => none

end

/-! ### Documents -/

/-- A line of a document. -/
inductive Line where
  | pair (path : List String) (v : Toml)
  | header (path : List String)
  | row (path : List String)

/-- The lines of a document. The fuel is more than the length of the text. -/
def linesAt : Nat → List Char → Option (List Line)
  | 0, _ => none
  | _, [] => some []
  | fuel + 1, text =>
    let finish (line : Line) (rest : List Char) : Option (List Line) :=
      (lineEnd rest).bind fun rest => (linesAt fuel rest).map (line :: ·)
    match skipSpaces text with
    | '[' :: '[' :: rest =>
      (keyAt rest).bind fun (path, rest) =>
        match rest with
        | ']' :: ']' :: rest => finish (.row path) rest
        | _ => none
    | '[' :: rest =>
      (keyAt rest).bind fun (path, rest) =>
        match rest with
        | ']' :: rest => finish (.header path) rest
        | _ => none
    | text =>
      match lineEnd text with
      | some rest => linesAt fuel rest
      | none =>
        (keyAt text).bind fun (path, rest) =>
          match rest with
          | '=' :: rest =>
            (valueAt 0 (2 * rest.length + 2) (skipSpaces rest)).bind fun (v, rest) =>
              finish (.pair path v) rest
          | _ => none

/-- Puts lines together. `current` is the path of the last header. -/
def assemble : List Line → List String → Entries → Option Entries
  | [], _, entries => some entries
  | .pair path v :: lines, current, entries =>
    (descend false (fun _ inner => putValue path v inner) current false entries).bind
      (assemble lines current)
  | .header path :: lines, _, entries => (openTable path entries).bind (assemble lines path)
  | .row path :: lines, _, entries => (openRow path entries).bind (assemble lines path)

/-- The table that a document says, if it is a document. -/
def ofText? (text : String) : Option (List (String × Toml)) :=
  let cs :=
    match text.toList with
    | '\ufeff' :: rest => rest
    | cs => cs
  ((linesAt (cs.length + 1) cs).bind fun lines => assemble lines [] []).map finishEntries

end Restyle.Toml
