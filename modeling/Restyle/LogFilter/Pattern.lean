import Restyle.Text.Blank
import Restyle.Text.Letter

/-!
Patterns: which texts are regular expressions that the value of a field can be matched against.
`Pattern.isSound` decides it. A pattern is read from left to right with a stack of the groups that
are open (`State`); of what has been read only that is kept which later characters depend on.

Refused is, apart from broken notation, what cannot be matched byte by byte without looking around:
references, assertions about what stands next, boundaries between words of any script, and bytes
that are no characters. Counted repetitions do not occur, since a brace ends the field.
-/

namespace Restyle.Pattern

/-- What the flags say that bear on the notation. -/
structure Mode where
  /-- Classes hold characters of all scripts and not just bytes. -/
  unicode : Bool := true
  /-- Blanks and comments are passed over. -/
  spaced : Bool := false
  deriving DecidableEq, Repr

/-- How deep a pattern may be nested. -/
def maxDepth : Nat := 250

/-! ### Blanks -/

/-- Passes over comments and blanks. The fuel is the length of the text. -/
def skipSpaced : Nat → List Char → List Char
  | 0, text => text
  | _, [] => []
  | fuel + 1, c :: rest =>
    if Text.isBlank c then skipSpaced fuel rest
    else if c = '#' then skipSpaced fuel ((rest.dropWhile (· ≠ '\n')).drop 1)
    else c :: rest

/-- Passes over blanks and comments where they do not count. -/
def Mode.skip (mode : Mode) (text : List Char) : List Char :=
  if mode.spaced then skipSpaced text.length text else text

/-! ### Escapes -/

/-- A character that stands for something else than itself, unless it is escaped. -/
def isMeta (c : Char) : Bool :=
  c ∈ ['\\', '.', '+', '*', '?', '(', ')', '|', '[', ']', '\x7b', '\x7d', '^', '$', '#', '&', '-',
    '~']

/-- What an escape stands for. -/
inductive Escape where
  /-- A character; `isByte` if it is given as a byte. -/
  | literal (c : Char) (isByte : Bool)
  /-- Digits, blanks or letters, or everything else. -/
  | class (negated : Bool)
  /-- Characters with a property. -/
  | property
  /-- A boundary of a word. -/
  | boundary
  /-- An end of the text. -/
  | textEnd
  deriving DecidableEq, Repr

def hexValue? (c : Char) : Option Nat :=
  if '0' ≤ c && c ≤ '9' then some (c.toNat - 48)
  else if 'a' ≤ c && c ≤ 'f' then some (c.toNat - 87)
  else if 'A' ≤ c && c ≤ 'F' then some (c.toNat - 55)
  else none

/-- The number that so many hexadecimal digits spell, and what follows them. -/
def hexDigits (mode : Mode) : Nat → Nat → List Char → Option (Nat × List Char)
  | 0, n, text => some (n, text)
  | count + 1, n, text =>
    match mode.skip text with
    | [] => none
    | c :: rest => (hexValue? c).bind fun d => hexDigits mode count (n * 16 + d) rest

/-- A character by its number. -/
def hexEscape (mode : Mode) (count : Nat) (isByte : Bool) (text : List Char) :
    Option (Escape × List Char) :=
  (hexDigits mode count 0 text).bind fun (n, rest) =>
    if n < 0xD800 || (0xDFFF < n && n < 0x110000) then
      some (.literal (Char.ofNat n) isByte, mode.skip rest)
    else none

/-- An escape behind its backslash. -/
def escapeAt (mode : Mode) (text : List Char) : Option (Escape × List Char) :=
  match text with
  | [] => none
  | 'x' :: rest => hexEscape mode 2 true rest
  | 'u' :: rest => hexEscape mode 4 false rest
  | 'U' :: rest => hexEscape mode 8 false rest
  | 'p' :: rest | 'P' :: rest =>
    match mode.skip rest with
    | c :: rest =>
      if c.toLower ∈ ['c', 'l', 'm', 'n', 'p', 's', 'z'] then some (.property, mode.skip rest)
      else none
    | [] => none
  | c :: rest =>
    if c ∈ ['d', 's', 'w'] then some (.class false, rest)
    else if c ∈ ['D', 'S', 'W'] then some (.class true, rest)
    else if c ∈ ['b', 'B', '<', '>'] then some (.boundary, rest)
    else if c ∈ ['A', 'z'] then some (.textEnd, rest)
    else if c ∈ ['a', 'f', 't', 'n', 'r', 'v'] then some (.literal c false, rest)
    else if isMeta c || (c.toNat < 128 && !c.isAlphanum) then some (.literal c false, rest)
    else none

/-- Whether a character may be matched as it is written. -/
def isCharacter (mode : Mode) (c : Char) (isByte : Bool) : Bool :=
  mode.unicode || !isByte || c.toNat < 128

/-! ### Classes -/

/-- What is known of a class: how deep it is nested, and whether bytes beyond ASCII are in it. -/
structure ClassInfo where
  depth : Nat := 0
  high : Bool := false
  deriving DecidableEq, Repr

/-- How two classes are joined. -/
inductive ClassOp where
  | both
  | without
  | oneOf
  deriving DecidableEq, Repr

/-- A class that is open. -/
structure OpenClass where
  negated : Bool
  /-- What stands before the last operator. -/
  left : Option (ClassInfo × ClassOp) := none
  /-- How many items there are behind it. -/
  count : Nat := 0
  items : ClassInfo := {}
  deriving Repr

namespace OpenClass

def add (c : OpenClass) (item : ClassInfo) : OpenClass :=
  { c with
    count := c.count + 1
    items := ⟨max c.items.depth item.depth, c.items.high || item.high⟩ }

/-- The class as far as it has been read, before it is negated. -/
def info (c : OpenClass) : ClassInfo :=
  let items := if c.count < 2 then c.items else { c.items with depth := c.items.depth + 1 }
  match c.left with
  | none => items
  | some (left, op) =>
    { depth := max left.depth items.depth + 1
      high :=
        match op with
        | .both => left.high && items.high
        | .without => left.high && !items.high
        | .oneOf => left.high != items.high }

def join (c : OpenClass) (op : ClassOp) : OpenClass :=
  { negated := c.negated, left := some (c.info, op) }

/-- What the class is when it is closed. -/
def close (c : OpenClass) : ClassInfo :=
  let info := c.info
  ⟨info.depth + 1, info.high != c.negated⟩

end OpenClass

/-- Opens a class behind its bracket. Dashes that come first, and a closing bracket that does, are
members. -/
def openClass (mode : Mode) (text : List Char) : Option (OpenClass × List Char) :=
  let text := mode.skip text
  let (negated, text) :=
    match text with
    | '^' :: rest => (true, mode.skip rest)
    | _ => (false, text)
  let (dashes, text) := skipDashes text.length text
  let c : OpenClass := { negated := negated, count := dashes }
  match text with
  | [] => none
  | ']' :: rest => if dashes = 0 then some (c.add {}, mode.skip rest) else some (c, text)
  | text => some (c, text)
where
  /-- Passes over dashes and counts them. The fuel is the length of the text. -/
  skipDashes : Nat → List Char → Nat × List Char
    | 0, text => (0, text)
    | fuel + 1, text =>
      match text with
      | '-' :: rest =>
        let (n, rest) := skipDashes fuel (mode.skip rest)
        (n + 1, rest)
      | _ => (0, text)

/-- The names of classes of ASCII characters. -/
def asciiClasses : List String :=
  ["alnum", "alpha", "ascii", "blank", "cntrl", "digit", "graph", "lower", "print", "punct",
    "space", "upper", "word", "xdigit"]

/-- A class of ASCII characters by its name, behind the bracket. -/
def asciiClass? (text : List Char) : Option (ClassInfo × List Char) :=
  match text with
  | ':' :: rest =>
    let (negated, rest) : Bool × List Char :=
      match rest with
      | '^' :: rest => (true, rest)
      | _ => (false, rest)
    let name := rest.takeWhile (· ≠ ':')
    match rest.drop name.length with
    | ':' :: ']' :: rest =>
      if asciiClasses.contains (String.ofList name) then some (⟨0, negated⟩, rest) else none
    | _ => none
  | _ => none

/-- A member of a class. -/
def classMember (mode : Mode) (text : List Char) : Option (Escape × List Char) :=
  match text with
  | [] => none
  | '\\' :: rest => escapeAt mode rest
  | c :: rest => some (.literal c false, rest)

/-- What a member adds to a class. -/
def memberInfo? (mode : Mode) : Escape → Option ClassInfo
  | .literal c _ => if mode.unicode || c.toNat < 128 then some {} else none
  | .class negated => some ⟨0, negated⟩
  | .property => if mode.unicode then some {} else none
  | .boundary | .textEnd => none

/-- A member or a range of members. -/
def classRange (mode : Mode) (text : List Char) : Option (ClassInfo × List Char) :=
  (classMember mode text).bind fun (first, rest) =>
    match mode.skip rest with
    | [] => none
    | '-' :: more =>
      match mode.skip more with
      | [] => none
      | ']' :: _ | '-' :: _ => (memberInfo? mode first).map fun i => (i, '-' :: more)
      | more =>
        (classMember mode more).bind fun (last, rest) =>
          match first, last with
          | .literal a _, .literal b _ =>
            if a ≤ b then
              (memberInfo? mode first).bind fun _ => (memberInfo? mode last).map fun i => (i, rest)
            else none
          | _, _ => none
    | rest => (memberInfo? mode first).map fun i => (i, rest)

/-- A class behind its opening bracket, given the classes that are open around it. The fuel is the
length of the text. -/
def classTail (mode : Mode) :
    Nat → OpenClass → List OpenClass → List Char → Option (ClassInfo × List Char)
  | 0, _, _, _ => none
  | fuel + 1, c, around, text =>
    match mode.skip text with
    | [] => none
    | ']' :: rest =>
      match around with
      | [] => some (c.close, rest)
      | outer :: around => classTail mode fuel (outer.add c.close) around rest
    | '[' :: rest =>
      match asciiClass? rest with
      | some (i, rest) => classTail mode fuel (c.add i) around rest
      | none =>
        (openClass mode rest).bind fun (inner, rest) => classTail mode fuel inner (c :: around) rest
    | '&' :: '&' :: rest => classTail mode fuel (c.join .both) around rest
    | '-' :: '-' :: rest => classTail mode fuel (c.join .without) around rest
    | '~' :: '~' :: rest => classTail mode fuel (c.join .oneOf) around rest
    | text => (classRange mode text).bind fun (i, rest) => classTail mode fuel (c.add i) around rest

/-- A class behind its bracket. Without characters of all scripts it must not hold other bytes. -/
def classAt (mode : Mode) (text : List Char) : Option (Nat × List Char) :=
  (openClass mode text).bind fun (c, rest) =>
    (classTail mode (rest.length + 1) c [] rest).bind fun (i, rest) =>
      if !mode.unicode && i.high then none else some (i.depth, rest)

/-! ### Groups -/

/-- What stands last in a row. -/
inductive Last where
  | nothing
  | flags
  /-- Something that can be repeated, nested so deep. -/
  | item (depth : Nat)
  deriving DecidableEq, Repr

/-- A group that is open, or the whole pattern. -/
structure Scope where
  mode : Mode
  /-- How many items the current branch has, how deep they are nested, and the last one. -/
  count : Nat := 0
  depth : Nat := 0
  last : Last := .nothing
  /-- How deep the earlier branches are nested, if there are any. -/
  earlier : Option Nat := none
  deriving Repr

namespace Scope

def add (s : Scope) (depth : Nat) : Scope :=
  { s with count := s.count + 1, depth := max s.depth depth, last := .item depth }

/-- How deep the current branch is nested. -/
def branchDepth (s : Scope) : Nat :=
  if s.count < 2 then s.depth else s.depth + 1

/-- Starts another branch. -/
def branch (s : Scope) : Scope :=
  { mode := s.mode, earlier := some (max (s.earlier.getD 0) s.branchDepth) }

/-- How deep all branches are nested. -/
def wholeDepth (s : Scope) : Nat :=
  match s.earlier with
  | none => s.branchDepth
  | some d => max d s.branchDepth + 1

/-- Sets flags for what follows. -/
def setFlags (s : Scope) (mode : Mode) : Scope :=
  { s with mode := mode, count := s.count + 1, last := .flags }

/-- Repeats the last item. -/
def repeatLast? (s : Scope) : Option Scope :=
  match s.last with
  | .item d => some { s with depth := max s.depth (d + 1), last := .item (d + 1) }
  | _ => none

end Scope

/-- What has been read of a pattern: the group that is open and those around it, with the names that
groups have been given. -/
structure State where
  here : Scope
  around : List Scope := []
  names : List (List Char) := []
  deriving Repr

/-- Flags up to a colon or a closing bracket. `seen` holds the flags before, `negated` whether they
are taken away, and `dangling` whether nothing has been taken away yet. -/
def flagsAt (seen : List Char) (mode : Mode) (negated dangling : Bool) :
    List Char → Option (Mode × Bool × List Char)
  | [] => none
  | c :: rest =>
    if c = ':' || c = ')' then if dangling then none else some (mode, seen.isEmpty, c :: rest)
    else if seen.contains c then none
    else if c = '-' then flagsAt (c :: seen) mode true true rest
    else if c = 'u' then
      flagsAt (c :: seen) { mode with unicode := !negated } negated false rest
    else if c = 'x' then
      flagsAt (c :: seen) { mode with spaced := !negated } negated false rest
    else if c ∈ ['i', 'm', 's', 'U', 'R'] then flagsAt (c :: seen) mode negated false rest
    else none

/-- The name of a group, behind the angle bracket. -/
def nameAt (names : List (List Char)) (text : List Char) : Option (List Char × List Char) :=
  let name := text.takeWhile (· ≠ '>')
  let fits : Bool :=
    match name with
    | [] => false
    | c :: rest =>
      (c = '_' || Text.isLetter c)
        && rest.all fun c => c ∈ ['_', '.', '[', ']'] || Text.isLetterOrNumeral c
  match text.drop name.length with
  | '>' :: rest => if fits && !names.contains name then some (name, rest) else none
  | _ => none

/-- Opens a group behind its bracket, or sets flags. -/
def openGroup (s : State) (text : List Char) : Option (State × List Char) :=
  let enter (mode : Mode) (names : List (List Char)) : State :=
    { here := { mode := mode }, around := s.here :: s.around, names := names }
  let named (rest : List Char) : Option (State × List Char) :=
    (nameAt s.names rest).map fun (name, rest) => (enter s.here.mode (name :: s.names), rest)
  match s.here.mode.skip text with
  | '?' :: '=' :: _ | '?' :: '!' :: _ | '?' :: '<' :: '=' :: _ | '?' :: '<' :: '!' :: _ => none
  | '?' :: 'P' :: '<' :: rest | '?' :: '<' :: rest => named rest
  | '?' :: rest =>
    (flagsAt [] s.here.mode false false rest).bind fun (mode, isEmpty, rest) =>
      match rest with
      | ')' :: rest =>
        if isEmpty then none else some ({ s with here := s.here.setFlags mode }, rest)
      | _ :: rest => some (enter mode s.names, rest)
      | [] => none
  | rest => some (enter s.here.mode s.names, rest)

/-- Closes the group that is open. -/
def closeGroup (s : State) : Option State :=
  match s.around with
  | [] => none
  | outer :: around =>
    some { s with here := outer.add (s.here.wholeDepth + 1), around := around }

/-! ### Patterns -/

/-- Whether an escape outside of classes can be matched. -/
def isMatchable (mode : Mode) : Escape → Bool
  | .literal c isByte => isCharacter mode c isByte
  | .class negated => mode.unicode || !negated
  | .property => mode.unicode
  | .boundary => !mode.unicode
  | .textEnd => true

/-- The next item of a pattern, at its first character `c`. -/
def step (s : State) (c : Char) (rest : List Char) : Option (State × List Char) :=
  let item (depth : Nat) : State := { s with here := s.here.add depth }
  let mode := s.here.mode
  if c = '(' then openGroup s rest
  else if c = ')' then (closeGroup s).map fun s => (s, rest)
  else if c = '|' then some ({ s with here := s.here.branch }, rest)
  else if c = '[' then (classAt mode rest).map fun (depth, rest) => (item depth, rest)
  else if c = '?' || c = '*' || c = '+' then
    s.here.repeatLast?.map fun here =>
      match rest with
      | '?' :: rest => ({ s with here := here }, rest)
      | rest => ({ s with here := here }, rest)
  else if c = '\x7b' then none
  else if c = '\\' then
    (escapeAt mode rest).bind fun (e, rest) =>
      if isMatchable mode e then some (item 0, rest) else none
  else if c = '.' then if mode.unicode then some (item 0, rest) else none
  else some (item 0, rest)

/-- Reads a pattern. The fuel is more than its length. -/
def steps : Nat → State → List Char → Option State
  | 0, _, _ => none
  | fuel + 1, s, text =>
    match s.here.mode.skip text with
    | [] => some s
    | c :: rest => (step s c rest).bind fun (s, rest) => steps fuel s rest

/-- Whether a text is a pattern that can be matched. -/
def isSound (text : List Char) : Bool :=
  match steps (text.length + 1) { here := { mode := {} } } text with
  | some s => s.around.isEmpty && s.here.wholeDepth ≤ maxDepth
  | none => false

end Restyle.Pattern
