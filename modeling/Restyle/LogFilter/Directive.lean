import Restyle.LogFilter.Value

/-!
Directives of log filters: which messages of one part of the program are shown. A directive is a
level such as `info`, a part such as `parts`, or both, as in `parts=debug`; it may speak of the
spans of a part, as in `parts[span{field=1}]=warn`.
-/

namespace Restyle

/-- How much is shown. -/
inductive LogLevel where
  | off
  | error
  | warn
  | info
  | debug
  | trace
  deriving DecidableEq, Repr

namespace LogLevel

def text : LogLevel → String
  | off => "off"
  | error => "error"
  | warn => "warn"
  | info => "info"
  | debug => "debug"
  | trace => "trace"

/-- Every level, the quietest first. -/
def all : List LogLevel := [off, error, warn, info, debug, trace]

/-- Reads a level, which is a number or a word in any case. -/
def ofText? (s : String) : Option LogLevel :=
  match LogValue.count? s.toList with
  | some n => all[n]?
  | none => all.find? fun l => l.text = String.ofList (s.toList.map Char.toLower)

end LogLevel

/-- A field that messages carry, and what its value is compared with, if anything. -/
structure LogField where
  name : String
  value : Option LogValue
  deriving DecidableEq, Repr

namespace LogField

/-- Reads a field. What stands behind a second equals sign does not count. -/
def ofText? (s : String) : Option LogField :=
  let cs := s.toList
  let name := String.ofList (cs.takeWhile (· ≠ '='))
  match cs.dropWhile (· ≠ '=') with
  | [] => some ⟨name, none⟩
  | _ :: rest =>
    (LogValue.ofText? (String.ofList (rest.takeWhile (· ≠ '=')))).map fun v => ⟨name, some v⟩

/-- Orders fields: those with values come last, then names and values count. -/
def order (a b : LogField) : Ordering :=
  let values : Ordering :=
    match a.value, b.value with
    | some v, some w => v.order w
    | _, _ => .eq
  (compare a.value.isSome.toNat b.value.isSome.toNat).then ((compare a.name b.name).then values)

def text (f : LogField) : String :=
  match f.value with
  | some v => f.name ++ "=" ++ v.text
  | none => f.name

end LogField

/-- What to show of the messages from one part of the program. -/
structure LogDirective where
  /-- The part; every part if there is none. -/
  target : Option String := none
  /-- The span of the messages. -/
  span : Option String := none
  field : Option LogField := none
  level : LogLevel := .trace
  deriving DecidableEq, Repr

namespace LogDirective

/-! ### Reading -/

/-- How many bytes characters take. -/
def width (cs : List Char) : Nat :=
  cs.foldl (fun n c => n + c.utf8Size) 0

/-- The characters from a byte on; there are none if a character begins before it and ends behind
it. -/
def dropBytes : Nat → List Char → Option (List Char)
  | 0, cs => some cs
  | _ + 1, [] => none
  | n + 1, c :: cs => if c.utf8Size ≤ n + 1 then dropBytes (n + 1 - c.utf8Size) cs else none

/-- The characters between two bytes. -/
def piece? (text : List Char) (start stop : Nat) : Option String :=
  (dropBytes start text).bind fun rest =>
    (dropBytes (stop - start) rest).map fun after =>
      String.ofList (rest.take (rest.length - after.length))

/-- The level from a byte on. Everything is shown where it is left out. -/
def withLevel? (d : LogDirective) (text : List Char) (start : Nat) : Option LogDirective :=
  (dropBytes start text).bind fun level =>
    if level.isEmpty then some d
    else (LogLevel.ofText? (String.ofList level)).map fun l => { d with level := l }

/-- Reads what follows a span, up to the closing bracket, at a byte of the text. -/
def afterSpan? (d : LogDirective) (text : List Char) (place : Nat) :
    List Char → Option LogDirective
  | [] => some d
  | '=' :: _ => d.withLevel? text (place + 1)
  | _ => none

/-- Reads the field in braces, and what follows, at a byte of the text. -/
def withField? (d : LogDirective) (text : List Char) (place : Nat) (rest : List Char) :
    Option LogDirective :=
  let inner := rest.takeWhile (· ≠ '\x7d')
  let stop := place + width inner
  match rest.drop inner.length with
  | '\x7d' :: ']' :: rest =>
    if inner.isEmpty then none
    else
      ((piece? text place stop).bind LogField.ofText?).bind fun f =>
        afterSpan? { d with field := some f } text (stop + 2) rest
  | _ => none

/-- Reads the span in brackets, and what follows, at a byte of the text. -/
def withSpan? (d : LogDirective) (text : List Char) (place : Nat) (rest : List Char) :
    Option LogDirective :=
  let name := rest.takeWhile fun c => c ≠ ']' && c ≠ '\x7b'
  let stop := place + width name
  (piece? text place stop).bind fun span =>
    match rest.drop name.length with
    | ']' :: rest => afterSpan? { d with span := some span } text (stop + 1) rest
    | '\x7b' :: rest =>
      withField? { d with span := if span.isEmpty then none else some span } text (stop + 1) rest
    | _ => none

/-- A level for every part, or a part of which everything is shown. -/
def ofWord (s : String) : LogDirective :=
  match LogLevel.ofText? s with
  | some level => { level := level }
  | none => { target := some s }

/-- Whether a directive may start with a character. -/
def isStart (c : Char) : Bool :=
  c = '-' || c = ':' || c = '_' || Text.isLetterOrNumeral c

/-- Reads a directive. Where its parts begin and end is counted without the blanks around the
directive, and yet they are taken from the text with these blanks. -/
def ofText? (s : String) : Option LogDirective :=
  let text := s.toList
  match (Text.trim s).toList with
  | [] => none
  | '[' :: rest => withSpan? {} text 1 rest
  | c :: rest =>
    if !isStart c then none
    else
      let word := (c :: rest).takeWhile fun c => c ≠ '=' && c ≠ '['
      let stop := width word
      match (c :: rest).drop word.length with
      | [] => some (ofWord s)
      | mark :: rest =>
        (piece? text 0 stop).bind fun target =>
          let d : LogDirective := { target := some target }
          if mark = '=' then d.withLevel? text (stop + 1) else d.withSpan? text (stop + 1) rest

/-! ### Order and text -/

/-- Whether a directive speaks of spans. -/
def isAboutSpans (d : LogDirective) : Bool :=
  d.span.isSome || d.field.isSome

/-- What a directive says about messages outside of spans, if anything. -/
def plain? (d : LogDirective) : Option LogDirective :=
  if d.span.isSome || (d.field.bind LogField.value).isSome then none else some d

/-- Orders what may be absent. -/
def compareOptions {α : Type} (order : α → α → Ordering) : Option α → Option α → Ordering
  | none, none => .eq
  | none, some _ => .lt
  | some _, none => .gt
  | some a, some b => order a b

/-- The order in which directives are asked: the more specific one first. -/
def order (a b : LogDirective) : Ordering :=
  let length (d : LogDirective) : Nat := (d.target.map fun s => s.utf8ByteSize + 1).getD 0
  (compare (length b) (length a)).then
    ((compare b.span.isSome.toNat a.span.isSome.toNat).then
      ((compare b.field.isSome.toNat a.field.isSome.toNat).then
        ((compareOptions compare b.target a.target).then
          ((compareOptions compare b.span a.span).then
            (compareOptions LogField.order b.field a.field)))))

def text (d : LogDirective) : String :=
  let field := (d.field.map fun f => "\x7b" ++ f.text ++ "\x7d").getD ""
  let subject :=
    d.target.getD "" ++
      (if d.isAboutSpans then "[" ++ d.span.getD "" ++ field ++ "]" else "")
  if subject.isEmpty then d.level.text else subject ++ "=" ++ d.level.text

end LogDirective

end Restyle
