import Restyle.Json.Value

/-!
Reading a JSON text. A reading is what a text says up to the first place where it stops being JSON;
who looks at it in order meets a fault exactly when all before it is settled. Values that are looked
at are held to more than those that are passed over, so a fault has a complaint for either case.
-/

namespace Restyle

/-- What can be wrong with a JSON text or with what it says. -/
inductive Complaint where
  | eofValue
  | eofList
  | eofObject
  | eofString
  | expectedValue
  | expectedWord
  | expectedColon
  | expectedListEnd
  | expectedObjectEnd
  | keyNotString
  | trailingComma
  | trailingCharacters
  | invalidNumber
  | numberOutOfRange
  | invalidEscape
  | loneSurrogate
  | hexEscapeEnd
  | controlCharacter
  | recursionLimit
  | missingField (name : String)
  | duplicateField (name : String)
  | unknownVariant (name : String) (expected : List String)
  | invalidType (found expected : String)
  | invalidLength (length : Nat) (expected : String)
  /-- A rule of the domain is broken. -/
  | custom (message : String)
  deriving DecidableEq, Repr, Inhabited

namespace Complaint

/-- The names that were expected, each in backticks. -/
def listed : List String → String
  | [] => "there are no variants"
  | [a] => "expected `" ++ a ++ "`"
  | [a, b] => "expected `" ++ a ++ "` or `" ++ b ++ "`"
  | names => "expected one of " ++ ", ".intercalate (names.map fun n => "`" ++ n ++ "`")

/-- The complaint in words. -/
def message : Complaint → String
  | eofValue => "EOF while parsing a value"
  | eofList => "EOF while parsing a list"
  | eofObject => "EOF while parsing an object"
  | eofString => "EOF while parsing a string"
  | expectedValue => "expected value"
  | expectedWord => "expected ident"
  | expectedColon => "expected `:`"
  | expectedListEnd => "expected `,` or `]`"
  | expectedObjectEnd => "expected `,` or `\x7d`"
  | keyNotString => "key must be a string"
  | trailingComma => "trailing comma"
  | trailingCharacters => "trailing characters"
  | invalidNumber => "invalid number"
  | numberOutOfRange => "number out of range"
  | invalidEscape => "invalid escape"
  | loneSurrogate => "lone leading surrogate in hex escape"
  | hexEscapeEnd => "unexpected end of hex escape"
  | controlCharacter => "control character (\\u0000-\\u001F) found while parsing a string"
  | recursionLimit => "recursion limit exceeded"
  | missingField name => "missing field `" ++ name ++ "`"
  | duplicateField name => "duplicate field `" ++ name ++ "`"
  | unknownVariant name expected => "unknown variant `" ++ name ++ "`, " ++ listed expected
  | invalidType found expected => "invalid type: " ++ found ++ ", expected " ++ expected
  | invalidLength length expected =>
    "invalid length " ++ toString length ++ ", expected " ++ expected
  | custom message => message

end Complaint

/-- A fault in a JSON text: the complaint of who looks at the value, and of who passes over it. -/
structure Fault where
  strict : Complaint
  lenient : Complaint
  deriving DecidableEq, Repr, Inhabited

/-- What a JSON text says up to its first fault. -/
inductive Reading where
  | null
  | bool (b : Bool)
  /-- A number, or the complaint about its size. -/
  | number (n : Except Complaint JsonNumber)
  /-- A string, or the complaint about its escapes. -/
  | string (s : Except Complaint String)
  /-- The items of an array; if there is a fault the array does not end. -/
  | array (items : List Reading) (fault : Option Fault)
  /-- The members of an object; if there is a fault the object does not end. -/
  | object (members : List (Except Complaint String × Reading)) (fault : Option Fault)
  /-- A value that stops being one; `quoted` says whether it is a string. -/
  | broken (quoted : Bool) (fault : Fault)
  /-- A value that the text does not come to. -/
  | unreached (c : Complaint)
  deriving Inhabited

/-- A whole text: its value, and whether more follows. -/
structure Document where
  value : Reading
  more : Bool
  deriving Inhabited

namespace Reading

/-- A fault that everyone complains about alike. -/
def same (c : Complaint) : Fault := ⟨c, c⟩

def isBlank (c : Char) : Bool :=
  c = ' ' || c = '\n' || c = '\t' || c = '\r'

def skipBlanks (text : List Char) : List Char :=
  text.dropWhile isBlank

def isDigit (c : Char) : Bool :=
  '0' ≤ c && c ≤ '9'

def hexValue? (c : Char) : Option Nat :=
  if isDigit c then some (c.toNat - 48)
  else if 'a' ≤ c && c ≤ 'f' then some (c.toNat - 87)
  else if 'A' ≤ c && c ≤ 'F' then some (c.toNat - 55)
  else none

/-! ### Strings -/

/-- Four hexadecimal digits. -/
def hexEscape (text : List Char) : Except Complaint (Nat × List Char) :=
  match text with
  | a :: b :: c :: d :: rest =>
    match hexValue? a, hexValue? b, hexValue? c, hexValue? d with
    | some a, some b, some c, some d => .ok (((a * 16 + b) * 16 + c) * 16 + d, rest)
    | _, _, _, _ => .error .invalidEscape
  | short =>
    if (String.ofList short).utf8ByteSize < 4 then .error .eofString else .error .invalidEscape

/-- The character of an escape behind the backslash, with the complaint about it if it is half of
a pair. -/
def escapeAt (text : List Char) : Except Complaint (Except Complaint Char × List Char) :=
  match text with
  | [] => .error .eofString
  | '"' :: rest => .ok (.ok '"', rest)
  | '\\' :: rest => .ok (.ok '\\', rest)
  | '/' :: rest => .ok (.ok '/', rest)
  | 'b' :: rest => .ok (.ok '\x08', rest)
  | 'f' :: rest => .ok (.ok '\x0c', rest)
  | 'n' :: rest => .ok (.ok '\n', rest)
  | 'r' :: rest => .ok (.ok '\r', rest)
  | 't' :: rest => .ok (.ok '\t', rest)
  | 'u' :: rest =>
    match hexEscape rest with
    | .error c => .error c
    | .ok (n, rest) =>
      if 0xDC00 ≤ n && n ≤ 0xDFFF then .ok (.error .loneSurrogate, rest)
      else if n < 0xD800 || 0xDBFF < n then .ok (.ok (Char.ofNat n), rest)
      else
        match rest with
        | [] => .ok (.error .eofString, rest)
        | '\\' :: [] => .ok (.error .eofString, rest)
        | '\\' :: 'u' :: low =>
          match hexEscape low with
          | .error c => .ok (.error c, rest)
          | .ok (m, low) =>
            if 0xDC00 ≤ m && m ≤ 0xDFFF then
              .ok (.ok (Char.ofNat ((n - 0xD800) * 1024 + (m - 0xDC00) + 0x10000)), low)
            else .ok (.error .loneSurrogate, rest)
        | _ => .ok (.error .hexEscapeEnd, rest)
  | _ => .error .invalidEscape

/-- The part of a string behind its opening quote, where `read` holds what has been read in
reverse, or the first complaint about it. The fuel is the length of the text. -/
def stringTail : Nat → List Char → Except Complaint (List Char) →
    Except Fault (Except Complaint String × List Char)
  | 0, _, read => .error (strictly read .eofString)
  | fuel + 1, text, read =>
    match text with
    | [] => .error (strictly read .eofString)
    | '"' :: rest => .ok (read.map fun cs => String.ofList cs.reverse, rest)
    | '\\' :: rest =>
      match escapeAt rest with
      | .error c => .error (strictly read c)
      | .ok (c, rest) =>
        stringTail fuel rest (match read, c with
          | .ok cs, .ok c => .ok (c :: cs)
          | .ok _, .error complaint => .error complaint
          | .error complaint, _ => .error complaint)
    | c :: rest =>
      if c < ' ' then .error (strictly read .controlCharacter)
      else stringTail fuel rest (read.map (c :: ·))
where
  /-- The first complaint wins for who looks at the string. -/
  strictly (read : Except Complaint (List Char)) (c : Complaint) : Fault :=
    match read with
    | .ok _ => same c
    | .error first => ⟨first, c⟩

/-! ### Numbers -/

/-- The largest whole number that is kept as one. -/
def maxWhole : Nat := Nat.pow 2 64 - 1

/-- `digits * 10 ^ exponent` as floating-point arithmetic gives it: the digits are rounded, and
then scaled by rounded powers of ten. The fuel bounds the scalings. -/
def scaled : Nat → Binary64 → Int → Except Complaint Binary64
  | 0, x, _ => .ok x
  | fuel + 1, x, exponent =>
    if exponent.natAbs ≤ 308 then
      if 0 ≤ exponent then
        let y := x.mul (.ofDecimal false 1 exponent)
        if y.isInfinite then .error .numberOutOfRange else .ok y
      else .ok (x.div (.ofDecimal false 1 (-exponent)))
    else if x.isZero then .ok x
    else if 0 ≤ exponent then .error .numberOutOfRange
    else scaled fuel (x.div (.ofDecimal false 1 308)) (exponent + 308)

/-- The digits of a number as a whole number below `2 ^ 64`, and how many digits were left out
once no more fitted. -/
def accumulate : List Char → Nat → Nat × Nat
  | [], n => (n, 0)
  | c :: rest, n =>
    let m := n * 10 + (c.toNat - 48)
    if maxWhole < m then (n, rest.length + 1) else accumulate rest m

/-- A number with a fraction or an exponent, or one that is too large to be kept whole. -/
def realNumber (negative : Bool) (whole fraction : List Char) (exponent : Int) :
    Except Complaint JsonNumber :=
  let (n, leftOut) := accumulate whole 0
  let (digits, power) : Nat × Int :=
    let (d, unread) := accumulate fraction n
    if leftOut = 0 then (d, -((fraction.length - unread : Nat) : Int))
    else (d, (leftOut : Int) - ((fraction.length - unread : Nat) : Int))
  -- more than this makes no difference
  let total := max (-4000) (min 4000 (power + exponent))
  (scaled 20 (.ofNat false digits) total).map fun x => .real (if negative then x.neg else x)

/-- A number without fraction and exponent. -/
def wholeNumber (negative : Bool) (digits : List Char) : Except Complaint JsonNumber :=
  let (n, leftOut) := accumulate digits 0
  if leftOut ≠ 0 then realNumber negative digits [] 0
  else if !negative then .ok (.whole n)
  else if n = 0 || Nat.pow 2 63 < n then .ok (.real (Binary64.ofNat true n))
  else .ok (.whole (-n))

/-- The exponent of a number behind its sign. -/
def exponentTail (negative : Bool) (text : List Char) : Except Fault (Int × List Char) :=
  let digits := text.takeWhile isDigit
  if digits.isEmpty then
    if text.isEmpty then .error ⟨.eofValue, .invalidNumber⟩ else .error (same .invalidNumber)
  else
    let n : Int := digits.foldl (fun n c => min 100000 (n * 10 + (c.toNat - 48))) (0 : Nat)
    .ok (if negative then -n else n, text.drop digits.length)

/-- The exponent of a number behind its `e`. -/
def exponentAt (text : List Char) : Except Fault (Int × List Char) :=
  match text with
  | '+' :: rest => exponentTail false rest
  | '-' :: rest => exponentTail true rest
  | _ => exponentTail false text

/-- A number behind its fraction. -/
def fractionTail (negative : Bool) (digits fraction text : List Char) :
    Reading × Option (List Char) :=
  match text with
  | 'e' :: rest | 'E' :: rest =>
    match exponentAt rest with
    | .error fault => (.broken false fault, none)
    | .ok (e, rest) => (.number (realNumber negative digits fraction e), some rest)
  | _ => (.number (realNumber negative digits fraction 0), some text)

/-- A number behind its whole part. -/
def wholeTail (negative : Bool) (digits text : List Char) : Reading × Option (List Char) :=
  match text with
  | '.' :: rest =>
    let fraction := rest.takeWhile isDigit
    let rest := rest.drop fraction.length
    if fraction.isEmpty then
      if rest.isEmpty then (.broken false ⟨.eofValue, .invalidNumber⟩, none)
      else (.broken false (same .invalidNumber), none)
    else fractionTail negative digits fraction rest
  | 'e' :: _ | 'E' :: _ => fractionTail negative digits [] text
  | _ => (.number (wholeNumber negative digits), some text)

/-- A number behind its sign. -/
def numberAt (negative : Bool) (text : List Char) : Reading × Option (List Char) :=
  match text.takeWhile isDigit with
  | [] =>
    if text.isEmpty then (.broken false ⟨.eofValue, .invalidNumber⟩, none)
    else (.broken false (same .invalidNumber), none)
  | '0' :: _ :: _ => (.broken false (same .invalidNumber), none)
  | digits => wholeTail negative digits (text.drop digits.length)

/-! ### Values -/

/-- The rest of a word such as `null`. -/
def wordTail (word : List Char) (value : Reading) (text : List Char) :
    Reading × Option (List Char) :=
  match word, text with
  | [], _ => (value, some text)
  | _ :: _, [] => (.broken false (same .eofValue), none)
  | w :: ws, c :: rest =>
    if w = c then wordTail ws value rest else (.broken false (same .expectedWord), none)

mutual

/-- A value, and what follows it unless there is a fault. The fuel is the length of the text. -/
def valueAt : Nat → List Char → Reading × Option (List Char)
  | 0, _ => (.unreached .eofValue, none)
  | fuel + 1, text =>
    match skipBlanks text with
    | [] => (.unreached .eofValue, none)
    | 'n' :: rest => wordTail "ull".toList .null rest
    | 't' :: rest => wordTail "rue".toList (.bool true) rest
    | 'f' :: rest => wordTail "alse".toList (.bool false) rest
    | '"' :: rest =>
      match stringTail (rest.length + 1) rest (.ok []) with
      | .ok (s, rest) => (.string s, some rest)
      | .error fault => (.broken true fault, none)
    | '-' :: rest => numberAt true rest
    | '[' :: rest =>
      let (items, fault, rest) := itemsAt fuel true rest
      (.array items fault, rest)
    | '\x7b' :: rest =>
      let (members, fault, rest) := membersAt fuel true rest
      (.object members fault, rest)
    | c :: rest =>
      if isDigit c then numberAt false (c :: rest) else (.broken false (same .expectedValue), none)

/-- The items of an array behind its bracket or behind an item. -/
def itemsAt : Nat → Bool → List Char → List Reading × Option Fault × Option (List Char)
  | 0, _, _ => ([], some (same .eofList), none)
  | fuel + 1, first, text =>
    let next (rest : List Char) : List Reading × Option Fault × Option (List Char) :=
      match valueAt fuel rest with
      | (v, none) => ([v], none, none)
      | (v, some rest) =>
        let (vs, fault, rest) := itemsAt fuel false rest
        (v :: vs, fault, rest)
    match skipBlanks text with
    | [] => ([], some (same .eofList), none)
    | ']' :: rest => ([], none, some rest)
    | c :: rest =>
      if first then next (c :: rest)
      else if c = ',' then
        match skipBlanks rest with
        | ']' :: _ => ([], some ⟨.trailingComma, .expectedValue⟩, none)
        | [] => ([], some (same .eofValue), none)
        | rest => next rest
      else ([], some (same .expectedListEnd), none)

/-- The members of an object behind its brace or behind a member. -/
def membersAt : Nat → Bool → List Char →
    List (Except Complaint String × Reading) × Option Fault × Option (List Char)
  | 0, _, _ => ([], some (same .eofObject), none)
  | fuel + 1, first, text =>
    let next (rest : List Char) :
        List (Except Complaint String × Reading) × Option Fault × Option (List Char) :=
      match stringTail (rest.length + 1) rest (.ok []) with
      | .error fault => ([], some fault, none)
      | .ok (key, rest) =>
        match skipBlanks rest with
        | ':' :: rest =>
          match valueAt fuel rest with
          | (v, none) => ([(key, v)], none, none)
          | (v, some rest) =>
            let (ms, fault, rest) := membersAt fuel false rest
            ((key, v) :: ms, fault, rest)
        | [] => ([(key, .unreached .eofObject)], none, none)
        | _ => ([(key, .unreached .expectedColon)], none, none)
    match skipBlanks text with
    | [] => ([], some (same .eofObject), none)
    | '\x7d' :: rest => ([], none, some rest)
    | '"' :: rest =>
      if first then next rest else ([], some (same .expectedObjectEnd), none)
    | c :: rest =>
      if first then ([], some (same .keyNotString), none)
      else if c = ',' then
        match skipBlanks rest with
        | '"' :: rest => next rest
        | '\x7d' :: _ => ([], some ⟨.trailingComma, .keyNotString⟩, none)
        | [] => ([], some ⟨.eofValue, .eofObject⟩, none)
        | _ => ([], some (same .keyNotString), none)
      else ([], some (same .expectedObjectEnd), none)

end

section Steps

variable {text rest : List Char}

/-- Where a digit stands a number begins. -/
theorem valueAt_digit {c : Char} (hc : isDigit c = true) (htext : skipBlanks text = c :: rest)
    (fuel : Nat) :
    valueAt (fuel + 1) text = numberAt false (c :: rest) := by
  simp only [valueAt, htext]
  split
  case h_1 heq => cases heq
  case h_9 heq =>
    cases heq
    exact if_pos hc
  all_goals
    next heq =>
      cases heq
      exact absurd hc (by decide)

theorem itemsAt_close {fuel : Nat} {first : Bool} (htext : skipBlanks text = ']' :: rest) :
    itemsAt (fuel + 1) first text = ([], none, some rest) := by
  simp only [itemsAt, htext]

theorem membersAt_close {fuel : Nat} {first : Bool} (htext : skipBlanks text = '\x7d' :: rest) :
    membersAt (fuel + 1) first text = ([], none, some rest) := by
  simp only [membersAt, htext]

end Steps

/-- What a text says. -/
def ofText (text : String) : Document :=
  let cs := text.toList
  match valueAt (2 * cs.length + 2) cs with
  | (v, some rest) => ⟨v, !(skipBlanks rest).isEmpty⟩
  | (v, none) => ⟨v, false⟩

mutual

/-- The reading of a value that is written without fault. -/
def ofJson : Json → Reading
  | .null => .null
  | .bool b => .bool b
  | .number n => .number (.ok n)
  | .string s => .string (.ok s)
  | .array items => .array (ofItems items) none
  | .object members => .object (ofMembers members) none

def ofItems : List Json → List Reading
  | [] => []
  | v :: vs => ofJson v :: ofItems vs

def ofMembers : List (String × Json) → List (Except Complaint String × Reading)
  | [] => []
  | (k, v) :: ms => (.ok k, ofJson v) :: ofMembers ms

end

end Reading

end Restyle
