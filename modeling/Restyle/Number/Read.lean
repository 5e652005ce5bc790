import Restyle.Number.Binary64

/-!
Reading decimal numbers. A decimal is a row of digits with at most one point and at least one digit,
and its value is the floating-point number nearest to it; a sign, an exponent and the words for
infinity and for no number are read only where they are asked for.
-/

namespace Restyle.Binary64

def isDigit (c : Char) : Bool :=
  '0' ≤ c && c ≤ '9'

/-- The whole number that digits spell. -/
def digitsValue (digits : List Char) : Nat :=
  digits.foldl (fun n c => n * 10 + (c.toNat - 48)) 0

/-- The digits before and behind the point of a decimal, and what follows. -/
def splitDecimal (text : List Char) : Option (List Char × List Char × List Char) :=
  let whole := text.takeWhile isDigit
  match text.drop whole.length with
  | '.' :: rest =>
    let fraction := rest.takeWhile isDigit
    if whole.isEmpty && fraction.isEmpty then none
    else some (whole, fraction, rest.drop fraction.length)
  | rest => if whole.isEmpty then none else some (whole, [], rest)

/-- The number nearest to a decimal, scaled by a power of ten. -/
def ofDigits (negative : Bool) (whole fraction : List Char) (power : Int) : Binary64 :=
  ofDecimal negative (digitsValue (whole ++ fraction)) (power - fraction.length)

/-- An unsigned decimal without exponent. -/
def ofUnsigned? (text : List Char) : Option Binary64 :=
  match splitDecimal text with
  | some (whole, fraction, []) => some (ofDigits false whole fraction 0)
  | _ => none

/-- The power of ten behind the letter of an exponent. -/
def exponent? (text : List Char) : Option Int :=
  let (negative, digits) :=
    match text with
    | '-' :: rest => (true, rest)
    | '+' :: rest => (false, rest)
    | _ => (false, text)
  if digits.isEmpty || !digits.all isDigit then none
  else
    -- a power beyond this changes nothing
    let n : Int := digits.foldl (fun n c => min 1000000 (n * 10 + (c.toNat - 48))) (0 : Nat)
    some (if negative then -n else n)

/-- A number as people write it: with an optional sign and exponent, or `inf`, `infinity` or `nan`
in letters of any case. -/
def ofText? (text : String) : Option Binary64 :=
  let (negative, body) :=
    match text.toList with
    | '-' :: rest => (true, rest)
    | '+' :: rest => (false, rest)
    | cs => (false, cs)
  let word := String.ofList (body.map Char.toLower)
  if word = "inf" || word = "infinity" then some (infinity negative)
  else if word = "nan" then some nan
  else
    match splitDecimal body with
    | some (whole, fraction, []) => some (ofDigits negative whole fraction 0)
    | some (whole, fraction, c :: rest) =>
      if c = 'e' || c = 'E' then (exponent? rest).map (ofDigits negative whole fraction) else none
    | none => none

end Restyle.Binary64
