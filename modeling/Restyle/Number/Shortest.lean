import Restyle.Number.Binary64

/-!
The shortest decimal text of a floating-point number: the fewest digits that read back as the same
number, and of those the ones nearest to it. Two layouts write the digits: `plain` never uses an
exponent, `scientific` uses one for very large and very small numbers and always shows that the
number is not a whole one.
-/

namespace Restyle

/-- `digits * 10 ^ exponent`. -/
structure Decimal where
  digits : Nat
  exponent : Int
  deriving DecidableEq, Repr, Inhabited

namespace Decimal

/-- Drops the zeros at the end of the digits. At most `fuel` of them are dropped. -/
def trimWithin : Nat → Decimal → Decimal
  | 0, d => d
  | fuel + 1, d =>
    if d.digits ≠ 0 && d.digits % 10 = 0 then trimWithin fuel ⟨d.digits / 10, d.exponent + 1⟩ else d

/-- The same number without zeros at the end of its digits. -/
def trim (d : Decimal) : Decimal :=
  trimWithin (Nat.log2 d.digits + 1) d

/-- The digits as text. -/
def text (d : Decimal) : String :=
  Nat.repr d.digits

/-- How many digits stand before the point. -/
def point (d : Decimal) : Int :=
  d.text.length + d.exponent

/-- A row of zeros. -/
def zeros (n : Nat) : String :=
  String.ofList (List.replicate n '0')

/-- The digits with a point among them or zeros around them, and no exponent. -/
def positional (d : Decimal) : String :=
  let point := d.point
  if 0 ≤ d.exponent then d.text ++ zeros d.exponent.toNat
  else if point ≤ 0 then "0." ++ zeros (-point).toNat ++ d.text
  else
    let cs := d.text.toList
    String.ofList (cs.take point.toNat) ++ "." ++ String.ofList (cs.drop point.toNat)

/-- One digit, a point and the others, and an exponent with its sign. -/
def withExponent (d : Decimal) : String :=
  let cs := d.text.toList
  let power := d.point - 1
  let fraction := if cs.length ≤ 1 then "" else "." ++ String.ofList (cs.drop 1)
  let sign := if power < 0 then "-" else "+"
  String.ofList (cs.take 1) ++ fraction ++ "e" ++ sign ++ Nat.repr power.natAbs

end Decimal

namespace Binary64

/-- The value of a positive finite number as a quotient. -/
def ratio (m : Nat) (e : Int) : Nat × Nat :=
  if 0 ≤ e then (m * Nat.pow 2 e.toNat, 1) else (m, Nat.pow 2 (-e).toNat)

/-- How many digits a quotient below one has as zeros behind the point. -/
def leadingZeros : Nat → Nat → Nat → Nat
  | 0, _, _ => 0
  | fuel + 1, num, den => if den ≤ num * 10 then 0 else 1 + leadingZeros fuel (num * 10) den

/-- How many digits stand before the point; less than zero if zeros follow it. -/
def magnitude (num den : Nat) : Int :=
  if den ≤ num then (Nat.repr (num / den)).length else -(leadingZeros 400 num den : Nat)

/-- The number with `count` digits that is nearest to a quotient and reads back as `x`. -/
def withDigits (x : Binary64) (num den : Nat) (count : Nat) : Option Decimal :=
  let exponent := magnitude num den - count
  let (num, den) :=
    if 0 ≤ exponent then (num, den * Nat.pow 10 exponent.toNat)
    else (num * Nat.pow 10 (-exponent).toNat, den)
  let low := num / den
  let readsBack (d : Nat) : Bool := ofDecimal false d exponent == x
  let order := if 2 * (num % den) ≤ den then [low, low + 1] else [low + 1, low]
  (order.find? readsBack).map fun d => ⟨d, exponent⟩

/-- The digits of a quotient in full, for a quotient by a power of two. -/
def inFull (num den : Nat) : Decimal :=
  ⟨num * Nat.pow 5 (Nat.log2 den), -(Nat.log2 den : Nat)⟩

/-- The shortest decimal number that reads back as the positive number `m * 2 ^ e`. -/
def shortest (m : Nat) (e : Int) : Decimal :=
  let (num, den) := ratio m e
  let x := finite false m e
  (((List.range 17).findSome? fun n => withDigits x num den (n + 1)).getD (inFull num den)).trim

/-- The text without exponent; a whole number has no point. -/
def plain : Binary64 → String
  | nan => "NaN"
  | infinity negative => if negative then "-inf" else "inf"
  | finite negative m e =>
    let sign := if negative then "-" else ""
    sign ++ if m = 0 then "0" else (shortest m e).positional

/-- The text that shows a fraction or an exponent in every case. Without an exponent are written
the numbers from `0.00001` to below `10 ^ 16`. Only finite numbers have such a text. -/
def scientific : Binary64 → String
  | finite negative m e =>
    let sign := if negative then "-" else ""
    if m = 0 then sign ++ "0.0"
    else
      let d := shortest m e
      let body :=
        if -5 < d.point && d.point ≤ 16 then
          if 0 ≤ d.exponent then d.positional ++ ".0" else d.positional
        else d.withExponent
      sign ++ body
  | _ => "null"

end Binary64

end Restyle
