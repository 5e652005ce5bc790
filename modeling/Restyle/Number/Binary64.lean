/-!
Floating-point numbers of 64 bits, as exact data: a sign, a whole number and a power of two.
Everything is computed on whole numbers and rounded once, to the nearest number and on a tie to the
one with the even mantissa (`ofRatio`).
-/

namespace Restyle

/-- A binary floating-point number. A finite one has the value `mantissa * 2 ^ exponent`. -/
inductive Binary64 where
  | nan
  | infinity (negative : Bool)
  | finite (negative : Bool) (mantissa : Nat) (exponent : Int)
  deriving DecidableEq, Repr, Inhabited

namespace Binary64

/-- The smallest exponent. -/
def minExponent : Int := -1074

/-- The largest exponent. -/
def maxExponent : Int := 971

/-- One more than the largest mantissa. -/
def mantissaLimit : Nat := Nat.pow 2 53

def zero (negative : Bool) : Binary64 :=
  finite negative 0 minExponent

/-- The quotient of two whole numbers, rounded to the nearest whole number, a tie to the even
one. -/
def roundDiv (num den : Nat) : Nat :=
  let q := num / den
  let r := num % den
  if 2 * r < den then q else if den < 2 * r then q + 1 else if q % 2 = 0 then q else q + 1

/-- `num / den` scaled by a power of two, with the sign given. -/
def scaledDiv (num den : Nat) (exponent : Int) : Nat :=
  if 0 ≤ exponent then roundDiv num (den * Nat.pow 2 exponent.toNat)
  else roundDiv (num * Nat.pow 2 (-exponent).toNat) den

/-- The exponent at which a quotient has a mantissa of full length, or the smallest one. -/
def exponentOf (num den : Nat) : Int :=
  let guess : Int := (Nat.log2 num : Int) - (Nat.log2 den : Int) - 52
  let below : Bool :=
    -- the quotient is below `2 ^ (guess + 52)`
    if 0 ≤ guess + 52 then num < den * Nat.pow 2 (guess + 52).toNat
    else num * Nat.pow 2 (-(guess + 52)).toNat < den
  max minExponent (if below then guess - 1 else guess)

/-- The number nearest to a quotient of whole numbers. -/
def ofRatio (negative : Bool) (num den : Nat) : Binary64 :=
  if num = 0 || den = 0 then zero negative
  else
    let e := exponentOf num den
    let m := scaledDiv num den e
    let (m, e) := if m = mantissaLimit then (mantissaLimit / 2, e + 1) else (m, e)
    if maxExponent < e then infinity negative else finite negative m e

def ofNat (negative : Bool) (n : Nat) : Binary64 :=
  ofRatio negative n 1

/-- The number nearest to `digits * 10 ^ exponent`. Powers that are out of all proportion are not
computed. -/
def ofDecimal (negative : Bool) (digits : Nat) (exponent : Int) : Binary64 :=
  if digits = 0 then zero negative
  else if 0 ≤ exponent then
    if 310 < exponent then infinity negative
    else ofRatio negative (digits * Nat.pow 10 exponent.toNat) 1
  else
    let down := (-exponent).toNat
    if Nat.log2 digits + 2000 < 3 * down then zero negative
    else ofRatio negative digits (Nat.pow 10 down)

def isNegative : Binary64 → Bool
  | nan => false
  | infinity negative => negative
  | finite negative _ _ => negative

def isInfinite : Binary64 → Bool
  | infinity _ => true
  | _ => false

def isZero : Binary64 → Bool
  | finite _ m _ => m = 0
  | _ => false

def neg : Binary64 → Binary64
  | nan => nan
  | infinity negative => infinity !negative
  | finite negative m e => finite (!negative) m e

/-- The value of a finite number in units of the smallest positive one. -/
def units : Binary64 → Int
  | finite negative m e =>
    let n : Int := m * Nat.pow 2 (e - minExponent).toNat
    if negative then -n else n
  | _ => 0

/-- Whether a number is at most another. Nothing holds of `nan`. -/
def le : Binary64 → Binary64 → Bool
  | nan, _ => false
  | _, nan => false
  | infinity true, _ => true
  | _, infinity false => true
  | infinity false, _ => false
  | _, infinity true => false
  | x, y => x.units ≤ y.units

/-- Whether a number is less than another. Nothing holds of `nan`. -/
def lt (x y : Binary64) : Bool :=
  x.le y && !y.le x

/-- Whether two numbers are equal as numbers: `nan` equals nothing, and the zeros are equal. -/
def eq (x y : Binary64) : Bool :=
  x.le y && y.le x

/-- The product, rounded. -/
def mul : Binary64 → Binary64 → Binary64
  | finite s m e, finite s' m' e' =>
    let k := e + e'
    if 0 ≤ k then ofRatio (s != s') (m * m' * Nat.pow 2 k.toNat) 1
    else ofRatio (s != s') (m * m') (Nat.pow 2 (-k).toNat)
  | nan, _ => nan
  | _, nan => nan
  | x, y =>
    if x.isZero || y.isZero then nan else infinity (x.isNegative != y.isNegative)

/-- The quotient, rounded. -/
def div : Binary64 → Binary64 → Binary64
  | finite s m e, finite s' m' e' =>
    if m' = 0 then (if m = 0 then nan else infinity (s != s'))
    else
      let k := e - e'
      if 0 ≤ k then ofRatio (s != s') (m * Nat.pow 2 k.toNat) m'
      else ofRatio (s != s') m (m' * Nat.pow 2 (-k).toNat)
  | nan, _ => nan
  | _, nan => nan
  | infinity _, infinity _ => nan
  | infinity s, y => infinity (s != y.isNegative)
  | x, infinity s => zero (x.isNegative != s)

end Binary64

end Restyle
