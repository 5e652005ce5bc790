import Restyle.LogFilter.Pattern
import Restyle.Number.Read
import Restyle.Number.Shortest

/-!
Values of fields in log filters. What a text says is read as the first of these that fits: a truth
value, a whole number, a number, a pattern.
-/

namespace Restyle

/-- What the value of a field is compared with. -/
inductive LogValue where
  | flag (b : Bool)
  | real (x : Binary64)
  | notNumber
  /-- A whole number without a minus sign. -/
  | count (n : Nat)
  /-- A whole number with a minus sign. -/
  | negated (n : Nat)
  | pattern (text : String)
  deriving DecidableEq, Repr

namespace LogValue

/-- The whole number below a bound that a row of digits spells. -/
def digits? (bound : Nat) (cs : List Char) : Option Nat :=
  if cs.isEmpty || !cs.all Binary64.isDigit then none
  else
    let n := Binary64.digitsValue cs
    if n < bound then some n else none

/-- A whole number without a minus sign. -/
def count? : List Char → Option Nat
  | '+' :: cs => digits? (Nat.pow 2 64) cs
  | cs => digits? (Nat.pow 2 64) cs

/-- A whole number behind a minus sign. -/
def negated? : List Char → Option Nat
  | '-' :: cs => digits? (Nat.pow 2 63 + 1) cs
  | _ => none

/-- The value that a number stands for. -/
def ofNumber : Binary64 → LogValue
  | .nan => notNumber
  | x => real x

/-- Reads a value. -/
def ofText? (s : String) : Option LogValue :=
  if s = "true" then some (flag true)
  else if s = "false" then some (flag false)
  else
    match count? s.toList, negated? s.toList, Binary64.ofText? s with
    | some n, _, _ => some (count n)
    | none, some n, _ => some (negated n)
    | none, none, some x => some (ofNumber x)
    | none, none, none => if Pattern.isSound s.toList then some (pattern s) else none

/-- The kinds of values in order. -/
def rank : LogValue → Nat
  | flag _ => 0
  | real _ => 1
  | notNumber => 2
  | count _ => 3
  | negated _ => 4
  | pattern _ => 5

/-- Orders values by their kind, and then by what they are. -/
def order : LogValue → LogValue → Ordering
  | flag a, flag b => compare a.toNat b.toNat
  | real x, real y => if x.lt y then .lt else if y.lt x then .gt else .eq
  | count m, count n => compare m n
  | negated m, negated n => compare n m
  | pattern s, pattern t => compare s t
  | v, w => compare v.rank w.rank

/-- A value in its simplest form. -/
def text : LogValue → String
  | flag b => if b then "true" else "false"
  | real x => x.plain
  | notNumber => Binary64.nan.plain
  | count n => toString n
  | negated n => if n = 0 then "0" else "-" ++ toString n
  | pattern s => s

end LogValue

end Restyle
