import Restyle.Syntax.Machine

/-!
Competing readings: which of two is the better one, and when one of them is given up.
-/

namespace Restyle.Syntax

/-- How well a reading does. -/
structure Standing where
  cost : Nat
  /-- How many nodes show since its last error. -/
  count : Nat
  weight : Int
  isInError : Bool
  deriving Repr

/-- How two readings compare. The better one may be so much better that the other is given up. -/
inductive Preference where
  | onlyLeft
  | left
  | either
  | right
  | onlyRight
  deriving DecidableEq, Repr

namespace Standing

/-- By how much readings may differ in cost before the worse one is given up, if the better one has
read nothing since its last error. The more it has read, the less is allowed. -/
def maxDifference : Nat := 18 * costPerSkippedTree

/-- Compares two readings. -/
def prefer (a b : Standing) : Preference :=
  if !a.isInError && b.isInError then if a.cost < b.cost then .onlyLeft else .left
  else if a.isInError && !b.isInError then if b.cost < a.cost then .onlyRight else .right
  else if a.cost < b.cost then
    if maxDifference < (b.cost - a.cost) * (1 + a.count) then .onlyLeft else .left
  else if b.cost < a.cost then
    if maxDifference < (a.cost - b.cost) * (1 + b.count) then .onlyRight else .right
  else if b.weight < a.weight then .left
  else if a.weight < b.weight then .right
  else .either

end Standing

namespace Run

/-- How well the reading of a top does. -/
def standing (version : Nat) : Run Standing := do
  onStack (·.settleCount version)
  looking fun s =>
    let isPaused := s.isPaused version
    { cost := s.cost version + if isPaused then costPerSkippedTree else 0
      count := s.countSinceError version
      weight := (s.top version).weight
      isInError := isPaused || s.state version = Stack.errorState }

/-- Whether a reading that would cost so much is worse than one that there is. -/
def isBeaten (version cost : Nat) : Run Bool := do
  match (← get).finished with
  | some t => if t.cost ≤ cost then return true
  | none => pure ()
  let place ← looking (·.place version)
  let own := { ← standing version with cost := cost, isInError := false }
  for v in List.range (← looking (·.size)) do
    let counts ← looking fun s => v ≠ version && s.isActive v && place ≤ s.place v
    if counts then
      match own.prefer (← standing v) with
      | .onlyRight => return true
      | .right => if ← looking (·.canMerge v version) then return true
      | _ => pure ()
  return false

end Run

end Restyle.Syntax
