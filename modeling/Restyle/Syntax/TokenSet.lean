/-!
Sets of terminals. A set is the number whose binary digits tell which terminals belong to it.
-/

namespace Restyle.Syntax

/-- A set of terminals. -/
abbrev TokenSet := Nat

namespace TokenSet

/-- The set without elements. -/
def empty : TokenSet := 0

/-- The set of one terminal. -/
def single (t : Nat) : TokenSet := 1 <<< t

/-- Whether a terminal belongs to a set. -/
def has (s : TokenSet) (t : Nat) : Bool := s.testBit t

/-- What belongs to either of two sets. -/
def union (s t : TokenSet) : TokenSet := s ||| t

/-- What belongs to the first set and not to the second one. -/
def without (s t : TokenSet) : TokenSet := s ^^^ (s &&& t)

theorem has_union (s t : TokenSet) (n : Nat) : (s.union t).has n = (s.has n || t.has n) :=
  Nat.testBit_or s t n

theorem has_single (t n : Nat) : (single t).has n = decide (t = n) := by
  simp [has, single, Nat.shiftLeft_eq, Nat.testBit_two_pow]

theorem has_without (s t : TokenSet) (n : Nat) : (s.without t).has n = (s.has n && !t.has n) := by
  simp only [has, without, Nat.testBit_xor, Nat.testBit_and]
  cases s.testBit n <;> cases t.testBit n <;> rfl

/-- The elements below a bound, in order. -/
def below (bound : Nat) (s : TokenSet) : List Nat :=
  (List.range bound).filter s.has

end TokenSet

end Restyle.Syntax
