import Restyle.Syntax.Production

/-!
Which of two competing rules binds tighter.
-/

namespace Restyle.Syntax.Grammar

/-- A rule in a competition: how tightly it binds, and the symbols that it makes. -/
structure Contender where
  binding : Binding
  heads : List Nat
  deriving Repr

namespace Contender

/-- Whether an entry of an ordering is about a contender. -/
def matchesRank (c : Contender) : Rank → Bool
  | .level l => c.binding = .level l
  | .construct k => c.heads.contains (phraseNumber k)

/-- Compares two contenders by one ordering. The entry that is met first decides; an entry that is
about both counts for the first one. -/
def compareIn (a b : Contender) (sawA sawB : Bool) : List Rank → Option Ordering
  | [] => none
  | rank :: more =>
    if a.matchesRank rank then
      if sawB then some .lt else compareIn a b true sawB more
    else if b.matchesRank rank then
      if sawA then some .gt else compareIn a b sawA true more
    else compareIn a b sawA sawB more

/-- Compares two contenders by the first ordering that knows both. -/
def compareByOrderings (a b : Contender) : Ordering :=
  (orderings.findSome? (compareIn a b false false)).getD .eq

/-- Compares two contenders: by their numbers if these tell, and otherwise by the orderings. -/
def compare (a b : Contender) : Ordering :=
  match a.binding, b.binding with
  | .number m, .number n =>
    if m ≠ 0 || n ≠ 0 then Ord.compare m n else a.compareByOrderings b
  | .number m, .unsaid => if m ≠ 0 then Ord.compare m 0 else a.compareByOrderings b
  | .unsaid, .number n => if n ≠ 0 then Ord.compare 0 n else a.compareByOrderings b
  | _, _ => a.compareByOrderings b

end Contender

end Restyle.Syntax.Grammar
