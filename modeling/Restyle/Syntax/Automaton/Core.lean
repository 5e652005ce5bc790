import Restyle.Syntax.Automaton.Item

/-!
Cores: what a state knows apart from what may follow its items. A core is the row of its items, in
the order of their numbers, and its arcs lead to the cores behind one more symbol. An arc says where
what follows the items behind it comes from: from the productions in which they begin (`own`), or
from what follows items of the core itself (`heirOf`).
-/

namespace Restyle.Syntax.Automaton

open Grammar

/-- Where what follows an item comes from. -/
structure Descent where
  /-- What follows in any case. -/
  own : TokenSet
  /-- The items, as a set of indices, whose followers follow too. -/
  heirOf : Nat
  deriving Inhabited

namespace Descent

/-- Either of two origins. -/
def union (d e : Descent) : Descent :=
  ⟨d.own ||| e.own, d.heirOf ||| e.heirOf⟩

/-- The origin of what follows a symbol at a left edge. -/
def under (outer : Descent) (corner : Corner) : Descent :=
  if corner.reaches then ⟨corner.ahead ||| outer.own, outer.heirOf⟩ else ⟨corner.ahead, 0⟩

end Descent

/-- The grammar as the construction of cores needs it. -/
structure Blueprint where
  items : Items
  /-- The constructs at the left edge of each construct. -/
  edges : Array (Array (Nat × Corner))
  /-- For each construct the symbols that its productions begin with, and the items behind them. -/
  begins : Array (Array (Nat × Nat))
  /-- All symbols in the order in which the automaton is explored. -/
  symbols : Array Nat

namespace Blueprint

/-- The items behind the first symbol of some productions, each once. -/
def beginsOf (items : Items) (ps : Array Production) : Array (Array (Nat × Nat)) :=
  ps.size.fold
    (fun i _ table =>
      let p := ps[i]!
      match p.steps[0]? with
      | some step =>
        let entry := (step.symbol, items.find i 1)
        table.modify p.head fun row => if row.contains entry then row else row.push entry
      | none => table)
    (Array.replicate symbolCount #[])

/-- The symbols in the order in which they are explored: tokens that depend on their surroundings,
the end of the text, the other terminals in the order in which the rules mention them, then
constructs and repetitions. -/
def symbolOrder : Array Nat :=
  let contextual := contextualTokens.map constructNumber
  let mentioned := (Construct.all.flatMap fun c =>
    match rule? c with
    | some r => r.spellings.map fun s => terminalNumber (.spelled s)
    | none => if c ∈ tokens then [constructNumber c] else [])
  (distinct (contextual ++ [0] ++ mentioned ++ List.range symbolCount)).toArray

/-- The blueprint of the grammar, from its productions. -/
def ofProductions (ps : Array Production) : Blueprint :=
  let items := Items.ofProductions ps
  { items := items
    edges := corners.map fun row =>
      row.zipIdx.filterMap fun (corner, inner) => corner.map fun c => (inner, c)
    begins := beginsOf items ps
    symbols := symbolOrder }

end Blueprint

/-- The way from a core to the one behind a symbol. -/
structure Arc where
  symbol : Nat
  target : Nat
  /-- Where what follows each item of the target comes from: the number of a set of terminals, and
  the indices of items of the source. -/
  descents : Array (Nat × List Nat)
  deriving Inhabited

/-- The items of a core, by number and in order. -/
abbrev Core := Array Nat

namespace Core

/-- Adds an item to a row that is ordered by item. -/
def insertItem (i : Nat) (d : Descent) : List (Nat × Descent) → List (Nat × Descent)
  | [] => [(i, d)]
  | (j, e) :: more =>
    if i < j then (i, d) :: (j, e) :: more
    else if i = j then (i, e.union d) :: more
    else (j, e) :: insertItem i d more

/-- How the constructs are expected that may come next. -/
def expected (items : Items) (core : Core) : List (Nat × Descent) :=
  core.size.fold
    (fun index _ found =>
      let item := items.withAhead core[index]! .empty
      match item.next? with
      | some symbol =>
        if isTerminal symbol then found
        else
          let descent : Descent :=
            match item.rule.steps[item.dot + 1]? with
            | some step => ⟨first step.symbol, 0⟩
            | none => ⟨.empty, 1 <<< index⟩
          insertItem symbol descent found
      | none => found)
    []

/-- How the constructs can begin that may come next. -/
def opened (b : Blueprint) (expected : List (Nat × Descent)) : Array (Option Descent) :=
  expected.foldl
    (fun found (symbol, outer) =>
      (b.edges.getD symbol #[]).foldl
        (fun found (inner, corner) =>
          found.modify inner fun old =>
            let new := outer.under corner
            some (match old with
              | some d => d.union new
              | none => new))
        found)
    (Array.replicate symbolCount none)

/-- The items behind each symbol. -/
def behind (b : Blueprint) (core : Core) : Array (List (Nat × Descent)) :=
  let rows := core.size.fold
    (fun index _ rows =>
      let i := core[index]!
      match (b.items.withAhead i .empty).next? with
      | some symbol => rows.modify symbol (insertItem (b.items.next i) ⟨.empty, 1 <<< index⟩)
      | none => rows)
    (Array.replicate symbolCount [])
  let opened := opened b (core.expected b.items)
  opened.size.fold
    (fun head _ rows =>
      match opened[head]! with
      | some descent =>
        (b.begins.getD head #[]).foldl
          (fun rows (symbol, i) => rows.modify symbol (insertItem i descent)) rows
      | none => rows)
    rows

end Core

end Restyle.Syntax.Automaton
