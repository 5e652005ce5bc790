import Restyle.Syntax.Automaton.Core

/-!
All states that the grammar gives rise to. A state is a core with what may follow each of its items.
`explore` starts with the state before a text and follows all arcs, so that states are numbered in
the order in which they are met.
-/

namespace Restyle.Syntax.Automaton

open Grammar

/-- A state: its core, and for each item the number of the set of what may follow it. -/
structure Situation where
  core : Nat
  aheads : Array Nat
  deriving BEq, Hashable, Inhabited

/-- What has been explored. -/
structure Exploration where
  cores : Array Core
  coreNumbers : Std.HashMap Core Nat
  /-- The arcs of the cores that have been expanded, which are the first ones. -/
  arcs : Array (Array Arc)
  sets : Array TokenSet
  setNumbers : Std.HashMap TokenSet Nat
  /-- The unions of two sets, all by number. -/
  unions : Std.HashMap (Nat × Nat) Nat
  situations : Array Situation
  situationNumbers : Std.HashMap Situation Nat
  /-- The states behind the arcs of the states that have been followed. -/
  targets : Array (Array Nat)

namespace Exploration

/-- The number of a set. -/
def numberSet (e : Exploration) (s : TokenSet) : Nat × Exploration :=
  match e.setNumbers[s]? with
  | some n => (n, e)
  | none =>
    let n := e.sets.size
    (n, { e with sets := e.sets.push s, setNumbers := e.setNumbers.insert s n })

/-- The number of the union of two sets. -/
def numberUnion (e : Exploration) (a b : Nat) : Nat × Exploration :=
  if a = b then (a, e)
  else
    match e.unions[(a, b)]? with
    | some n => (n, e)
    | none =>
      let (n, e) := e.numberSet (e.sets.getD a .empty ||| e.sets.getD b .empty)
      (n, { e with unions := e.unions.insert (a, b) n })

/-- The number of a core. -/
def numberCore (e : Exploration) (c : Core) : Nat × Exploration :=
  match e.coreNumbers[c]? with
  | some n => (n, e)
  | none =>
    let n := e.cores.size
    (n, { e with cores := e.cores.push c, coreNumbers := e.coreNumbers.insert c n })

/-- The number of a state. -/
def numberSituation (e : Exploration) (s : Situation) : Nat × Exploration :=
  match e.situationNumbers[s]? with
  | some n => (n, e)
  | none =>
    let n := e.situations.size
    (n, { e with
      situations := e.situations.push s
      situationNumbers := e.situationNumbers.insert s n })

/-- The arc to the core of some items. -/
def arcTo (e : Exploration) (symbol : Nat) (row : List (Nat × Descent)) : Arc × Exploration :=
  let (target, e) := e.numberCore (row.map Prod.fst).toArray
  let (descents, e) := row.foldl
    (fun ((descents, e) : Array (Nat × List Nat) × Exploration) (_, d) =>
      let (own, e) := e.numberSet d.own
      (descents.push (own, TokenSet.below (d.heirOf.log2 + 1) d.heirOf), e))
    (#[], e)
  (⟨symbol, target, descents⟩, e)

/-- Finds the arcs of the next core. -/
def expand (b : Blueprint) (e : Exploration) : Exploration :=
  let rows := (e.cores.getD e.arcs.size #[]).behind b
  let (arcs, e) := b.symbols.foldl
    (fun ((arcs, e) : Array Arc × Exploration) symbol =>
      match rows.getD symbol [] with
      | [] => (arcs, e)
      | row =>
        let (arc, e) := e.arcTo symbol row
        (arcs.push arc, e))
    (#[], e)
  { e with arcs := e.arcs.push arcs }

/-- Finds the arcs of the cores up to a number. The fuel is the number of cores that lack theirs. -/
def expandUpTo (b : Blueprint) (core : Nat) : Nat → Exploration → Exploration
  | 0, e => e
  | fuel + 1, e => if core < e.arcs.size then e else expandUpTo b core fuel (e.expand b)

/-- The state behind an arc. -/
def follow (e : Exploration) (s : Situation) (arc : Arc) : Nat × Exploration :=
  let (aheads, e) := arc.descents.foldl
    (fun ((aheads, e) : Array Nat × Exploration) (own, heirOf) =>
      let (ahead, e) := heirOf.foldl
        (fun ((ahead, e) : Nat × Exploration) index =>
          e.numberUnion ahead (s.aheads.getD index 0))
        (own, e)
      (aheads.push ahead, e))
    (#[], e)
  e.numberSituation ⟨arc.target, aheads⟩

/-- Follows the arcs of all states that have not been followed yet. The fuel bounds their number. -/
def followAll (b : Blueprint) : Nat → Exploration → Exploration
  | 0, e => e
  | fuel + 1, e =>
    match e.situations[e.targets.size]? with
    | none => e
    | some s =>
      let e := expandUpTo b s.core (s.core + 1) e
      let (targets, e) := (e.arcs.getD s.core #[]).foldl
        (fun ((targets, e) : Array Nat × Exploration) arc =>
          let (target, e) := e.follow s arc
          (targets.push target, e))
        (#[], e)
      followAll b fuel { e with targets := e.targets.push targets }

/-- How many states there may be. -/
def maxStates : Nat := 200000

/-- All states of a grammar. -/
def explore (b : Blueprint) : Exploration :=
  let start : Exploration := ⟨#[], ∅, #[], #[], ∅, ∅, #[], ∅, #[]⟩
  let (set, start) := start.numberSet (.single 0)
  let items := Kernel.initial.map fun i => b.items.find i.production i.dot
  let (core, start) := start.numberCore items
  let (_, start) := start.numberSituation ⟨core, items.map fun _ => set⟩
  followAll b maxStates start

end Exploration

end Restyle.Syntax.Automaton
