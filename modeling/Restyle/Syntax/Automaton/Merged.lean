import Restyle.Syntax.Automaton.Face

/-!
The automaton with few states. States of one core are merged unless they are at odds, or lead to
states that are kept apart.

`classes` sorts the states of each core, in their order, into the first class in which they are at
odds with none. `refine` splits classes until the states of a class lead to the same classes.
`Merged.ofExploration` makes one state of each class: what follows its items is what follows them in
any of its states.
-/

namespace Restyle.Syntax.Automaton

open Grammar

/-! ### Classes -/

/-- States sorted into classes. -/
structure Sorting where
  /-- The classes, by core and by what follows the complete productions of their states. -/
  classes : Std.HashMap (Nat × List Nat) Nat
  /-- The classes of each core with the different faces of their states. -/
  members : Std.HashMap Nat (List (Nat × List Face))
  /-- The tokens that the states of each class do not read, though an item admits them. -/
  unread : Array TokenSet

namespace Sorting

/-- No states. -/
def empty : Sorting := ⟨∅, ∅, #[]⟩

/-- Puts a state into the first class of its core in which it is at odds with none. -/
def insert (b : Blueprint) (e : Exploration) (c : Sorting) (s : Situation) : Nat × Sorting :=
  let key := (s.core, e.completeAheads b s)
  match c.classes[key]? with
  | some n => (n, c)
  | none =>
    let face := e.face b s
    let members := c.members.getD s.core []
    match members.find? fun (_, faces) => !faces.any fun f => f.atOdds face with
    | some (n, _) =>
      let members := members.map fun (m, faces) => if m = n then (m, face :: faces) else (m, faces)
      (n, { c with
        classes := c.classes.insert key n
        members := c.members.insert s.core members })
    | none =>
      let n := c.unread.size
      (n, ⟨c.classes.insert key n, c.members.insert s.core (members ++ [(n, [face])]),
        c.unread.push face.unread⟩)

end Sorting

/-- The class of each state, and how many classes there are. -/
structure Partition where
  classes : Array Nat
  count : Nat
  /-- The states that each state leads to. -/
  targets : Array (Array Nat)

namespace Partition

/-- The states sorted by whether they are at odds. -/
def ofExploration (b : Blueprint) (e : Exploration) : Partition :=
  let (classes, sorting) := e.situations.foldl
    (fun ((classes, sorting) : Array Nat × Sorting) s =>
      let (n, sorting) := sorting.insert b e s
      (classes.push n, sorting))
    (#[], Sorting.empty)
  let targets := classes.mapIdx fun n k =>
    let unread := sorting.unread.getD k .empty
    let arcs := e.arcs.getD (e.situations.getD n default).core #[]
    (e.targets.getD n #[]).zipIdx.filterMap fun (target, index) =>
      if unread.has (arcs.getD index default).symbol then none else some target
  ⟨classes, sorting.unread.size, targets⟩

/-- Splits classes whose states lead to different classes. Classes are numbered in the order of
their first states. -/
def split (p : Partition) : Partition :=
  let (classes, met) := p.targets.size.fold
    (fun n _ ((classes, met) : Array Nat × Std.HashMap (Array Nat) Nat) =>
      let key := (p.targets[n]!.map fun t => p.classes.getD t 0).push (p.classes.getD n 0)
      match met[key]? with
      | some k => (classes.push k, met)
      | none => (classes.push met.size, met.insert key met.size))
    ((#[], ∅) : Array Nat × Std.HashMap (Array Nat) Nat)
  ⟨classes, met.size, p.targets⟩

/-- Splits classes as long as that makes more of them. The fuel bounds the number of rounds. -/
def refine : Nat → Partition → Partition
  | 0, p => p
  | fuel + 1, p =>
    let new := p.split
    if new.count = p.count then new else refine fuel new

end Partition

/-! ### The merged automaton -/

/-- A state of the merged automaton. -/
structure MergedState where
  kernel : Kernel
  /-- The states behind one more symbol. -/
  arcs : Array (Nat × Nat)
  /-- The symbol that the last one becomes in any case, without leaving a trace. -/
  becomes? : Option Nat
  deriving Inhabited

/-- The constructs that are no more than a choice between others. -/
def choices : List Nat :=
  [.destructuringPattern, .anyPropertyName, .formalParameter, .moduleExportName, .tupleMember,
    .importIdentifier].map phraseNumber

/-- Whether completing an item changes one symbol into another one without leaving a trace. -/
def isTraceless (usual : Array (Option Construct)) (i : Item) : Bool :=
  let head := i.rule.head
  (choices.contains head || (phraseNumber .error < head && head < wholeNumber))
    && i.rule.weight = 0
    && match i.rule.steps.toList with
      | [step] => i.dot = 1 && step.slot = none && unusualName usual step = none
      | _ => false

/-- The symbol that all items of a state change the last one into, without leaving a trace. -/
def change? (usual : Array (Option Construct)) (k : Kernel) : Option Nat :=
  match k[0]? with
  | none => none
  | some i =>
    let head := i.rule.head
    if k.all fun j => j.rule.head = head && isTraceless usual j then some head else none

namespace MergedState

/-- The state of a class, from its first state. -/
def ofSituation (b : Blueprint) (usual : Array (Option Construct)) (e : Exploration)
    (p : Partition) (n : Nat) (s : Situation) : MergedState :=
  let targets := e.targets.getD n #[]
  let kernel := (e.face b s).kernel
  { kernel := kernel
    arcs := (e.arcs.getD s.core #[]).mapIdx fun index arc =>
      (arc.symbol, p.classes.getD (targets.getD index 0) 0)
    becomes? := change? usual kernel }

/-- Takes in what follows the items in one more state of the class. -/
def addAheads (m : MergedState) (e : Exploration) (s : Situation) : MergedState :=
  { m with kernel := m.kernel.mapIdx fun index i =>
      { i with ahead := i.ahead ||| e.sets.getD (s.aheads.getD index 0) .empty } }

/-- The state behind one more symbol. -/
def target? (m : MergedState) (symbol : Nat) : Option Nat :=
  (m.arcs.find? fun (s, _) => s = symbol).map Prod.snd

end MergedState

/-- The merged automaton. The state before a text is the first one. -/
abbrev Merged := Array MergedState

namespace Merged

/-- One state for each class. -/
def ofPartition (b : Blueprint) (usual : Array (Option Construct)) (e : Exploration)
    (p : Partition) : Merged :=
  e.situations.size.fold
    (fun n _ merged =>
      let s := e.situations[n]!
      let k := p.classes.getD n 0
      if k < merged.size then merged.modify k (·.addAheads e s)
      else merged.push (.ofSituation b usual e p n s))
    #[]

/-- How often classes may be split. -/
def maxRounds : Nat := 1000

/-- The merged automaton of some productions. -/
def ofProductions (ps : Array Production) : Merged :=
  let b := Blueprint.ofProductions ps
  let e := Exploration.explore b
  ofPartition b (usualNames ps) e ((Partition.ofExploration b e).refine maxRounds)

/-- The state behind one more symbol. Where that symbol would be changed into another one at once,
it is the state behind that one. The fuel bounds the number of changes. -/
def goto? (a : Merged) (state : Nat) : (fuel symbol : Nat) → Option Nat
  | 0, symbol => (a.getD state default).target? symbol
  | fuel + 1, symbol =>
    ((a.getD state default).target? symbol).map fun next =>
      match (a.getD next default).becomes? with
      | some other => (goto? a state fuel other).getD next
      | none => next

end Merged

end Restyle.Syntax.Automaton
