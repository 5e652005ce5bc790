import Restyle.Syntax.Automaton.Merged
import Restyle.Syntax.Stack

/-!
The parser's memory and its elementary moves: looking at the next token, reading it, and completing
a production. The parser follows the merged automaton, or builds states when they are first met;
these are known by number from then on.
-/

namespace Restyle.Syntax

open Grammar

/-- What the parser knows. -/
structure Machine where
  source : Source
  /-- The merged automaton, if the parser follows it. Its first state has the number `1`. -/
  merged : Option Automaton.Merged
  /-- The states met so far, by number. State `0` is that of skipping text. -/
  kernels : Array Kernel
  /-- The terminals before which each state allows a move. -/
  valids : Array TokenSet
  numbers : Std.HashMap Kernel Nat
  /-- The states behind one more symbol, by state and symbol. -/
  gotos : Std.HashMap (Nat × Nat) Nat
  stack : Stack
  /-- The best reading of the whole text so far. -/
  finished : Option Subtree
  /-- How many readings of the whole text have been found. -/
  accepted : Nat

/-- A computation with the parser's memory. -/
abbrev Run := StateM Machine

namespace Machine

/-- How many tops the stack may have between two rounds. -/
def maxVersions : Nat := 6

/-- How many more tops the stack may have within a round. -/
def maxOverflow : Nat := 4

/-- How often a symbol may be changed into another one at once. -/
def maxChanges : Nat := 8

/-- The memory before a text. -/
def start (merged : Option Automaton.Merged) (source : Source) : Machine :=
  { source := source
    merged := merged
    kernels := #[#[], Kernel.initial]
    valids := #[Token.anywhere, Kernel.initial.valid.union Token.layout]
    numbers := (∅ : Std.HashMap Kernel Nat).insert Kernel.initial Stack.initialState
    gotos := ∅
    stack := Stack.start Stack.initialState
    finished := none
    accepted := 0 }

/-- The items of a state. -/
def kernel (m : Machine) (state : Nat) : Kernel :=
  match m.merged with
  | some a => (a.getD (state - 1) default).kernel
  | none => m.kernels.getD state #[]

/-- The terminals before which a state allows a move. -/
def valid (m : Machine) (state : Nat) : TokenSet :=
  match m.merged with
  | some _ =>
    if state = Stack.errorState then Token.anywhere else (m.kernel state).valid.union Token.layout
  | none => m.valids.getD state .empty

/-- The tokens that are looked for in a state. -/
def mode (m : Machine) (state : Nat) : TokenSet :=
  match m.merged with
  | some _ => if state = Stack.errorState then Token.anywhere else Mode.of (m.valid state)
  | none => m.valid state

end Machine

namespace Run

/-! ### States -/

/-- Changes the stack. -/
def onStack (f : Stack → Stack) : Run Unit :=
  modify fun m => { m with stack := f m.stack }

/-- Looks at the stack. -/
def looking {α : Type} (f : Stack → α) : Run α :=
  return f (← get).stack

/-- The number of a state. -/
def numberOf (k : Kernel) : Run Nat :=
  modifyGet fun m =>
    match m.numbers[k]? with
    | some n => (n, m)
    | none =>
      let n := m.kernels.size
      (n, { m with
        kernels := m.kernels.push k
        valids := m.valids.push (k.valid.union Token.layout)
        numbers := m.numbers.insert k n })

/-- The state behind one more symbol, and the state of skipping if there is none. -/
def goto (state symbol : Nat) : Run Nat := do
  let m ← get
  match m.merged, m.gotos[(state, symbol)]? with
  | some a, _ =>
    return ((a.goto? (state - 1) Machine.maxChanges symbol).map (· + 1)).getD Stack.errorState
  | none, some n => return n
  | none, none =>
    let k := (m.kernel state).after symbol
    let n ← if k.isEmpty then pure Stack.errorState else numberOf k
    modify fun m => { m with gotos := m.gotos.insert (state, symbol) n }
    return n

/-- A move of the parser, skipping text included. -/
inductive Move where
  | shift (repeats : Bool)
  /-- Reads a token that stands between the symbols of productions. -/
  | shiftExtra
  | reduce (production : Nat)
  | accept
  | recover
  deriving DecidableEq, Repr

/-- The moves that a state allows before a terminal. -/
def moves (state symbol : Nat) : Run (List Move) := do
  if terminals.size ≤ symbol then return []
  else if state = Stack.errorState then
    return if Token.layout.has symbol then [.shiftExtra]
      else if Token.anywhere.has symbol then [.recover] else []
  else
    let actions := ((← get).kernel state).actions symbol
    return if actions.isEmpty && Token.layout.has symbol then [.shiftExtra]
      else actions.map fun
        | .shift repeats => .shift repeats
        | .reduce p => .reduce p
        | .accept => .accept

/-! ### Tokens -/

/-- The next token behind a top, as a tree. -/
def lex (version : Nat) : Run Subtree := do
  let m ← get
  let place := m.stack.place version
  let state := m.stack.state version
  let valid := m.valid state
  let front := m.source.frontOf place
  let rest := m.source.after (place + front)
  match Token.next valid (m.mode state) (m.stack.hasAdvanced version) rest with
  | .token t =>
    let start := place + front + t.lead
    match Subtree.leaf t.terminal place start (start + t.length) with
    | .node facts children => return .node { facts with isKeyword := t.isKeyword } children
  | .unknown lead length =>
    let start := place + front + lead
    return .leaf errorSymbol place start (start + length)

/-! ### Completing -/

/-- The trees without those at the end that stand between symbols, and these. -/
def splitExtras (trees : List Subtree) : List Subtree × List Subtree :=
  let extras := (trees.reverse.takeWhile Subtree.isExtra).reverse
  (trees.take (trees.length - extras.length), extras)

/-- A symbol to be made of the trees on top. -/
structure Reduction where
  symbol : Nat
  production : Option Nat
  count : Nat
  weight : Int
  deriving DecidableEq, Repr

/-- What completing a production does. -/
def Reduction.ofProduction (p : Nat) : Reduction :=
  let rule := productions.getD p default
  ⟨rule.head, some p, rule.steps.size, rule.weight⟩

/-- The better of the slices that end at one top: its tree and what goes back onto the stack. -/
def chooseSlice (source : Source) (r : Reduction) (place : Nat) (first : List Subtree)
    (others : List Slice) : Subtree × List Subtree :=
  let made (production : Option Nat) (trees : List Subtree) : Subtree × List Subtree :=
    let (children, extras) := splitExtras trees
    (.build source r.symbol production place children, extras)
  others.foldl
    (fun best slice =>
      if best.1.prefersSecond (made none slice.trees).1 then made r.production slice.trees
      else best)
    (made r.production first)

/-- Joins a new top to one of those before it, other than the one that it comes from. Tells whether
that was possible. -/
def joinEarlier (version new : Nat) : Run Bool :=
  modifyGet fun m =>
    let joined := (List.range new).findSome? fun v =>
      if v = version then none else m.stack.merge? m.source v new
    match joined with
    | some stack => (true, { m with stack := stack })
    | none => (false, m)

/-- Pushes the trees that reductions of one version make. `removed` counts the tops that are gone
since the slices were taken. The fuel is the number of slices. -/
def pushSlices (version halted : Nat) (r : Reduction) : Nat → Nat → List Slice → Run Unit
  | 0, _, _ => return
  | _, _, [] => return
  | fuel + 1, removed, slice :: more => do
    let same := more.takeWhile fun other => other.version = slice.version
    let rest := more.dropWhile fun other => other.version = slice.version
    let new := slice.version - removed
    if Machine.maxVersions + Machine.maxOverflow + halted < new then
      onStack (·.remove new)
      pushSlices version halted r fuel (removed + 1) rest
    else
      let place ← looking (·.place new)
      let (tree, extras) := chooseSlice (← get).source r place slice.trees same
      let state ← goto (← looking (·.state new)) r.symbol
      onStack (·.push new (some (tree.weighed r.weight)) state)
      extras.forM fun extra => onStack (·.push new (some extra) state)
      let joined ← joinEarlier version new
      pushSlices version halted r fuel (if joined then removed + 1 else removed) rest

/-- Makes a symbol of the trees on a top. Answers the first new top, if one is left. -/
def reduce (version : Nat) (r : Reduction) : Run (Option Nat) := do
  let before ← looking (·.size)
  let halted ← looking fun s => ((List.range s.size).filter s.isHalted).length
  let slices ← modifyGet fun m =>
    let (stack, slices) := m.stack.popCount version r.count
    (slices, { m with stack := stack })
  pushSlices version halted r slices.length 0 slices
  return if before < (← looking (·.size)) then some before else none

end Run

end Restyle.Syntax
