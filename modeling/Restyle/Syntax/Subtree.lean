import Restyle.Syntax.Kernel
import Restyle.Syntax.Source

/-!
The trees that the parser builds. They have a node for every symbol, hidden ones included, and carry
what the parser needs to compare readings: what their errors cost, what their productions weigh, and
how many of their nodes will show.
-/

namespace Restyle.Syntax

open Grammar

/-! ### Costs -/

/-- What it costs to give up on what has been read. -/
def costPerRecovery : Nat := 500

/-- What it costs to supply a token. -/
def costPerMissing : Nat := 110

/-- What it costs to skip a node that shows. -/
def costPerSkippedTree : Nat := 100

/-- What it costs to skip a byte. -/
def costPerSkippedByte : Nat := 1

/-- What it costs to skip a line. -/
def costPerSkippedLine : Nat := 30

/-! ### Symbols of errors -/

/-- The symbol of text that is skipped, as a part of an error. -/
def skippedSymbol : Nat := symbolCount

/-- The symbol of an error. -/
def errorSymbol : Nat := symbolCount + 1

/-- Whether nodes of a symbol show. -/
def isVisible (symbol : Nat) : Bool :=
  if symbol = errorSymbol then true
  else if symbol < terminals.size then
    match terminals[symbol]? with
    | some (.spelled _) => true
    | some (.token c) => !c.isHidden
    | _ => false
  else if symbol < phraseNumber .error then !(Construct.ofNat (symbol - terminals.size)).isHidden
  else false

/-- What is known of a tree as a whole. -/
structure Facts where
  symbol : Nat
  /-- The production that was completed, for the names and slots of the children. -/
  production : Option Nat
  /-- Where the layout before the first token starts. -/
  lead : Nat
  start : Nat
  stop : Nat
  /-- Stands between the symbols of productions, as comments do. -/
  isExtra : Bool
  isMissing : Bool
  isKeyword : Bool
  cost : Nat
  weight : Int
  /-- How many nodes show directly below. -/
  visibleChildren : Nat
  /-- How many nodes show anywhere below. -/
  visibleBelow : Nat
  deriving Repr, Inhabited

/-- A tree under construction. -/
inductive Subtree where
  | node (facts : Facts) (children : List Subtree)
  deriving Repr, Inhabited

namespace Subtree

def facts : Subtree → Facts
  | node facts _ => facts

def children : Subtree → List Subtree
  | node _ children => children

def symbol (t : Subtree) : Nat := t.facts.symbol

def cost (t : Subtree) : Nat := t.facts.cost

def weight (t : Subtree) : Int := t.facts.weight

def isExtra (t : Subtree) : Bool := t.facts.isExtra

def isError (t : Subtree) : Bool := t.symbol = errorSymbol

def isVisible (t : Subtree) : Bool := Syntax.isVisible t.symbol

/-- How many nodes the tree shows, skipped text included. -/
def nodeCount (t : Subtree) : Nat :=
  t.facts.visibleBelow + (if t.isVisible then 1 else 0)
    + (if t.symbol = skippedSymbol then 1 else 0)

/-- A single token. -/
def leaf (symbol lead start stop : Nat) : Subtree :=
  node
    { symbol := symbol
      production := none
      lead := lead
      start := start
      stop := stop
      isExtra := symbol = 0
      isMissing := false
      isKeyword := false
      cost := 0
      weight := 0
      visibleChildren := 0
      visibleBelow := 0 }
    []

/-- A token that the text lacks. -/
def missing (symbol place : Nat) : Subtree :=
  match leaf symbol place place place with
  | node facts children =>
    node { facts with isMissing := true, cost := costPerMissing + costPerRecovery } children

/-- The same tree as one that stands between the symbols of productions, or not. -/
def withExtra (isExtra : Bool) : Subtree → Subtree
  | node facts children => node { facts with isExtra := isExtra } children

/-- The same token as another terminal. -/
def withSymbol (symbol : Nat) : Subtree → Subtree
  | node facts children => node { facts with symbol := symbol } children

/-- Adds to the weight. -/
def weighed (weight : Int) : Subtree → Subtree
  | node facts children => node { facts with weight := facts.weight + weight } children

/-- What it costs to skip a child as part of an error. -/
def skippingCost (child : Subtree) : Nat :=
  if child.isExtra || (child.isError && child.children.isEmpty) then 0
  else if child.isVisible then costPerSkippedTree
  else costPerSkippedTree * child.facts.visibleChildren

/-- The names under which the symbols of a production show. -/
def namesOf (production : Option Nat) : List (Option Construct) :=
  match production with
  | some p => (productions.getD p default).steps.toList.map Step.shown
  | none => []

/-- Counts the nodes that show, directly below and anywhere below. A child shows if its symbol does
or if the production names it. -/
def countVisible : List (Option Construct) → List Subtree → Nat × Nat
  | _, [] => (0, 0)
  | names, child :: more =>
    let (here, rest) :=
      if child.isExtra then (none, names) else (names.head?.join, names.tail)
    let (direct, below) := countVisible rest more
    if here.isSome || child.isVisible then
      (direct + 1, below + child.facts.visibleBelow + 1)
    else (direct + child.facts.visibleChildren, below + child.facts.visibleBelow)

/-- A node over children, of which there is at least one unless it is an error. -/
def build (source : Source) (symbol : Nat) (production : Option Nat) (place : Nat)
    (children : List Subtree) : Subtree :=
  let (lead, start, stop) :=
    match children with
    | [] => (place, place, place)
    | child :: _ =>
      (child.facts.lead, child.facts.start,
        (children.getLast?.map fun (c : Subtree) => c.facts.stop).getD place)
  let isFault : Bool := symbol = errorSymbol || symbol = skippedSymbol
  let inherited := children.foldl
    (fun n (c : Subtree) => if c.symbol = skippedSymbol then n else n + c.cost) 0
  let own :=
    if isFault then
      children.foldl (fun n c => n + skippingCost c) costPerRecovery
        + costPerSkippedByte * source.bytesBetween start stop
        + costPerSkippedLine * source.rowsBetween start stop
    else 0
  let (direct, below) := countVisible (namesOf production) children
  node
    { symbol := symbol
      production := production
      lead := lead
      start := start
      stop := stop
      isExtra := false
      isMissing := false
      isKeyword := false
      cost := inherited + own
      weight := children.foldl (fun w (c : Subtree) => w + c.weight) 0
      visibleChildren := direct
      visibleBelow := below }
    children

/-- The same children under another symbol. -/
def isEquivalent (source : Source) (t u : Subtree) : Bool :=
  let a := t.facts
  let b := u.facts
  a.symbol = b.symbol
    && ((0 < a.cost && 0 < b.cost)
      || (source.bytesBetween a.lead a.start = source.bytesBetween b.lead b.start
        && source.bytesBetween a.start a.stop = source.bytesBetween b.start b.stop
        && t.children.length = u.children.length && a.isExtra = b.isExtra))

/-! ### Choosing between two trees -/

mutual

/-- Orders trees by their symbols, then by their numbers of children, then by their children. -/
def order : Subtree → Subtree → Ordering
  | node f children, node g others =>
    (compare f.symbol g.symbol).then
      ((compare children.length others.length).then (orderAll children others))

/-- Orders rows of trees by the first pair that differs. -/
def orderAll : List Subtree → List Subtree → Ordering
  | t :: ts, u :: us => (order t u).then (orderAll ts us)
  | _, _ => .eq

end

/-- Whether the second of two trees over the same text is the better one: the one with fewer faults,
then with more weight, then with the earlier constructs. -/
def prefersSecond (t u : Subtree) : Bool :=
  if u.cost < t.cost then true
  else if t.cost < u.cost then false
  else if t.weight < u.weight then true
  else if u.weight < t.weight then false
  else if 0 < t.cost then true
  else order t u = .gt

end Subtree

end Restyle.Syntax
