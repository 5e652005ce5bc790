import Restyle.Syntax.Lookahead
import Restyle.Syntax.Precedence

/-!
The states of the parser. A state knows how far each production that may be under way has been read,
and what may follow it (`Item`). Only productions of which something has been read are kept (the
`Kernel`); those that are about to begin follow from the left edges of the next symbols.

* `Kernel.after` is the state behind one more symbol.
* `Kernel.actions` are the moves that a state allows before a terminal. Where reading on and
  completing a production compete, the tighter rule wins, then the side on which the rules group;
  what is left are real choices.
-/

namespace Restyle.Syntax

open Grammar

/-- A production that has been read up to its symbol number `dot`, and the terminals that may follow
it. -/
structure Item where
  production : Nat
  dot : Nat
  ahead : TokenSet
  deriving BEq, Hashable, Repr, Inhabited

namespace Item

def rule (i : Item) : Production :=
  productions.getD i.production default

/-- The symbol to be read next, unless the production is complete. -/
def next? (i : Item) : Option Nat :=
  (i.rule.steps[i.dot]?).map Step.symbol

/-- The symbol that was read last. -/
def last? (i : Item) : Option Step :=
  if i.dot = 0 then none else i.rule.steps[i.dot - 1]?

/-- How tightly the part binds that has been read. -/
def binding (i : Item) : Binding :=
  (i.last?.map Step.binding).getD .unsaid

/-- The side on which the part groups that has been read. -/
def side (i : Item) : Option Side :=
  i.last?.bind Step.side

/-- What may follow the next symbol. -/
def aheadOfNext (i : Item) : TokenSet :=
  match i.rule.steps[i.dot + 1]? with
  | some step => first step.symbol
  | none => i.ahead

/-- Whether a terminal may come next in the production. -/
def admits (i : Item) (t : Nat) : Bool :=
  match i.next? with
  | some symbol => (first symbol).has t
  | none => false

end Item

/-- The productions under way, ordered by how much of them has been read and by their numbers. -/
abbrev Kernel := Array Item

namespace Kernel

/-- The state before a text. Only a whole module may be empty, so this is the one state in which a
production without symbols can be complete. -/
def initial : Kernel :=
  let empty := (Array.range productions.size).filter fun p =>
    (productions.getD p default).steps.isEmpty
  (empty.push (productions.size - 1)).map fun p => ⟨p, 0, .single 0⟩

/-- The constructs that may come next, each with what may follow it. -/
def expected (k : Kernel) : List (Nat × TokenSet) :=
  k.foldl
    (fun found i =>
      match i.next? with
      | some symbol =>
        if isTerminal symbol then found
        else
          let ahead := i.aheadOfNext
          match found.lookup symbol with
          | some _ =>
            found.map fun (s, set) => if s = symbol then (s, set.union ahead) else (s, set)
          | none => (symbol, ahead) :: found
      | none => found)
    []

/-- What may follow a construct that begins where others are expected. -/
def aheadOf? (expected : List (Nat × TokenSet)) (head : Nat) : Option TokenSet :=
  expected.foldl
    (fun found (symbol, ahead) =>
      match corner? symbol head with
      | some corner =>
        let reached := if corner.reaches then corner.ahead.union ahead else corner.ahead
        some ((found.getD .empty).union reached)
      | none => found)
    none

/-- The productions that begin with a symbol, behind it. -/
def begun (k : Kernel) (symbol : Nat) : Kernel :=
  let expected := k.expected
  (starts.getD symbol #[]).foldl
    (fun items (head, places) =>
      match aheadOf? expected head with
      | some ahead => places.foldl (fun items p => items.push ⟨p, 1, ahead⟩) items
      | none => items)
    #[]

/-- The state behind one more symbol. -/
def after (k : Kernel) (symbol : Nat) : Kernel :=
  k.foldl
    (fun items i =>
      if i.next? = some symbol then items.push { i with dot := i.dot + 1 } else items)
    (k.begun symbol)

/-- The terminals before which a state allows a move. -/
def valid (k : Kernel) : TokenSet :=
  k.foldl
    (fun set i =>
      match i.next? with
      | some symbol => set.union (first symbol)
      | none => set.union i.ahead)
    .empty

end Kernel

/-! ### Moves -/

/-- A move of the parser. -/
inductive Action where
  /-- Reads the terminal. Within a repetition the terminal may also belong to the next part, and
  then reading on is no move of its own. -/
  | shift (repeats : Bool)
  /-- Completes a production. -/
  | reduce (production : Nat)
  | accept
  deriving DecidableEq, Repr, Inhabited

/-- The completions that have the best claim so far. -/
structure Completions where
  actions : List Action
  contender : Contender
  sides : List (Option Side)

namespace Completions

def none : Completions := ⟨[], ⟨.unsaid, []⟩, []⟩

/-- Takes in one more completion. A tighter one drives out those before it, a looser one is left
out. -/
def add (c : Completions) (i : Item) : Completions :=
  let head := i.rule.head
  let action := if head = wholeNumber then Action.accept else .reduce i.production
  let joined : Completions :=
    ⟨c.actions ++ [action], ⟨i.binding, c.contender.heads ++ [head]⟩, c.sides ++ [i.side]⟩
  if c.actions.isEmpty then joined
  else
    match Contender.compare ⟨i.binding, [head]⟩ c.contender with
    | .gt => ⟨[action], ⟨i.binding, [head]⟩, [i.side]⟩
    | .eq => joined
    | .lt => c

end Completions

namespace Kernel

/-- Whether reading a terminal and completing a production compete within one repetition only. -/
def isRepetition (k : Kernel) (t : Nat) : Bool :=
  let rivals := k.filter fun i =>
    i.rule.head ≠ wholeNumber
      && (if i.next?.isSome then 0 < i.dot && i.admits t else i.ahead.has t)
  match rivals[0]? with
  | some i =>
    phraseNumber .error < i.rule.head && rivals.all fun j => j.rule.head = i.rule.head
  | none => false

/-- The moves that a state allows before a terminal. -/
def actions (k : Kernel) (t : Nat) : List Action :=
  let done := k.foldl
    (fun c i => if i.next?.isNone && i.ahead.has t then c.add i else c) Completions.none
  let held := k.filter (·.admits t)
  if held.isEmpty then done.actions
  else if done.actions.isEmpty then [.shift false]
  else if k.isRepetition t then done.actions ++ [.shift true]
  else
    let orders := (held.filter (0 < ·.dot)).map fun i =>
      Contender.compare ⟨i.binding, [i.rule.head]⟩ done.contender
    let more := orders.contains .gt
    let less := orders.contains .lt
    if more && !less then [.shift false]
    else if less && !more then done.actions
    else if !more && !less then
      if done.sides.all (· = some .left) then done.actions
      else if done.sides.all (· = some .right) then [.shift false]
      else done.actions ++ [.shift false]
    else done.actions ++ [.shift false]

end Kernel

end Restyle.Syntax
