import Restyle.Syntax.Production
import Restyle.Syntax.TokenSet

/-!
What a symbol can start with: the terminals in front (`firsts`), the symbols at its left edge
(`corners`), and the productions that start with a symbol (`starts`).
-/

namespace Restyle.Syntax.Grammar

/-- Whether a symbol is a terminal. -/
def isTerminal (symbol : Nat) : Bool :=
  symbol < terminals.size

/-- The terminals that a symbol can start with, where those of constructs are `known`. -/
def firstIn (known : Array TokenSet) (symbol : Nat) : TokenSet :=
  if isTerminal symbol then .single symbol else known.getD symbol .empty

/-- Adds to the terminals that constructs can start with what their productions tell. -/
def refineFirsts (known : Array TokenSet) : Array TokenSet :=
  productions.foldl
    (fun known p =>
      match p.steps[0]? with
      | some step => known.modify p.head (·.union (firstIn known step.symbol))
      | none => known)
    known

/-- Repeats a step until it changes nothing. The fuel bounds the number of steps. -/
def settle {α : Type} [BEq α] (step : α → α) : Nat → α → α
  | 0, a => a
  | fuel + 1, a =>
    let b := step a
    if a == b then a else settle step fuel b

/-- The terminals that each construct can start with, by its number. Every production has a first
symbol, so these are all terminals in front. -/
def firsts : Array TokenSet :=
  settle refineFirsts symbolCount (Array.replicate symbolCount .empty)

/-- The terminals that a symbol can start with. -/
def first (symbol : Nat) : TokenSet :=
  firstIn firsts symbol

/-- How a symbol occurs at the left edge of another one: what can follow it there, and whether it
can also reach to the end, so that what follows the whole follows it. -/
structure Corner where
  ahead : TokenSet
  reaches : Bool
  deriving DecidableEq, Repr, Inhabited

namespace Corner

/-- Either of two ways to occur. -/
def union (a b : Corner) : Corner :=
  ⟨a.ahead.union b.ahead, a.reaches || b.reaches⟩

/-- How a symbol occurs at the left edge of a symbol that itself occurs so. -/
def compose (outer inner : Corner) : Corner :=
  ⟨if inner.reaches then inner.ahead.union outer.ahead else inner.ahead,
    outer.reaches && inner.reaches⟩

end Corner

/-- Adds a corner to a row of corners. -/
def addCorner (row : List (Nat × Corner)) (symbol : Nat) (corner : Corner) :
    List (Nat × Corner) :=
  match row with
  | [] => [(symbol, corner)]
  | (s, c) :: more =>
    if s = symbol then (s, c.union corner) :: more
    else (s, c) :: addCorner more symbol corner

/-- The constructs that stand first in the productions of each construct. -/
def directCorners : Array (List (Nat × Corner)) :=
  productions.foldl
    (fun rows p =>
      match p.steps[0]? with
      | some step =>
        if isTerminal step.symbol then rows
        else
          let corner : Corner :=
            match p.steps[1]? with
            | some next => ⟨first next.symbol, false⟩
            | none => ⟨.empty, true⟩
          rows.modify p.head (addCorner · step.symbol corner)
      | none => rows)
    (Array.replicate symbolCount [])

/-- Completes the corners of one construct, from those that have changed. -/
def growCorners : Nat → List Nat → Array (Option Corner) → Array (Option Corner)
  | 0, _, row => row
  | _, [], row => row
  | fuel + 1, symbol :: todo, row =>
    match row.getD symbol none with
    | none => growCorners fuel todo row
    | some outer =>
      let (todo, row) := (directCorners.getD symbol []).foldl
        (fun (todo, row) (inner, corner) =>
          let reached := outer.compose corner
          match row.getD inner none with
          | none => (inner :: todo, row.set! inner (some reached))
          | some old =>
            let new := old.union reached
            if new = old then (todo, row) else (inner :: todo, row.set! inner (some new)))
        (todo, row)
      growCorners fuel todo row

/-- The constructs at the left edge of a construct, itself included. -/
def cornersOf (symbol : Nat) : Array (Option Corner) :=
  growCorners (symbolCount * symbolCount) [symbol]
    ((Array.replicate symbolCount none).set! symbol (some ⟨.empty, true⟩))

/-- The constructs at the left edge of each construct. -/
def corners : Array (Array (Option Corner)) :=
  Array.ofFn fun (symbol : Fin symbolCount) =>
    if isTerminal symbol then #[] else cornersOf symbol

/-- How one construct occurs at the left edge of another. -/
def corner? (outer inner : Nat) : Option Corner :=
  (corners.getD outer #[]).getD inner none

/-- The constructs with productions that start with each symbol, and the places of these. -/
def starts : Array (Array (Nat × Array Nat)) :=
  productions.size.fold
    (fun i _ table =>
      let p := productions[i]!
      match p.steps[0]? with
      | some step =>
        table.modify step.symbol fun row =>
          match row.back? with
          | some (head, places) =>
            if head = p.head then row.pop.push (head, places.push i)
            else row.push (p.head, #[i])
          | none => row.push (p.head, #[i])
      | none => table)
    (Array.replicate symbolCount #[])

end Restyle.Syntax.Grammar
