import Restyle.Syntax.Competition

/-!
Recovery: how the parser goes on behind a token that does not fit. It completes what could be
completed before any token, tries to supply a missing token, and then either goes back to a state
below in which the token fits, or skips the token. What is skipped becomes an error in the tree.
-/

namespace Restyle.Syntax

open Grammar

namespace Run

/-- The moves of a state before one terminal, or before any. -/
def movesBefore (state : Nat) (symbol : Option Nat) : Run (List Move) :=
  match symbol with
  | some s => moves state s
  | none => do
    let mut found := []
    for s in List.range (terminals.size - 1) do
      found := found ++ (← moves state (s + 1))
    return found

/-- The reductions of trees among some moves, one for each symbol and number of trees. -/
def reductionsAmong (found : List Move) : List Reduction :=
  found.foldl
    (fun met move =>
      match move with
      | .reduce p =>
        let r := Reduction.ofProduction p
        if r.count = 0 || met.any fun other => other.symbol = r.symbol && other.count = r.count then
          met
        else met ++ [r]
      | _ => met)
    []

/-- Whether some moves read a token. -/
def canShift (found : List Move) : Bool :=
  found.any fun
    | .shift repeats => !repeats
    | .recover => true
    | _ => false

/-- Joins a new top to one of the tops from a number on. Tells whether that was possible. -/
def joinAmong (first version : Nat) : Run Bool :=
  modifyGet fun m =>
    let joined := (List.range version).findSome? fun v =>
      if v < first then none else m.stack.merge? m.source v version
    match joined with
    | some stack => (true, { m with stack := stack })
    | none => (false, m)

/-- Completes whatever can be completed before a terminal, or before any, in one version and in
those that come of it. Tells whether the terminal can be read then. The fuel bounds the number of
versions looked at, and `turn` counts them. -/
def completeFrom (starting first : Nat) (symbol : Option Nat) :
    (fuel turn version : Nat) → Bool → Run Bool
  | 0, _, _, fits => return fits
  | fuel + 1, turn, version, fits => do
    let size ← looking (·.size)
    if size ≤ version then return fits
    else if ← joinAmong first version then
      completeFrom starting first symbol fuel (turn + 1) version fits
    else
      let found ← movesBefore (← looking (·.state version)) symbol
      let mut last : Option Nat := none
      for r in reductionsAmong found do
        last ← reduce version r
      let next := if version = starting then size else version + 1
      if canShift found then completeFrom starting first symbol fuel (turn + 1) next true
      else
        match if turn < Machine.maxVersions then last else none with
        | some v =>
          onStack (·.renumber v version)
          completeFrom starting first symbol fuel (turn + 1) version fits
        | none =>
          if symbol.isSome then onStack (·.remove version)
          completeFrom starting first symbol fuel (turn + 1) next fits

/-- How many versions are looked at. -/
def completionFuel : Nat := 256

/-- Completes whatever can be completed before a terminal, or before any. -/
def completeAll (version : Nat) (symbol : Option Nat) : Run Bool := do
  completeFrom version (← looking (·.size)) symbol completionFuel 0 version false

/-! ### Missing tokens -/

/-- The state behind a terminal that a state could read. -/
def stateBehind? (state symbol : Nat) : Run (Option Nat) := do
  match (← moves state symbol).getLast? with
  | some (.shift _) =>
    let next ← goto state symbol
    return if next = Stack.errorState || next = state then none else some next
  | _ => return none

/-- The terminal that must be readable behind a missing token. At the end of the text any will
do. -/
def ahead? (lookahead : Subtree) : Option Nat :=
  if lookahead.symbol = Token.finish then none else some lookahead.symbol

/-- Supplies the first terminal after which the token ahead lets the parser go on. -/
def supply (version place : Nat) (lookahead : Subtree) : List Nat → Run Bool
  | [] => return false
  | symbol :: more => do
    let state ← looking (·.state version)
    match ← stateBehind? state symbol with
    | none => supply version place lookahead more
    | some next =>
      match (← moves next lookahead.symbol).head? with
      | some (.reduce _) =>
        let new ← looking (·.size)
        onStack fun s => (s.copy version).push new (some (.missing symbol place)) next
        if ← completeAll new (ahead? lookahead) then return true
        else supply version place lookahead more
      | _ => supply version place lookahead more

/-! ### Going back -/

/-- Makes an error of what lies above a state, in the versions that are in this state. The fuel is
the number of slices. -/
def wrapSlices (goal : Nat) : Nat → Option Nat → List Slice → Run Bool
  | 0, previous, _ => return previous.isSome
  | _, previous, [] => return previous.isSome
  | fuel + 1, previous, slice :: more => do
    if previous = some slice.version then wrapSlices goal fuel previous more
    else if (← looking (·.state slice.version)) ≠ goal then
      onStack (·.halt slice.version)
      wrapSlices goal fuel previous more
    else
      let faults ← modifyGet fun m =>
        let (stack, faults) := m.stack.popError slice.version
        (faults, { m with stack := stack })
      let skipped := faults.flatMap Subtree.children
      let (trees, extras) := splitExtras (skipped ++ slice.trees)
      let source := (← get).source
      if !trees.isEmpty then
        let fault := (Subtree.build source errorSymbol none 0 trees).withExtra true
        onStack (·.push slice.version (some fault) goal)
      extras.forM fun extra => onStack (·.push slice.version (some extra) goal)
      wrapSlices goal fuel (some slice.version) more

/-- Goes back to a state below. Tells whether that was possible. -/
def goBack (version depth goal : Nat) : Run Bool := do
  let slices ← modifyGet fun m =>
    let (stack, slices) := m.stack.popCount version depth
    (slices, { m with stack := stack })
  wrapSlices goal slices.length none slices

/-- Goes back to the nearest state below in which a token fits, unless a better reading exists. -/
def goBackTo (version before count cost : Nat) (lookahead : Subtree) : List Depth → Run Bool
  | [] => return false
  | entry :: more => do
    let place ← looking (·.place version)
    if entry.state = Stack.errorState || entry.place = place then
      goBackTo version before count cost lookahead more
    else
      let depth := if 0 < count then entry.depth + 1 else entry.depth
      let wouldMerge ← looking fun s => (List.range before).any fun v =>
        s.state v = entry.state && s.place v = place
      if wouldMerge then goBackTo version before count cost lookahead more
      else
        let source := (← get).source
        let newCost := cost + entry.depth * costPerSkippedTree
          + source.bytesBetween entry.place place * costPerSkippedByte
          + source.rowsBetween entry.place place * costPerSkippedLine
        if ← isBeaten version newCost then return false
        else if (← moves entry.state lookahead.symbol).isEmpty then
          goBackTo version before count cost lookahead more
        else if ← goBack version depth entry.state then return true
        else goBackTo version before count cost lookahead more

/-- Forgets the tops from a number on that do not go on. The fuel is the number of tops. -/
def removeIdle : Nat → Nat → Run Unit
  | 0, _ => return
  | fuel + 1, version => do
    if (← looking (·.size)) ≤ version then return
    else if ← looking (·.isActive version) then removeIdle fuel (version + 1)
    else
      onStack (·.remove version)
      removeIdle fuel version

/-! ### Ends -/

/-- Takes a reading of the whole text as the result, if there is no better one. -/
def accept (version : Nat) (lookahead : Subtree) : Run Unit := do
  onStack (·.push version (some lookahead) Stack.initialState)
  let slices ← modifyGet fun m =>
    let (stack, slices) := m.stack.popAll version
    (slices, { m with stack := stack })
  for slice in slices do
    let (tail, rest) := slice.trees.reverse.span Subtree.isExtra
    match rest with
    | [] => pure ()
    | tree :: before =>
      let children := before.reverse ++ tree.children ++ tail.reverse
      modify fun m =>
        let root := Subtree.build m.source tree.symbol tree.facts.production 0 children
        let best :=
          match m.finished with
          | some old => if old.prefersSecond root then root else old
          | none => root
        { m with finished := some best, accepted := m.accepted + 1 }
  match slices with
  | slice :: _ => onStack (·.remove slice.version)
  | [] => pure ()
  onStack (·.halt version)

/-- Skips a token: it joins what has been skipped before it. -/
def skip (version count : Nat) (lookahead : Subtree) : Run Unit := do
  let source := (← get).source
  let token :=
    if Token.layout.has lookahead.symbol then lookahead.withExtra true else lookahead
  let skipped := Subtree.build source skippedSymbol none 0 [token]
  if 0 < count then
    let slices ← modifyGet fun m =>
      let (stack, slices) := m.stack.popCount version 1
      (slices, { m with stack := stack })
    match slices with
    | [] => onStack (·.push version (some skipped) Stack.errorState)
    | slice :: _ =>
      onStack fun s =>
        { s with heads := s.heads.extract 0 (slice.version + 1) }
      onStack (·.renumber slice.version version)
      let joined := Subtree.build source skippedSymbol none 0 (slice.trees ++ [skipped])
      onStack (·.push version (some joined) Stack.errorState)
  else onStack (·.push version (some skipped) Stack.errorState)

/-! ### Recovery -/

/-- Goes on behind a token that does not fit. -/
def recover (version : Nat) (lookahead : Subtree) : Run Unit := do
  let before ← looking (·.size)
  onStack (·.settleCount version)
  let count ← looking (·.countSinceError version)
  let cost ← looking (·.cost version)
  let summary ← looking fun s => (s.head version).summary.toList
  let wentBack ←
    if lookahead.isError then pure false
    else goBackTo version before count cost lookahead summary
  removeIdle (← looking (·.size)) before
  let source := (← get).source
  if lookahead.symbol = Token.finish then
    let place ← looking (·.place version)
    let fault := Subtree.build source errorSymbol none place []
    onStack (·.push version (some fault) Stack.initialState)
    accept version lookahead
  else if wentBack && Machine.maxVersions < (← looking (·.size)) then
    onStack (·.halt version)
  else
    let facts := lookahead.facts
    let newCost := cost + costPerSkippedTree
      + source.bytesBetween facts.lead facts.stop * costPerSkippedByte
      + source.rowsBetween facts.lead facts.stop * costPerSkippedLine
    if ← isBeaten version newCost then onStack (·.halt version)
    else skip version count lookahead

/-- Gives up the states of the versions that a failed one has turned into, from a number on, after
trying to supply a missing token once. The fuel is the number of tops. -/
def giveUp (version first last place : Nat) (lookahead : Subtree) :
    Nat → Nat → Bool → Run Unit
  | 0, _, _ => return
  | fuel + 1, v, supplied => do
    if last ≤ v then return
    else
      let supplied ←
        if supplied then pure true
        else supply v place lookahead ((List.range (terminals.size - 1)).map (· + 1))
      onStack (·.push v none Stack.errorState)
      let next := if v = version then first else v + 1
      giveUp version first last place lookahead fuel next supplied

/-- Starts the recovery of a version before a token that does not fit. -/
def handleError (version : Nat) (lookahead : Subtree) : Run Unit := do
  let first ← looking (·.size)
  let _ ← completeAll version none
  let last ← looking (·.size)
  let place ← looking (·.place version)
  giveUp version first last place lookahead (last + 1) version false
  for _ in List.range (last - first) do
    modify fun m =>
      match m.stack.merge? m.source version first with
      | some stack => { m with stack := stack }
      | none => m
  onStack (·.recordSummary version)
  recover version lookahead

end Run

end Restyle.Syntax
