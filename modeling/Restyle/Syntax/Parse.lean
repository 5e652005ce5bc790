import Restyle.Syntax.Recovery

/-!
The parser. In each round every reading takes the next token or more (`advance`); then the readings
are compared, worse ones are given up, equal ones joined, and if no token fits anywhere, recovery
starts (`condense`). The best reading of the whole text is the result (`parse`).
-/

namespace Restyle.Syntax

namespace Run

/-! ### One reading -/

/-- What the moves before a token have done to a reading. -/
inductive Outcome where
  /-- The token has been dealt with. -/
  | done
  /-- Only completions were possible; the first new top of the last one, if it made one. -/
  | completed (last : Option Nat)
  /-- There was no move. -/
  | stuck

/-- Makes the moves that a state allows before a token. -/
def makeMoves (version state : Nat) (lookahead : Subtree) (outcome : Outcome) :
    List Move → Run Outcome
  | [] => return outcome
  | move :: more =>
    match move with
    | .shift true => makeMoves version state lookahead outcome more
    | .shift false => do
      let next ← goto state lookahead.symbol
      onStack (·.push version (some (lookahead.withExtra false)) next)
      return .done
    | .shiftExtra => do
      onStack (·.push version (some (lookahead.withExtra true)) state)
      return .done
    | .reduce p => do
      let last := (← reduce version (.ofProduction p)) <|>
        match outcome with
        | .completed last => last
        | _ => none
      makeMoves version state lookahead (.completed last) more
    | .accept => do
      accept version lookahead
      return .done
    | .recover => do
      recover version lookahead
      return .done

/-- Makes moves until a token has been dealt with. A keyword that does not fit is taken as an
identifier if that fits. The fuel bounds the number of completions. -/
def consume (version : Nat) : Nat → Subtree → Run Unit
  | 0, _ => onStack (·.halt version)
  | fuel + 1, lookahead => do
    let state ← looking (·.state version)
    match ← makeMoves version state lookahead .stuck (← moves state lookahead.symbol) with
    | .done => return
    | .completed (some last) =>
      onStack (·.renumber last version)
      consume version fuel lookahead
    | .completed none => onStack (·.halt version)
    | .stuck =>
      let isWord := lookahead.facts.isKeyword && lookahead.symbol ≠ Token.identifier
      if isWord && !(← moves state Token.identifier).isEmpty then
        consume version fuel (lookahead.withSymbol Token.identifier)
      else if state = Stack.errorState then recover version lookahead
      else onStack (·.pause version lookahead)

/-- How many completions there may be before a token, for each node of the stack and for each
construct. -/
def consumeFuel : Run Nat := do
  return Construct.count * (8 + (← looking (·.nodes.size)))

/-- Reads the next token. -/
def advance (version : Nat) : Run Unit := do
  let lookahead ← lex version
  consume version (← consumeFuel) lookahead

/-! ### All readings -/

/-- Compares a reading with those before it, from number `other` on. Answers whether it is still
there, and its number. The fuel bounds the number of comparisons. -/
def compareEarlier (own : Standing) : (fuel other version : Nat) → Run (Option Nat)
  | 0, _, version => return some version
  | fuel + 1, other, version => do
    if version ≤ other then return some version
    else
      let merge : Run Bool :=
        modifyGet fun m =>
          match m.stack.merge? m.source other version with
          | some stack => (true, { m with stack := stack })
          | none => (false, m)
      match (← standing other).prefer own with
      | .onlyLeft =>
        onStack (·.remove version)
        return none
      | .left | .either =>
        if ← merge then return none else compareEarlier own fuel (other + 1) version
      | .right =>
        if ← merge then return none
        else
          onStack (·.exchange version other)
          compareEarlier own fuel (other + 1) version
      | .onlyRight =>
        onStack (·.remove other)
        compareEarlier own fuel other (version - 1)

/-- Compares all readings, from a number on. Answers the least cost of a reading that is not in
error. The fuel bounds the number of readings looked at. -/
def compareAll : (fuel version : Nat) → Option Nat → Run (Option Nat)
  | 0, _, least => return least
  | fuel + 1, version, least => do
    let size ← looking (·.size)
    if size ≤ version then return least
    else if ← looking (·.isHalted version) then
      onStack (·.remove version)
      compareAll fuel version least
    else
      let own ← standing version
      let least :=
        if own.isInError then least
        else some (min own.cost (least.getD own.cost))
      match ← compareEarlier own (2 * size) 0 version with
      | some v => compareAll fuel (v + 1) least
      | none => compareAll fuel version least

/-- Lets the first waiting reading recover if there is no better one, and forgets the others that
wait. The fuel bounds the number of readings. -/
def resumeFirst : (fuel version : Nat) → Bool → Option Nat → Run (Option Nat)
  | 0, _, _, least => return least
  | fuel + 1, version, goesOn, least => do
    let m ← get
    if m.stack.size ≤ version then return least
    else
      match (m.stack.head version).status with
      | .paused lookahead =>
        if !goesOn && m.accepted < Machine.maxVersions then
          let cost := m.stack.cost version
          onStack (·.resume version)
          let size := m.stack.size
          handleError version lookahead
          -- the versions that recovery has added are left alone
          resumeUpTo fuel size (version + 1) (some cost)
        else
          onStack (·.remove version)
          resumeFirst fuel version goesOn least
      | _ => resumeFirst fuel (version + 1) true least
where
  /-- Forgets the readings that wait, up to a number. -/
  resumeUpTo : (fuel size version : Nat) → Option Nat → Run (Option Nat)
  | 0, _, _, least => return least
  | fuel + 1, size, version, least => do
    if size ≤ version then return least
    else if ← looking (·.isPaused version) then
      onStack (·.remove version)
      resumeUpTo fuel (size - 1) version least
    else resumeUpTo fuel size (version + 1) least

/-- Keeps the best readings only. Answers the least cost of one of them. -/
def condense : Run (Option Nat) := do
  let size ← looking (·.size)
  let least ← compareAll (2 * size + 1) 0 none
  onStack fun s => { s with heads := s.heads.extract 0 Machine.maxVersions }
  resumeFirst (size + 1) 0 false least

/-- Lets a reading go on until it is further than any before it, or as far for all but the first
one. The fuel bounds the number of tokens. -/
def advanceFar (version : Nat) : Nat → Nat → Run Nat
  | 0, furthest => return furthest
  | fuel + 1, furthest => do
    if ← looking (·.isActive version) then
      advance version
      let place ← looking (·.place version)
      if furthest < place || (0 < version && place = furthest) then return place
      else advanceFar version fuel furthest
    else return furthest

/-- Lets all readings go on, from a number on. The fuel bounds the number of readings. -/
def advanceAll : (fuel version furthest : Nat) → Run Nat
  | 0, _, furthest => return furthest
  | fuel + 1, version, furthest => do
    if (← looking (·.size)) ≤ version then return furthest
    else
      let tokens := (← get).source.size + 2
      let furthest ← advanceFar version tokens furthest
      advanceAll fuel (version + 1) furthest

/-- Reads the text in rounds. The fuel bounds their number. -/
def rounds : (fuel furthest : Nat) → Run Unit
  | 0, _ => return
  | fuel + 1, furthest => do
    if (← looking (·.size)) = 0 then return
    else
      let furthest ← advanceAll 64 0 furthest
      let least ← condense
      match (← get).finished with
      | some t =>
        match least with
        | some cost => if t.cost < cost then return else rounds fuel furthest
        | none => return
      | none => rounds fuel furthest

end Run

/-- How many rounds there may be for each character. -/
def roundsPerChar : Nat := 16

/-- The best reading of a text, along the states of the merged automaton or along states that are
built as they are met. It tells of faults if the grammar does not admit the text. -/
def parse (merged : Option Automaton.Merged) (source : Source) : Option Subtree :=
  ((Run.rounds (roundsPerChar * (source.size + 16)) 0).run (.start merged source)).2.finished

end Restyle.Syntax
