import Restyle.Syntax.Automaton.Exploration
import Restyle.Syntax.Mode

/-!
Which states of one core may be taken for one. A state shows its `Face`: the tokens before which it
allows a move. Two states are at odds if a token that only one of them knows could be mistaken in
the other, or if they would move differently before a token that both know.
-/

namespace Restyle.Syntax.Automaton

open Grammar

/-- The tokens that depend on what stands around them. -/
def surroundings : TokenSet :=
  (Construct.escapeSequence :: .regexPattern :: contextualTokens).foldl
    (fun set c => set ||| TokenSet.single (constructNumber c))
    (TokenSet.single (terminalNumber (.spelled "||")))

/-- What a state shows. -/
structure Face where
  /-- The state with what may follow the productions that are complete. -/
  kernel : Kernel
  tokens : TokenSet

namespace Face

/-- Whether tokens could be mistaken in a state that does not know them. -/
def mistakes (unknown : TokenSet) (known : TokenSet) : Bool :=
  unknown ≠ .empty
    && (unknown &&& surroundings ≠ .empty || Mode.clash unknown known)

/-- The tokens that follow complete productions of one face only. -/
def contested (f g : Face) : TokenSet :=
  f.kernel.size.fold
    (fun index _ set =>
      if (f.kernel[index]!).next?.isNone then
        set ||| ((f.kernel[index]!).ahead ^^^ (g.kernel.getD index default).ahead)
      else set)
    .empty

/-- The tokens that are not read, though an item admits them: completing a production goes first. -/
def unread (f : Face) : TokenSet :=
  let followers := f.kernel.foldl (fun set i => if i.next?.isNone then set ||| i.ahead else set) 0
  let held := f.kernel.foldl
    (fun set i =>
      match i.next? with
      | some symbol => set ||| first symbol
      | none => set)
    TokenSet.empty
  ((held &&& followers).below terminals.size).foldl
    (fun set t =>
      if (f.kernel.actions t).any fun a => a matches .shift _ then set else set ||| .single t)
    .empty

/-- Whether two states of one core have to be kept apart. -/
def atOdds (f g : Face) : Bool :=
  mistakes (f.tokens.without g.tokens) g.tokens || mistakes (g.tokens.without f.tokens) f.tokens
    || (((f.contested g) &&& f.tokens &&& g.tokens).below terminals.size).any fun t =>
      f.kernel.actions t ≠ g.kernel.actions t

end Face

namespace Exploration

/-- What a state shows. -/
def face (b : Blueprint) (e : Exploration) (s : Situation) : Face :=
  let core := e.cores.getD s.core #[]
  let kernel : Kernel := Array.ofFn fun (index : Fin core.size) =>
    b.items.withAhead core[index] (e.sets.getD (s.aheads.getD index 0) .empty)
  ⟨kernel, kernel.valid⟩

/-- The followers of the complete productions of a state. -/
def completeAheads (b : Blueprint) (e : Exploration) (s : Situation) : List Nat :=
  let core := e.cores.getD s.core #[]
  (List.range core.size).filterMap fun index =>
    if (b.items.withAhead (core.getD index 0) .empty).next?.isNone then s.aheads[index]? else none

end Exploration

end Restyle.Syntax.Automaton
