import Restyle.Syntax.Grammar

/-!
Productions: the rules of the grammar as plain rows of symbols. Choices become separate productions,
a repetition becomes a symbol of its own that stands for one or more of what is repeated, and the
constructs that are inlined are replaced by their alternatives.

Symbols are numbers. Terminals come first, the end of the text before all others, then constructs,
then repetitions, and last the symbol that stands for a whole text.
-/

namespace Restyle.Syntax

/-- What a text is made of, as far as the grammar is concerned. -/
inductive Terminal where
  /-- The end of the text. -/
  | finish
  | spelled (spelling : String)
  | token (construct : Construct)
  deriving DecidableEq, Repr, Inhabited, Hashable

/-- One symbol of a production. -/
structure Step where
  symbol : Nat
  binding : Binding
  side : Option Side
  /-- The name under which the symbol shows here. -/
  shown : Option Construct
  slot : Option Role
  deriving DecidableEq, Repr, Inhabited, Hashable

/-- One way to write a symbol. -/
structure Production where
  head : Nat
  steps : Array Step
  /-- What the production counts where a text can be read in several ways. -/
  weight : Int
  deriving DecidableEq, Repr, Inhabited

namespace Rule

/-- The spellings in a rule, in order. -/
def spellings : Rule → List String
  | blank | the _ => []
  | spelled s => [s]
  | seq r s | alt r s => r.spellings ++ s.spellings
  | many r | bound _ _ r | weighed _ r | shown _ r | slot _ r => r.spellings

/-- What is repeated in a rule, inner repetitions first. -/
def repeated : Rule → List Rule
  | blank | spelled _ | the _ => []
  | seq r s | alt r s => r.repeated ++ s.repeated
  | many r => r.repeated ++ [r]
  | bound _ _ r | weighed _ r | shown _ r | slot _ r => r.repeated

end Rule

namespace Grammar

/-- A list without its later repetitions. -/
def distinct {α : Type} [DecidableEq α] (xs : List α) : List α :=
  xs.foldl (fun seen x => if x ∈ seen then seen else seen ++ [x]) []

/-- The constructs that have rules, with them. -/
def rules : List (Construct × Rule) :=
  Construct.all.filterMap fun c => (rule? c).map fun r => (c, r)

/-- The terminals in the order of their numbers. -/
def terminals : Array Terminal :=
  let met := Construct.all.flatMap fun c =>
    match rule? c with
    | some r => r.spellings.map Terminal.spelled
    | none => if c ∈ tokens then [.token c] else []
  (distinct ([.finish, .token .identifier] ++ met
    ++ contextualTokens.map Terminal.token)).toArray

/-- What is repeated anywhere in the grammar. -/
def repetitions : Array Rule :=
  (distinct (rules.flatMap fun (_, r) => r.repeated)).toArray

/-- The number of a terminal. -/
def terminalNumber (t : Terminal) : Nat :=
  terminals.idxOf t

/-- The number of a construct that has a rule. -/
def phraseNumber (c : Construct) : Nat :=
  terminals.size + c.ctorIdx

/-- The number of a repetition. -/
def repetitionNumber (r : Rule) : Nat :=
  terminals.size + Construct.count + repetitions.idxOf r

/-- The number of the symbol that stands for a whole text. -/
def wholeNumber : Nat :=
  terminals.size + Construct.count + repetitions.size

/-- How many symbols there are. -/
def symbolCount : Nat :=
  wholeNumber + 1

/-- The number of a construct, be it a phrase or a token. -/
def constructNumber (c : Construct) : Nat :=
  if c ∈ tokens || c ∈ contextualTokens then terminalNumber (.token c) else phraseNumber c

end Grammar

/-! ### Expansion -/

/-- A row of symbols that a rule allows. -/
structure Expansion where
  steps : List Step
  weight : Int

namespace Expansion

/-- The weight that is further from zero, the first one of equals. -/
def heavier (v w : Int) : Int :=
  if v.natAbs < w.natAbs then w else v

/-- One row behind another. -/
def append (e f : Expansion) : Expansion :=
  ⟨e.steps ++ f.steps, heavier e.weight f.weight⟩

/-- Changes the last symbol of a row. -/
def mapLast (f : Step → Step) (e : Expansion) : Expansion :=
  match e.steps.reverse with
  | [] => e
  | last :: before => { e with steps := (f last :: before).reverse }

end Expansion

namespace Rule

/-- The rows of symbols that a rule allows. The symbols take what `context` says about them, and
what a part says about its symbols holds between them: the last symbol of a part binds like its
surroundings, unless the part is the end of the whole rule. -/
def expand (context : Step) (atEnd : Bool) : Rule → List Expansion
  | blank => [⟨[], 0⟩]
  | spelled s =>
    [⟨[{ context with symbol := Grammar.terminalNumber (.spelled s) }], 0⟩]
  | the c => [⟨[{ context with symbol := Grammar.constructNumber c }], 0⟩]
  | seq r s =>
    let firsts := expand context false r
    let seconds := expand context atEnd s
    firsts.flatMap fun e => seconds.map e.append
  | alt r s => expand context atEnd r ++ expand context atEnd s
  | many r => [⟨[{ context with symbol := Grammar.repetitionNumber r }], 0⟩]
  | bound binding side r =>
    let inner := { context with binding := binding, side := side <|> context.side }
    (expand inner atEnd r).map fun e =>
      if atEnd then e
      else e.mapLast fun step =>
        { step with
          binding := context.binding
          side := if side.isSome then context.side else step.side }
  | weighed w r =>
    (expand context atEnd r).map fun e => { e with weight := Expansion.heavier w e.weight }
  | shown c r => expand { context with shown := some c } atEnd r
  | slot role r => expand { context with slot := some role } atEnd r

/-- The rows of symbols that a rule on its own allows. -/
def rows (r : Rule) : List Expansion :=
  expand ⟨0, .unsaid, none, none, none⟩ true r

end Rule

namespace Grammar

/-- The rows of the constructs that are inlined, by the number of the construct. -/
def inlinedRows : List (Nat × List Expansion) :=
  rules.filterMap fun (c, r) => if isInlined c then some (phraseNumber c, r.rows) else none

/-- The symbols of an alternative in place of the construct that it belongs to. -/
def inPlaceOf (step : Step) (row : Expansion) : Expansion :=
  let steps := row.steps.map fun s =>
    { s with shown := step.shown <|> s.shown, slot := step.slot <|> s.slot }
  Expansion.mapLast
    (fun last =>
      { last with
        binding := if last.binding = .unsaid then step.binding else last.binding
        side := last.side <|> step.side })
    { row with steps := steps }

/-- Replaces the constructs that are inlined. They nest only to a small depth. -/
def inlineSteps : Nat → List Step → List Expansion
  | 0, steps => [⟨steps, 0⟩]
  | depth + 1, steps =>
    steps.foldr
      (fun step rest =>
        let here : List Expansion :=
          match inlinedRows.lookup step.symbol with
          | some rows =>
            rows.flatMap fun row =>
              let row := inPlaceOf step row
              (inlineSteps depth row.steps).map fun e =>
                { e with weight := Expansion.heavier row.weight e.weight }
          | none => [⟨[step], 0⟩]
        here.flatMap fun e => rest.map e.append)
      [⟨[], 0⟩]

/-- How deep constructs that are inlined nest. -/
def inlineDepth : Nat := 4

/-- The productions of a symbol from the rows of its rule, shorter ones first. -/
def productionsOf (head : Nat) (rows : List Expansion) : List Production :=
  let all := rows.flatMap fun row =>
    (inlineSteps inlineDepth row.steps).map fun e =>
      (⟨head, e.steps.toArray, Expansion.heavier row.weight e.weight⟩ : Production)
  let before (p q : Production) : Bool :=
    p.weight < q.weight || (p.weight = q.weight && p.steps.size ≤ q.steps.size)
  (distinct all).mergeSort before

/-- All productions, those of one symbol together, symbols in their order. -/
def productions : Array Production :=
  let phrases := rules.flatMap fun (c, r) =>
    if isInlined c then [] else productionsOf (phraseNumber c) r.rows
  let repeated := repetitions.toList.flatMap fun r =>
    let again : Step := ⟨repetitionNumber r, .unsaid, none, none, none⟩
    productionsOf (repetitionNumber r) (⟨[again, again], 0⟩ :: r.rows)
  let whole : Production :=
    ⟨wholeNumber, #[⟨phraseNumber .program, .unsaid, none, none, none⟩], 0⟩
  (phrases ++ repeated ++ [whole]).toArray

end Grammar

end Restyle.Syntax
