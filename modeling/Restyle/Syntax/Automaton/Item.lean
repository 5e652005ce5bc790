import Restyle.Syntax.Kernel
import Std.Data.HashMap

/-!
Items by number. An item is a place in a production: how far it has been read. Reading forgets: of
the symbols that have been read, only that counts which completing the production will show. Items
that differ in nothing else are twins, and the first of them stands for all.
-/

namespace Restyle.Syntax

namespace Automaton

open Grammar

/-- For each symbol the name under which it usually shows: the one that it is given most often, if
it shows under its own nowhere. -/
def usualNames (ps : Array Production) : Array (Option Construct) :=
  let uses := ps.foldr
    (fun p uses => p.steps.foldr (fun s uses => uses.modify s.symbol (s.shown :: ·)) uses)
    (Array.replicate symbolCount [])
  uses.map fun names =>
    if names.contains none then none
    else
      let given := names.filterMap id
      given.eraseDups.foldl
        (fun best c => if best.any fun b => given.count c ≤ given.count b then best else some c)
        none

/-- The name under which a symbol shows in a production, unless it is the usual one. -/
def unusualName (usual : Array (Option Construct)) (s : Step) : Option Construct :=
  if s.shown = usual.getD s.symbol none then none else s.shown

/-- What still counts of a production that has been read up to some symbol. -/
structure Outlook where
  head : Nat
  weight : Int
  binding : Binding
  side : Option Side
  /-- The names, unless usual, and slots of the symbols that have been read. -/
  places : List (Option Construct × Option Role)
  /-- The symbols that have been read, if one of them brings named parts of its own. -/
  symbols : List Nat
  rest : List Step
  deriving BEq, Hashable

namespace Outlook

/-- The constructs without a name of their own whose parts have slots. -/
def bringingParts : List Nat :=
  [.fromClause, .forHeader, .signature, .initializer, .extendedClass, .moduleTail, .parameterName,
    .importedMember, .importedCall, .queriedMember, .queriedSubscript, .queriedCall,
    .queriedInstantiation, .signedNumber].map phraseNumber

/-- The outlook on a production that has been read up to its symbol number `dot`. -/
def of (usual : Array (Option Construct)) (p : Production) (dot : Nat) : Outlook :=
  let read := (p.steps.extract 0 dot).toList
  let symbols := read.map Step.symbol
  { head := p.head
    weight := p.weight
    binding := (read.getLast?.map Step.binding).getD .unsaid
    side := read.getLast?.bind Step.side
    places := read.map fun s => (unusualName usual s, s.slot)
    symbols := if symbols.any bringingParts.contains then symbols else []
    rest := (p.steps.extract dot p.steps.size).toList }

end Outlook

/-- The items of all productions, those of one production together. -/
structure Items where
  /-- The number of the first item of each production. -/
  firsts : Array Nat
  /-- The production of each item. -/
  owners : Array Nat
  /-- The item that stands for each item. -/
  twins : Array Nat

namespace Items

/-- The items of some productions. -/
def ofProductions (ps : Array Production) : Items :=
  let usual := usualNames ps
  let (items, _) := ps.foldl
    (fun (items, met) p =>
      let start := items.owners.size
      let items := { items with firsts := items.firsts.push start }
      (List.range (p.steps.size + 1)).foldl
        (fun ((items, met) : Items × Std.HashMap Outlook Nat) dot =>
          let outlook := Outlook.of usual p dot
          let number := start + dot
          let twin := (met[outlook]?).getD number
          ({ items with
              owners := items.owners.push (items.firsts.size - 1)
              twins := items.twins.push twin },
            if twin = number then met.insert outlook number else met))
        (items, met))
    ((⟨#[], #[], #[]⟩, ∅) : Items × Std.HashMap Outlook Nat)
  items

/-- The item that stands for a place in a production. -/
def find (items : Items) (production dot : Nat) : Nat :=
  items.twins.getD (items.firsts.getD production 0 + dot) 0

def production (items : Items) (i : Nat) : Nat :=
  items.owners.getD i 0

def dot (items : Items) (i : Nat) : Nat :=
  i - items.firsts.getD (items.production i) 0

/-- The item with what may follow its production. -/
def withAhead (items : Items) (i : Nat) (ahead : TokenSet) : Item :=
  ⟨items.production i, items.dot i, ahead⟩

/-- The item behind one more symbol. -/
def next (items : Items) (i : Nat) : Nat :=
  items.twins.getD (i + 1) 0

end Items

end Automaton

end Restyle.Syntax
