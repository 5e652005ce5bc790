import Restyle.Bundle.Format
import Restyle.Change.Outcome
import Restyle.Search.Point

/-!
Reports: what came of every modification of a bundle, in order. A modification has an entry for each
of its points, or one that says that there are none.
-/

namespace Restyle

/-- What came of a modification at one point. -/
structure Report.Entry where
  /-- The index of the modification in its bundle. -/
  index : Nat
  action : ModificationAction
  target : String
  outcome : Outcome
  /-- The name of the element. -/
  element : Option String
  position : Option Position
  deriving DecidableEq, Repr

/-- How many entries a report has of each sort. -/
structure Report.Tally where
  applied : Nat := 0
  alreadyPresent : Nat := 0
  unmatched : Nat := 0
  unsupported : Nat := 0
  deriving DecidableEq, Repr

/-- What came of a bundle. -/
structure Report where
  /-- What came of the import, if the bundle needs one. -/
  importOutcome : Option ImportResult
  entries : List Report.Entry
  deriving DecidableEq, Repr

def Position.encode (p : Position) : Json :=
  .object [("line", .ofNat p.line), ("column", .ofNat p.column)]

namespace Report.Entry

/-- The entry of a modification at a point. -/
def matched (index : Nat) (m : Modification) (point : Point) (outcome : Outcome) : Entry :=
  ⟨index, m.action, m.target, outcome, point.tag?.map Tag.name,
    point.tag?.bind Tag.position⟩

/-- The entry of a modification that has no points. -/
def unmatched (index : Nat) (m : Modification) : Entry :=
  ⟨index, m.action, m.target, .noTargetMatched, none, none⟩

def encode (e : Entry) : Json :=
  .object ([("modificationIndex", .ofNat e.index), ("action", e.action.encode),
      ("target", .string e.target), ("outcome", .string e.outcome.text)]
    ++ Json.member? "element" (e.element.map .string)
    ++ Json.member? "position" (e.position.map Position.encode))

end Report.Entry

/-- The counts with one more outcome. What has no count of its own is unsupported. -/
def Report.Tally.add (s : Report.Tally) : Outcome → Report.Tally
  | .applied => { s with applied := s.applied + 1 }
  | .alreadyPresent => { s with alreadyPresent := s.alreadyPresent + 1 }
  | .noTargetMatched => { s with unmatched := s.unmatched + 1 }
  | _ => { s with unsupported := s.unsupported + 1 }

def Report.Tally.encode (s : Report.Tally) : Json :=
  .object [("applied", .ofNat s.applied), ("alreadyPresent", .ofNat s.alreadyPresent),
    ("unmatched", .ofNat s.unmatched), ("unsupported", .ofNat s.unsupported)]

namespace Report

/-- The entries of the modification with that index. -/
def entriesOf (r : Report) (index : Nat) : List Entry :=
  r.entries.filter fun e => e.index = index

/-- The entries of what was left out. -/
def leftOut (r : Report) : List Entry :=
  r.entries.filter fun e => e.outcome.isLeftOut

/-- Whether anything was left out although it had something to apply to. -/
def isLacking (r : Report) : Bool :=
  r.entries.any fun e => e.outcome.isUnsupported

def tally (r : Report) : Tally :=
  r.entries.foldl (fun s e => s.add e.outcome) {}

def encode (r : Report) : Json :=
  .object (Json.member? "import" (r.importOutcome.map fun o => .string o.text)
    ++ [("entries", .array (r.entries.map Entry.encode))])

end Report

end Restyle
