import Restyle.Change.Apply
import Restyle.Change.ImportStatement
import Restyle.Transform.Report

/-!
The pipeline: what a bundle does to a tree. The import comes first if the bundle needs it, and then
the modifications in order. All points of a modification are located before it is applied at any.
-/

namespace Restyle.SyntaxTree

/-- Applies the modification with that index in its bundle. `pending` are those after it. -/
def applyOne (t : SyntaxTree) (settings : TransformSettings) (index : Nat) (m : Modification)
    (pending : List Modification) : List Report.Entry × SyntaxTree :=
  match t.pointsBefore settings.actualClassAttributes m pending with
  | [] => ([Report.Entry.unmatched index m], t)
  | points =>
    let (outcomes, t) := t.applyAtAll settings m points
    (points.zipWith (Report.Entry.matched index m) outcomes, t)

/-- Applies modifications in order; the first has that index in its bundle. -/
def applyEach (t : SyntaxTree) (settings : TransformSettings) :
    Nat → List Modification → List Report.Entry × SyntaxTree
  | _, [] => ([], t)
  | index, m :: pending =>
    let (entries, t) := t.applyOne settings index m pending
    let (later, t) := applyEach t settings (index + 1) pending
    (entries ++ later, t)

/-- Adds the import of motions if it is asked for. -/
def importIfNeeded (t : SyntaxTree) (settings : TransformSettings) (needed : Bool) :
    Option ImportResult × SyntaxTree :=
  if needed then
    let (outcome, t) := t.requireImport settings
    (some outcome, t)
  else (none, t)

/-- Runs the pipeline on a tree. -/
def restyle (t : SyntaxTree) (settings : TransformSettings) (needsImport : Bool)
    (modifications : List Modification) : Report × SyntaxTree :=
  let (outcome, t) := t.importIfNeeded settings needsImport
  let (entries, t) := t.applyEach settings 0 modifications
  (⟨outcome, entries⟩, t)

end Restyle.SyntaxTree
