import Restyle.Change.Wrapper
import Restyle.Search.Point
import Restyle.Settings.Basic

/-!
Applying a modification at a point.
-/

namespace Restyle.SyntaxTree

/-- Applies a modification at a point, which is one that the modification has in some tree. -/
def applyAt (t : SyntaxTree) (settings : TransformSettings) (m : Modification) (point : Point) :
    Outcome × SyntaxTree :=
  match m.action, point with
  | _, .moduleTop => (.notApplicable, t)
  | .addClass, .classAttribute _ id => t.addClass id m.value
  | .addClass, .openingTag _ => (.missingAttribute, t)
  | .addProp, .openingTag tag | .addProp, .classAttribute tag _ =>
    t.addProp tag.node m.value settings.actualSynthesizeMissingProps
  | .wrapElement, .openingTag tag | .wrapElement, .classAttribute tag _ =>
    t.wrapElement tag m.value

/-- Applies a modification at several points, one after the other. -/
def applyAtAll (t : SyntaxTree) (settings : TransformSettings) (m : Modification) :
    List Point → List Outcome × SyntaxTree
  | [] => ([], t)
  | point :: points =>
    let (outcome, t) := t.applyAt settings m point
    let (outcomes, t) := applyAtAll t settings m points
    (outcome :: outcomes, t)

end Restyle.SyntaxTree
