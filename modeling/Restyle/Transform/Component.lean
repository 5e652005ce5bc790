import Restyle.Transform.Pipeline
import Restyle.Tree.Read

/-!
Transforming components: from text to text. A component fails only if its text is not a module;
everything else is told in the report.
-/

namespace Restyle

/-- How a transform ends. -/
inductive Verdict where
  | emitted
  /-- Something was left out although it had something to apply to. -/
  | partiallyApplied
  /-- The text is not a module. -/
  | failed
  deriving DecidableEq, Repr

/-- A transformed component. -/
structure Restyled where
  text : String
  report : Report
  verdict : Verdict
  deriving DecidableEq, Repr

/-- The verdict on a transform with that report. -/
def Report.verdict (r : Report) : Verdict :=
  if r.isLacking then .partiallyApplied else .emitted

namespace Verdict

def text : Verdict → String
  | emitted => "emitted"
  | partiallyApplied => "partially-applied"
  | failed => "failed"

end Verdict

namespace Restyled

/-- Whether something was left out. -/
def isIncomplete (o : Restyled) : Bool :=
  o.verdict = .partiallyApplied

/-- Transforms a component. -/
def ofSource (source : String) (bundle : Bundle) (settings : TransformSettings) :
    Except ParseError Restyled :=
  (SyntaxTree.ofSource source).map fun t =>
    let (report, t) := t.restyle settings bundle.needsMotion bundle.modifications
    ⟨t.render, report, report.verdict⟩

end Restyled

end Restyle
