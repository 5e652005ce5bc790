import Restyle.Transform.Component

/-!
Batches: many components under the same settings. Each is transformed on its own, and the results
are in the order of the jobs.
-/

namespace Restyle

/-- A component that is to be transformed. -/
structure Job where
  name : String
  source : String
  bundle : Bundle
  deriving Repr

/-- What came of a job. -/
structure Job.Result where
  name : String
  output : Except ParseError Restyled

/-- How many components of a batch ended in each way. -/
structure BatchTally where
  components : Nat
  emitted : Nat
  partiallyApplied : Nat
  failed : Nat
  deriving DecidableEq, Repr

namespace Job

def Result.verdict (r : Result) : Verdict :=
  match r.output with
  | .ok output => output.verdict
  | .error _ => .failed

/-- Transforms the component. -/
def run (job : Job) (settings : TransformSettings) : Result :=
  ⟨job.name, Restyled.ofSource job.source job.bundle settings⟩

/-- Transforms every component of a batch. -/
def runAll (jobs : List Job) (settings : TransformSettings) : List Result :=
  jobs.map fun job => job.run settings

end Job

namespace BatchTally

/-- How many results end in a verdict. -/
def count (results : List Job.Result) (verdict : Verdict) : Nat :=
  results.countP fun r => r.verdict = verdict

def ofResults (results : List Job.Result) : BatchTally where
  components := results.length
  emitted := count results .emitted
  partiallyApplied := count results .partiallyApplied
  failed := count results .failed

def encode (s : BatchTally) : Json :=
  .object [("components", .ofNat s.components), ("emitted", .ofNat s.emitted),
    ("partiallyApplied", .ofNat s.partiallyApplied), ("failed", .ofNat s.failed)]

end BatchTally

end Restyle
