/-!
Outcomes: what came of a modification at one point. Nothing that a modification meets in a module
is an error; it is an outcome that the report names.
-/

namespace Restyle

/-- What came of a modification at a point, or of the search for its points. -/
inductive Outcome where
  | applied
  /-- No element has a name that contains the target. -/
  | noTargetMatched
  /-- The module has been that way before. -/
  | alreadyPresent
  /-- The element lacks the attribute that the modification changes. -/
  | missingAttribute
  /-- The attribute has no value, or one that is not a string. -/
  | unsupportedAttributeForm
  /-- The value of the modification cannot be written into a module. -/
  | invalidValue
  /-- The modification does not apply to points of that kind. -/
  | notApplicable
  deriving DecidableEq, Repr

namespace Outcome

def text : Outcome → String
  | applied => "applied"
  | noTargetMatched => "no-target-matched"
  | alreadyPresent => "already-present"
  | missingAttribute => "missing-attribute"
  | unsupportedAttributeForm => "unsupported-attribute-form"
  | invalidValue => "invalid-value"
  | notApplicable => "not-applicable"

/-- Whether the modification was left out, for any reason. -/
def isLeftOut : Outcome → Bool
  | noTargetMatched | missingAttribute | unsupportedAttributeForm | invalidValue
  | notApplicable => true
  | _ => false

/-- Whether the modification was left out although it had something to apply to. -/
def isUnsupported (o : Outcome) : Bool :=
  o.isLeftOut && o != noTargetMatched

end Outcome

/-- What came of the request for an import. -/
inductive ImportResult where
  | inserted
  | alreadyPresent
  deriving DecidableEq, Repr

def ImportResult.text : ImportResult → String
  | inserted => "inserted"
  | alreadyPresent => "already-present"

end Restyle
