import Restyle.Change.Assignment

/-!
Wrappers: elements that are put around others. `wrapElement` leaves alone what already has the
wrapper's name or stands in such a wrapper, so that a wrapper is put around an element only once.
-/

namespace Restyle

/-- Whether a text is the name of an element: names in markup with dots between them. -/
def isDottedName (s : String) : Bool :=
  (Text.split (· = '.') s).all isMarkupName

namespace SyntaxTree

/-- Puts a new element named `wrapper` around an element. -/
def wrapElement (t : SyntaxTree) (tag : Tag) (wrapper : String) : Outcome × SyntaxTree :=
  let wrapper := Text.trim wrapper
  if !isDottedName wrapper then (.invalidValue, t)
  else if tag.name = wrapper || t.isInside tag.element wrapper then (.alreadyPresent, t)
  else if (t.parent tag.element).isNone then (.notApplicable, t)
  else
    let (outer, t) := t.newElement wrapper
    match t.substitute? tag.element outer with
    | none => (.notApplicable, t)
    | some t => (.applied, t.insertAt outer 1 tag.element "")

end SyntaxTree

end Restyle
