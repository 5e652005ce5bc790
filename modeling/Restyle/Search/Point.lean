import Restyle.Bundle.Basic
import Restyle.Search.Tag

/-!
Points: where modifications apply.

`points` answers every point of a modification, in document order. `pointsBefore` leaves out the
elements that modifications to come would put there as wrappers, so that a second run over a
module sees the elements that the first one saw.
-/

namespace Restyle

/-- Where a modification applies. -/
inductive Point where
  /-- The statements of the module. -/
  | moduleTop
  /-- The tag of an element. -/
  | openingTag (tag : Tag)
  /-- The attribute of a tag that holds its classes. -/
  | classAttribute (tag : Tag) (id : NodeId)
  deriving DecidableEq, Repr

/-- The tag of a point at an element. -/
def Point.tag? : Point → Option Tag
  | moduleTop => none
  | openingTag tag => some tag
  | classAttribute tag _ => some tag

namespace SyntaxTree

/-- The point at which an action applies to a tag. -/
def pointAt (t : SyntaxTree) (classAttributes : List String) (action : ModificationAction)
    (tag : Tag) : Point :=
  match action with
  | .addClass =>
    match t.classHolder? classAttributes tag.node with
    | some id => .classAttribute tag id
    | none => .openingTag tag
  | .addProp | .wrapElement => .openingTag tag

/-- The points of a modification, in document order. -/
def points (t : SyntaxTree) (classAttributes : List String) (m : Modification) : List Point :=
  (t.tagsNamed m.target).map (t.pointAt classAttributes m.action)

/-- Whether a modification would wrap an element of the kind found below `element` into an element
such as this one. -/
def isMadeBy (t : SyntaxTree) (element : NodeId) (m : Modification) : Bool :=
  m.action = .wrapElement && t.wraps element (Text.trim m.value) m.target

/-- The points of a modification, except those at elements that one of the `pending` modifications
would have made. -/
def pointsBefore (t : SyntaxTree) (classAttributes : List String) (m : Modification)
    (pending : List Modification) : List Point :=
  (t.points classAttributes m).filter fun point =>
    point.tag?.all fun tag => !pending.any (t.isMadeBy tag.element)

end SyntaxTree

end Restyle
