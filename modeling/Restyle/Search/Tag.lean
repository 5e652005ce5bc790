import Restyle.Text.Blank
import Restyle.Text.Lowercase
import Restyle.Tree.Basic

/-!
Tags: the nodes that carry an element's name and attributes.

* `tagAt?` describes a tag; fragments have no name and are no tags;
* `tagsNamed` finds the tags whose name contains a target, whatever the case of either;
* `onlyElement?` is the one element that an element holds, and `isInside` and `wraps` walk up and
  down along chains of such elements.
-/

namespace Restyle

/-- A tag and the element that it belongs to. -/
structure Tag where
  /-- The opening tag, or the element itself if it closes itself. -/
  node : NodeId
  element : NodeId
  /-- The element's name as it is written. -/
  name : String
  /-- Where the tag was read; none if it was made. -/
  position : Option Position
  deriving DecidableEq, Repr

namespace SyntaxTree

/-! ### Names -/

/-- The element that a node is the tag of. -/
def elementOfTag? (t : SyntaxTree) (id : NodeId) : Option NodeId :=
  match t.kind id with
  | .selfClosingElement => some id
  | .openingTag => t.parent id
  | _ => none

/-- Describes a tag. There is no answer for fragments and for nodes that are no tags. -/
def tagAt? (t : SyntaxTree) (id : NodeId) : Option Tag :=
  match t.childIn? id .name, t.elementOfTag? id with
  | some name, some element => some ⟨id, element, t.text name, (t.node id).position⟩
  | _, _ => none

/-- The tag that carries an element's name. -/
def tagOfElement? (t : SyntaxTree) (id : NodeId) : Option NodeId :=
  match t.kind id with
  | .selfClosingElement => some id
  | .element => t.childIn? id .openTag
  | _ => none

/-- The name of an element. -/
def nameOfElement? (t : SyntaxTree) (id : NodeId) : Option String :=
  (t.tagOfElement? id).bind fun tag => (t.tagAt? tag).map Tag.name

/-- A target as it is compared with names. -/
def needle (target : String) : String :=
  Text.lowercase (Text.trim target)

/-- Whether a name contains a target that is ready to be compared. -/
def nameContains (name needle : String) : Bool :=
  Text.contains (Text.lowercase name) needle

/-- The tags below the root whose name contains `target`, in document order. A target that says
nothing is found nowhere. -/
def tagsNamed (t : SyntaxTree) (target : String) : List Tag :=
  if (needle target).isEmpty then []
  else
    ((t.descendants root).filter fun id => (t.kind id).isTag).filterMap fun id =>
      (t.tagAt? id).filter fun m => nameContains m.name (needle target)

/-! ### Attributes -/

/-- The name of an attribute. -/
def nameOfAttribute? (t : SyntaxTree) (id : NodeId) : Option String :=
  (t.childIn? id .name).map t.text

/-- The first attribute of a tag whose name passes a test. -/
def findAttribute? (t : SyntaxTree) (tag : NodeId) (test : String → Bool) : Option NodeId :=
  (t.childrenThatAre tag .attribute).find? fun a => (t.nameOfAttribute? a).any test

/-- The first attribute of a tag with that name. -/
def attribute? (t : SyntaxTree) (tag : NodeId) (name : String) : Option NodeId :=
  t.findAttribute? tag (· == name)

/-- The first attribute of a tag that holds classes. -/
def classHolder? (t : SyntaxTree) (classAttributes : List String) (tag : NodeId) :
    Option NodeId :=
  t.findAttribute? tag classAttributes.contains

/-! ### Chains of sole children -/

/-- Whether a child of an element belongs to its content: it is neither a tag of the element nor
blank text. -/
def isContent (t : SyntaxTree) (id : NodeId) : Bool :=
  t.role id != some .openTag && t.role id != some .closeTag
    && !(t.kind id = .text && Text.isBlankText (t.text id))

/-- The element that is all an element holds. -/
def onlyElement? (t : SyntaxTree) (id : NodeId) : Option NodeId :=
  if t.kind id = .element then
    match (t.children id).filter t.isContent with
    | [child] => if (t.kind child).isElement then some child else none
    | _ => none
  else none

/-- Whether a wrapper lies above a node within at most `steps` steps up a chain of sole children. -/
def isInsideWithin (t : SyntaxTree) (wrapper : String) : Nat → NodeId → Bool
  | 0, _ => false
  | steps + 1, id =>
    match t.parent id with
    | none => false
    | some parent =>
      t.onlyElement? parent = some id
        && (t.nameOfElement? parent = some wrapper || isInsideWithin t wrapper steps parent)

/-- Whether an element named `wrapper` lies above a node and reaches it through sole children. -/
def isInside (t : SyntaxTree) (id : NodeId) (wrapper : String) : Bool :=
  t.isInsideWithin wrapper t.size id

/-- Whether an element whose name contains `needle` lies below an element within at most `steps`
steps down the chain of sole children. -/
def wrapsWithin (t : SyntaxTree) (needle : String) : Nat → NodeId → Bool
  | 0, _ => false
  | steps + 1, id =>
    match t.onlyElement? id with
    | none => false
    | some child =>
      (t.nameOfElement? child).any (nameContains · needle) || wrapsWithin t needle steps child

/-- Whether an element is named `wrapper` and encloses, through sole children, an element whose
name contains `target`. -/
def wraps (t : SyntaxTree) (id : NodeId) (wrapper target : String) : Bool :=
  !(needle target).isEmpty && t.nameOfElement? id = some wrapper
    && t.wrapsWithin (needle target) t.size id

end SyntaxTree

end Restyle
