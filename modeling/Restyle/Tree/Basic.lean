import Restyle.Tree.Kind

/-!
Editable syntax trees. A tree is a row of nodes that name each other by index; node `0` is the
root. A node that was read from a text remembers that text, and the layout between its children, so
that a node below which nothing was edited is written back exactly as it was read (`text`). Edits
mark the edited node and everything above it as changed, and only those are put together from
their children.

Walks down a tree are bounded by its number of nodes: a path that never meets a node twice is no
longer than that.
-/

namespace Restyle

/-- The index of a node in its tree. -/
abbrev NodeId := Nat

/-- A child with the layout in front of it. -/
structure Slot where
  gap : String
  child : NodeId
  deriving DecidableEq, Repr, Inhabited

/-- A node of an editable tree. -/
structure Node where
  kind : NodeKind
  role : Option Role
  /-- The text that the node was read from; none for a node that was made. -/
  asRead : Option String
  /-- Where the node was read; none for a node that was made. -/
  position : Option Position
  /-- What the node is written as, whatever its children. -/
  literal : Option String
  /-- The children in order. Each stands in one slot with its gap, so that a node has as many gaps
  as children by the way it is laid out. -/
  slots : List Slot
  /-- The layout behind the last child. -/
  ending : String
  parent : Option NodeId
  /-- Whether this node or one below it has changed. -/
  changed : Bool
  deriving DecidableEq, Repr

namespace Node

/-- A node that stands alone. -/
def made (kind : NodeKind) : Node where
  kind := kind
  role := none
  asRead := none
  position := none
  literal := none
  slots := []
  ending := ""
  parent := none
  changed := false

instance : Inhabited Node := ⟨made .other⟩

/-- The children in order. -/
def children (n : Node) : List NodeId :=
  n.slots.map Slot.child

/-- The layout in front of each child. -/
def gaps (n : Node) : List String :=
  n.slots.map Slot.gap

/-- Whether the node was made rather than read. -/
def isMade (n : Node) : Bool :=
  n.asRead.isNone

end Node

/-- An editable syntax tree. -/
structure SyntaxTree where
  nodes : Array Node
  deriving DecidableEq, Repr

namespace SyntaxTree

/-- The root of every tree. -/
def root : NodeId := 0

/-- A tree of one node that was made. -/
def singleton (kind : NodeKind) : SyntaxTree :=
  ⟨#[.made kind]⟩

instance : Inhabited SyntaxTree := ⟨singleton .program⟩

/-- How many nodes have been made or read. -/
def size (t : SyntaxTree) : Nat :=
  t.nodes.size

def node (t : SyntaxTree) (id : NodeId) : Node :=
  t.nodes.getD id default

def kind (t : SyntaxTree) (id : NodeId) : NodeKind :=
  (t.node id).kind

def role (t : SyntaxTree) (id : NodeId) : Option Role :=
  (t.node id).role

def parent (t : SyntaxTree) (id : NodeId) : Option NodeId :=
  (t.node id).parent

def children (t : SyntaxTree) (id : NodeId) : List NodeId :=
  (t.node id).children

/-- The text that the tree was read from. -/
def source (t : SyntaxTree) : String :=
  (t.node root).asRead.getD ""

/-- Whether any edit has been made. -/
def isChanged (t : SyntaxTree) : Bool :=
  (t.node root).changed

/-- The first child that fills `role`. -/
def childIn? (t : SyntaxTree) (id : NodeId) (role : Role) : Option NodeId :=
  (t.children id).find? fun c => t.role c = some role

/-- The children of a kind, in order. -/
def childrenThatAre (t : SyntaxTree) (id : NodeId) (kind : NodeKind) : List NodeId :=
  (t.children id).filter fun c => t.kind c = kind

/-- The place of a node among the children of its parent. -/
def place? (t : SyntaxTree) (id : NodeId) : Option Nat :=
  (t.parent id).bind fun p => (t.children p).findIdx? (· = id)

/-- The layout in front of the child with that index. -/
def gap? (t : SyntaxTree) (id : NodeId) (index : Nat) : Option String :=
  (t.node id).gaps[index]?

/-! ### Walks -/

/-- The text of a node, where at most `depth` nodes lie on a path down from it. -/
def textWithin (t : SyntaxTree) : Nat → NodeId → String
  | 0, _ => ""
  | depth + 1, id =>
    let n := t.node id
    match n.literal, n.asRead, n.changed with
    | some s, _, _ => s
    | none, some s, false => s
    | none, _, _ =>
      String.join (n.slots.map fun slot => slot.gap ++ textWithin t depth slot.child) ++ n.ending

/-- The current text of a node: as it was read if nothing below it has changed, and otherwise put
together from its children and the layout around them. -/
def text (t : SyntaxTree) (id : NodeId) : String :=
  t.textWithin t.size id

/-- The text of the whole tree. -/
def render (t : SyntaxTree) : String :=
  t.text root

/-- A node and all nodes below it, where at most `depth` nodes lie on a path down from it. -/
def descendantsWithin (t : SyntaxTree) : Nat → NodeId → List NodeId
  | 0, _ => []
  | depth + 1, id => id :: (t.children id).flatMap (descendantsWithin t depth)

/-- A node and all nodes below it, each before those below it. -/
def descendants (t : SyntaxTree) (id : NodeId) : List NodeId :=
  t.descendantsWithin t.size id

/-! ### Literals -/

/-- The quote and the inner text of a quoted literal. -/
def quotationOf? (text : String) : Option (Char × String) :=
  match text.toList with
  | quote :: rest =>
    if (quote = '"' || quote = '\'') && rest.getLast? = some quote then
      some (quote, String.ofList rest.dropLast)
    else none
  | [] => none

/-- The quote and the inner text of a string literal. -/
def quotation? (t : SyntaxTree) (id : NodeId) : Option (Char × String) :=
  if t.kind id = .stringLiteral then quotationOf? (t.text id) else none

end SyntaxTree

end Restyle
