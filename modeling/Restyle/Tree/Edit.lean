import Restyle.Tree.Basic

/-!
The ways to build and change a tree. `make`, `appendChild`, `assignRole` and `setEnd` build;
`overwrite`, `insertAt`, `changeGap` and `substitute?` edit, and mark what they touch with
`markChanged`.
-/

namespace Restyle.SyntaxTree

/-- Changes one node. -/
def update (t : SyntaxTree) (id : NodeId) (f : Node → Node) : SyntaxTree :=
  ⟨t.nodes.modify id f⟩

/-- Adds a node that stands alone, and answers its index. -/
def add (t : SyntaxTree) (n : Node) : NodeId × SyntaxTree :=
  (t.size, ⟨t.nodes.push n⟩)

/-- Makes a node of a kind. -/
def make (t : SyntaxTree) (kind : NodeKind) : NodeId × SyntaxTree :=
  t.add (.made kind)

/-- Makes a node with a text of its own. -/
def makeLeaf (t : SyntaxTree) (kind : NodeKind) (text : String) : NodeId × SyntaxTree :=
  t.add { Node.made kind with literal := some text }

def assignRole (t : SyntaxTree) (id : NodeId) (role : Option Role) : SyntaxTree :=
  t.update id fun n => { n with role := role }

/-- Adds a child behind all others, with layout before it. Nothing is marked. -/
def appendChild (t : SyntaxTree) (parent child : NodeId) (gap : String) : SyntaxTree :=
  (t.update child fun n => { n with parent := some parent }).update parent fun n =>
    { n with slots := n.slots ++ [⟨gap, child⟩] }

def setEnd (t : SyntaxTree) (id : NodeId) (ending : String) : SyntaxTree :=
  t.update id fun n => { n with ending := ending }

/-- Marks a node and those above it as changed, up to the first that is marked already. At most
`steps` nodes are marked. -/
def markChangedWithin : Nat → SyntaxTree → NodeId → SyntaxTree
  | 0, t, _ => t
  | steps + 1, t, id =>
    if (t.node id).changed then t
    else
      let t := t.update id fun n => { n with changed := true }
      match t.parent id with
      | some p => markChangedWithin steps t p
      | none => t

/-- Marks a node and those above it as changed. A node that is marked already ends the walk: those
above it are marked too. -/
def markChanged (t : SyntaxTree) (id : NodeId) : SyntaxTree :=
  markChangedWithin t.size t id

/-- Replaces all that a node holds by a text. -/
def overwrite (t : SyntaxTree) (id : NodeId) (text : String) : SyntaxTree :=
  (t.update id fun n => { n with literal := some text, slots := [], ending := "" }).markChanged id

/-- Puts a child at an index, or behind all others if there are not as many, with layout before
it. -/
def insertAt (t : SyntaxTree) (parent : NodeId) (index : Nat) (child : NodeId) (gap : String) :
    SyntaxTree :=
  ((t.update child fun n => { n with parent := some parent }).update parent fun n =>
    { n with slots := n.slots.take index ++ ⟨gap, child⟩ :: n.slots.drop index }).markChanged parent

/-- Replaces the layout in front of the child with that index, if there is one. -/
def changeGap (t : SyntaxTree) (parent : NodeId) (index : Nat) (gap : String) : SyntaxTree :=
  if index < (t.node parent).slots.length then
    let t := t.update parent fun n =>
      { n with slots := n.slots.modify index fun slot => { slot with gap := gap } }
    t.markChanged parent
  else t

/-- Puts `new` where `old` is among its parent's children, with the layout and the role of `old`;
`old` then stands alone. There is no answer if `old` has no such place. -/
def substitute? (t : SyntaxTree) (old new : NodeId) : Option SyntaxTree :=
  match t.parent old, t.place? old with
  | some parent, some index =>
    let role := t.role old
    let t := t.update parent fun n =>
      { n with slots := n.slots.modify index fun slot => { slot with child := new } }
    let t := t.update new fun n => { n with parent := some parent, role := role }
    let t := t.update old fun n => { n with parent := none, role := none }
    some (t.markChanged parent)
  | _, _ => none

end Restyle.SyntaxTree
