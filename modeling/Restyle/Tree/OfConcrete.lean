import Restyle.Syntax.Concrete
import Restyle.Tree.Edit

/-!
From concrete trees to editable ones. Every node remembers its stretch of the source, and what lies
between two children becomes the layout before the second, so that nothing of the source is lost
whatever the stretches are: each is cut to what its parent still has left.
-/

namespace Restyle.SyntaxTree

open Syntax (Cst)

/-- The characters of a text from one index up to another. -/
def slice (source : List Char) (start stop : Nat) : String :=
  String.ofList ((source.drop start).take (stop - start))

/-- The nearest number between two bounds. -/
def clamp (low high x : Nat) : Nat :=
  max low (min x high)

/-- How far the children of a node have been taken over. -/
structure Progress where
  /-- Where the last child ended. -/
  stop : Nat
  /-- Whether a named child has been seen. -/
  seenNamed : Bool
  /-- Whether the last child is an equals sign. -/
  afterEquals : Bool

/-- The slot of a child. The parts of an attribute are told apart by their order: the first named
one is its name, and the one behind the equals sign its value. -/
def slotRole (inAttribute : Bool) (progress : Progress) (child : Cst) : Option Role :=
  if inAttribute && child.label.isNamed then
    if !progress.seenNamed then some .name
    else if progress.afterEquals then some .value
    else none
  else child.role

mutual

/-- Takes over what lies below a node that is there already. The node has the source from `start`
up to `stop`. -/
def addBelow (source : List Char) (id : NodeId) (start stop : Nat) (tree : Cst)
    (t : SyntaxTree) : SyntaxTree :=
  match tree with
  | .node label _ _ _ children =>
    addChildren source id (label.kind = .attribute) stop children ⟨start, false, false⟩ t

/-- Takes over the remaining children of a node. -/
def addChildren (source : List Char) (parent : NodeId) (inAttribute : Bool) (stop : Nat)
    (children : List Cst) (progress : Progress) (t : SyntaxTree) : SyntaxTree :=
  match children with
  | [] => t.setEnd parent (slice source progress.stop stop)
  | child :: rest =>
    let childStart := clamp progress.stop stop child.start
    let childStop := clamp childStart stop child.stop
    let (id, t) := t.add
      { Node.made child.label.kind with
        role := slotRole inAttribute progress child
        asRead := some (slice source childStart childStop)
        position := some (Position.ofOffset source child.start) }
    let t := t.appendChild parent id (slice source progress.stop childStart)
    let t := addBelow source id childStart childStop child t
    addChildren source parent inAttribute stop rest
      ⟨childStop, progress.seenNamed || child.label.isNamed,
        child.label = .token "="⟩ t

end

/-- The editable tree of a concrete one. The root has the whole source, so that the layout before
and behind everything else is kept. -/
def ofConcrete (source : List Char) (tree : Cst) : SyntaxTree :=
  addBelow source root 0 source.length tree
    ⟨#[{ Node.made .program with
        asRead := some (String.ofList source)
        position := some .start }]⟩

end Restyle.SyntaxTree
