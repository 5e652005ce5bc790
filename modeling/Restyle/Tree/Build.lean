import Restyle.Tree.Edit

/-!
The nodes that edits put into a tree. They have the same shape and the same roles as nodes that are
read, so that searches do not tell the two apart.
-/

namespace Restyle.SyntaxTree

/-- A leaf to be built: its kind, its text, the slot it fills and the layout before it. -/
structure Piece where
  kind : NodeKind
  text : String
  role : Option Role
  gap : String

/-- Makes leaves in order and puts them under a node. -/
def appendLeaves (t : SyntaxTree) (parent : NodeId) (pieces : List Piece) : SyntaxTree :=
  pieces.foldl
    (fun t piece =>
      let leaf := { Node.made piece.kind with literal := some piece.text, role := piece.role }
      let (id, t) := t.add leaf
      t.appendChild parent id piece.gap)
    t

/-- `import { binding } from "library";` -/
def newImport (t : SyntaxTree) (binding library : String) : NodeId × SyntaxTree :=
  let (id, t) := t.make .importStatement
  (id, t.appendLeaves id
    [⟨.token, "import", none, ""⟩, ⟨.other, "\x7b " ++ binding ++ " \x7d", none, " "⟩,
      ⟨.token, "from", none, " "⟩, ⟨.stringLiteral, "\"" ++ library ++ "\"", some .source, " "⟩,
      ⟨.token, ";", none, ""⟩])

/-- `<name></name>`. Children go to index `1`. -/
def newElement (t : SyntaxTree) (name : String) : NodeId × SyntaxTree :=
  let (element, t) := t.make .element
  let (opening, t) := t.add { Node.made .openingTag with role := some .openTag }
  let t := t.appendLeaves opening
    [⟨.token, "<", none, ""⟩, ⟨.identifier, name, some .name, ""⟩, ⟨.token, ">", none, ""⟩]
  let (closing, t) := t.add { Node.made .closingTag with role := some .closeTag }
  let t := t.appendLeaves closing
    [⟨.token, "</", none, ""⟩, ⟨.identifier, name, some .name, ""⟩, ⟨.token, ">", none, ""⟩]
  (element, (t.appendChild element opening "").appendChild element closing "")

/-- `name="value"`. -/
def newAttribute (t : SyntaxTree) (name value : String) : NodeId × SyntaxTree :=
  let (id, t) := t.add { Node.made .attribute with role := some .attribute }
  (id, t.appendLeaves id
    [⟨.identifier, name, some .name, ""⟩, ⟨.token, "=", none, ""⟩,
      ⟨.stringLiteral, "\"" ++ value ++ "\"", some .value, ""⟩])

end Restyle.SyntaxTree
