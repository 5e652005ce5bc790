import Restyle.Change.Outcome
import Restyle.Search.Import
import Restyle.Settings.Basic
import Restyle.Tree.Build

/-!
The import that motions need. `requireImport` adds it to a module that has none from that library.
-/

namespace Restyle.SyntaxTree

/-- Puts a statement at an index of the module. It takes the layout before the statement that stood
there, which moves to the next line. -/
def insertStatement (t : SyntaxTree) (index : Nat) (id : NodeId) : SyntaxTree :=
  match t.gap? root index with
  | some gap => (t.insertAt root index id gap).changeGap root (index + 1) "\n"
  | none => t.insertAt root index id (if (t.children root).isEmpty then "" else "\n")

/-- Makes sure that the module imports the library of motions. -/
def requireImport (t : SyntaxTree) (settings : TransformSettings) : ImportResult × SyntaxTree :=
  let library := settings.actualAnimationLibrary
  if (t.importOf? library).isSome then (.alreadyPresent, t)
  else
    let index := t.importPlace settings.actualRespectDirectives
    let (id, t) := t.newImport settings.actualMotionBinding library
    (.inserted, t.insertStatement index id)

end Restyle.SyntaxTree
