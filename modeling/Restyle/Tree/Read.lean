import Restyle.Syntax.Module
import Restyle.Tree.OfConcrete

/-!
Reading a component into an editable tree.
-/

namespace Restyle.SyntaxTree

/-- The tree of a source text, or where the text is at fault. -/
def ofSource (source : String) : Except ParseError SyntaxTree :=
  (Syntax.readModule source.toList).map (ofConcrete source.toList)

end Restyle.SyntaxTree
