import Restyle.Change.Outcome
import Restyle.Text.Blank
import Restyle.Tree.Edit

/-!
Class lists: the classes in the string of an attribute. `addClass` adds the classes of a value that
the string lacks, behind those that it has.
-/

namespace Restyle

namespace ClassList

/-- The characters that no class in a string may hold. -/
def isForbidden (c : Char) : Bool :=
  c ∈ ['"', '\'', '\x60', '\x7b', '\x7d', '<', '>']

/-- The classes that a value names, each once. -/
def ofValue (value : String) : List String :=
  (Text.words value).eraseDups

/-- Whether a value names classes, all of which can be written into a string. -/
def isValid (classes : List String) : Bool :=
  !classes.isEmpty && classes.all fun c => !c.toList.any isForbidden

/-- The classes that a string lacks. There are none where the classes stand together in it as
they are, or each is one of its words. -/
def missing (classes : List String) (existing : String) : List String :=
  if Text.contains existing (" ".intercalate classes) then []
  else classes.filter fun c => !(Text.words existing).contains c

/-- A string with classes behind those that it has. -/
def append (existing : String) (classes : List String) : String :=
  if Text.isBlankText existing then " ".intercalate classes
  else Text.trimEnd existing ++ " " ++ " ".intercalate classes

end ClassList

namespace SyntaxTree

/-- A text between quotes. -/
def quoted (quote : Char) (inner : String) : String :=
  String.singleton quote ++ inner ++ String.singleton quote

/-- The node of an attribute's value, with its quote and its inner text, if the value is a
string. -/
def stringValue? (t : SyntaxTree) (id : NodeId) : Option (NodeId × Char × String) :=
  match t.childIn? id .value with
  | none => none
  | some literal => (t.quotation? literal).map fun s => (literal, s)

/-- Adds the classes of `value` to an attribute. -/
def addClass (t : SyntaxTree) (id : NodeId) (value : String) : Outcome × SyntaxTree :=
  let classes := ClassList.ofValue value
  if !ClassList.isValid classes then (.invalidValue, t)
  else
    match t.stringValue? id with
    | none => (.unsupportedAttributeForm, t)
    | some (literal, quote, existing) =>
      match ClassList.missing classes existing with
      | [] => (.alreadyPresent, t)
      | lacking =>
        (.applied, t.overwrite literal (quoted quote (ClassList.append existing lacking)))

end SyntaxTree

end Restyle
