import Restyle.Change.ClassList
import Restyle.Search.Tag
import Restyle.Tree.Build

/-!
Assignments: `name=value`, as it is given to an element as a property. `addProp` changes the string
of the first attribute of that name, or adds an attribute behind those that the tag has.
-/

namespace Restyle

/-- Whether a text is a name in markup: it starts with a letter, `_` or `$` and goes on with those,
digits and dashes. -/
def isMarkupName (s : String) : Bool :=
  let start (c : Char) : Bool :=
    ('a' ≤ c && c ≤ 'z') || ('A' ≤ c && c ≤ 'Z') || c = '_' || c = '$'
  match s.toList with
  | c :: cs => start c && cs.all fun c => start c || ('0' ≤ c && c ≤ '9') || c = '-'
  | [] => false

/-- A name and the value that it gets. -/
structure Assignment where
  name : String
  value : String
  deriving DecidableEq, Repr

namespace Assignment

/-- Takes a pair of quotes away from around a text. -/
def withoutQuotes (s : String) : String :=
  match SyntaxTree.quotationOf? s with
  | some (_, inner) => inner
  | none => s

/-- Whether a character may not stand in a value. -/
def breaksValue (c : Char) : Bool :=
  c = '"' || c = '\n' || c = '\r'

/-- The text before the first equals sign and the text behind it. -/
def splitAtEquals? (s : String) : Option (String × String) :=
  match s.toList.dropWhile (· ≠ '=') with
  | [] => none
  | _ :: value => some (String.ofList (s.toList.takeWhile (· ≠ '=')), String.ofList value)

/-- Reads `name=value`, where the value may be in quotes. -/
def ofText? (s : String) : Option Assignment :=
  match splitAtEquals? s with
  | none => none
  | some (name, value) =>
    let name := Text.trim name
    let value := withoutQuotes (Text.trim value)
    if isMarkupName name && !value.toList.any breaksValue then some ⟨name, value⟩ else none

end Assignment

namespace SyntaxTree

/-- Gives the string of an attribute a new text. The quotes change where the text holds one. -/
def changeValue (t : SyntaxTree) (id : NodeId) (value : String) : Outcome × SyntaxTree :=
  match t.stringValue? id with
  | none => (.unsupportedAttributeForm, t)
  | some (literal, quote, current) =>
    if current = value then (.alreadyPresent, t)
    else
      let quote := if value.toList.contains quote then '"' else quote
      (.applied, t.overwrite literal (quoted quote value))

/-- Whether a child of a tag is the token that ends the list of attributes. -/
def endsAttributes (t : SyntaxTree) (id : NodeId) : Bool :=
  t.kind id = .token && [">", "/", "/>"].contains (t.text id)

/-- The index of the token that ends a tag's attributes, which stands behind its name. -/
def attributesEnd? (t : SyntaxTree) (tag : NodeId) : Option Nat :=
  match (t.children tag).findIdx? fun c => t.role c = some .name with
  | none => none
  | some name =>
    (((t.children tag).drop (name + 1)).findIdx? t.endsAttributes).map (name + 1 + ·)

/-- The layout before the last attribute of a tag. -/
def lastAttributeGap? (t : SyntaxTree) (tag : NodeId) : Option String :=
  ((t.node tag).slots.filter fun slot => t.kind slot.child = .attribute).getLast?.map Slot.gap

/-- The layout before a new attribute of a tag, which is that before its last one. -/
def attributeGap (t : SyntaxTree) (tag : NodeId) : String :=
  match t.lastAttributeGap? tag with
  | some gap => if gap.isEmpty then " " else gap
  | none => " "

/-- Adds an attribute to a tag. -/
def insertAttribute (t : SyntaxTree) (tag : NodeId) (a : Assignment) : Outcome × SyntaxTree :=
  match t.attributesEnd? tag with
  | none => (.notApplicable, t)
  | some index =>
    let gap := t.attributeGap tag
    let (id, t) := t.newAttribute a.name a.value
    (.applied, t.insertAt tag index id gap)

/-- Sets the property that `value` assigns. `synthesize` says whether a tag that lacks it gets
it. -/
def addProp (t : SyntaxTree) (tag : NodeId) (value : String) (synthesize : Bool) :
    Outcome × SyntaxTree :=
  match Assignment.ofText? value with
  | none => (.invalidValue, t)
  | some a =>
    match t.attribute? tag a.name with
    | some id => t.changeValue id a.value
    | none => if synthesize then t.insertAttribute tag a else (.missingAttribute, t)

end SyntaxTree

end Restyle
