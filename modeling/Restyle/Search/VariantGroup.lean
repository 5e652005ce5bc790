import Restyle.Tree.Read

/-!
Variant groups: the names of the groups that a module declares in the `variants` of its calls of
`cva`.
-/

namespace Restyle

namespace SyntaxTree

/-- The key of a pair in an object, without quotes. -/
def keyOfPair? (t : SyntaxTree) (pair : NodeId) : Option String :=
  (t.childIn? pair .key).map fun key =>
    match t.quotation? key with
    | some (_, inner) => inner
    | none => t.text key

/-- The value of the first pair in an object with that key. -/
def valueUnder? (t : SyntaxTree) (object : NodeId) (key : String) : Option NodeId :=
  ((t.childrenThatAre object .pair).find? fun pair => t.keyOfPair? pair = some key).bind fun pair =>
    t.childIn? pair .value

/-- Whether a node is a call of `cva`. -/
def isVariantCall (t : SyntaxTree) (id : NodeId) : Bool :=
  t.kind id = .call && (t.childIn? id .function).any fun f => t.text f = "cva"

/-- The groups that the options of a call declare. -/
def groupsOfOptions (t : SyntaxTree) (options : NodeId) : List String :=
  match t.valueUnder? options "variants" with
  | none => []
  | some variants =>
    if t.kind variants = .object then (t.childrenThatAre variants .pair).filterMap t.keyOfPair?
    else []

/-- The groups that a call declares. -/
def groupsOfCall (t : SyntaxTree) (call : NodeId) : List String :=
  match t.childIn? call .arguments with
  | none => []
  | some arguments => (t.childrenThatAre arguments .object).flatMap t.groupsOfOptions

/-- The groups that a module declares, in document order. -/
def declaredGroups (t : SyntaxTree) : List String :=
  ((t.descendants root).filter t.isVariantCall).flatMap t.groupsOfCall

end SyntaxTree

/-- The groups that a text declares. -/
def declaredGroupsOf (source : String) : Except ParseError (List String) :=
  (SyntaxTree.ofSource source).map SyntaxTree.declaredGroups

end Restyle
