import Restyle.Syntax.Concrete
import Restyle.Syntax.Subtree

/-!
From the parser's trees to concrete ones. Hidden nodes give way to their children, and the
production of a node tells under which names and in which slots its children show.
-/

namespace Restyle.Syntax

open Grammar

/-- The name of a token in a message about its lack. -/
def Construct.tokenName : Construct → String
  | .identifier => "identifier"
  | .propertyName => "property_identifier"
  | .typeName => "type_identifier"
  | .labelName => "statement_identifier"
  | .shorthandName => "shorthand_property_identifier"
  | .shorthandPattern => "shorthand_property_identifier_pattern"
  | .privateName => "private_property_identifier"
  | .number => "number"
  | .thisExpression | .thisType => "this"
  | .superExpression => "super"
  | .trueLiteral => "true"
  | .falseLiteral => "false"
  | .nullLiteral => "null"
  | .undefinedLiteral => "undefined"
  | .regexPattern => "regex_pattern"
  | .regexEnd => "/"
  | .ternaryMark => "?"
  | .regexFlags => "regex_flags"
  | .stringFragment => "string_fragment"
  | .escapeSequence => "escape_sequence"
  | .dashedName => "jsx_identifier"
  | .characterReference => "html_character_reference"
  | .text => "jsx_text"
  | .hashBang => "hash_bang_line"
  | .comment => "comment"
  | .markupComment => "html_comment"
  | _ => ""

/-- The label of a symbol. The slash that ends a regular expression and the mark behind a condition
are punctuation. -/
def labelOf (symbol : Nat) (isMissing : Bool) : Option Construct → Label
  | some c => if isMissing then .missing c.tokenName else .named c
  | none =>
    if symbol = errorSymbol then .named .error
    else
      match terminals[symbol]? with
      | some (.spelled s) => if isMissing then .missing s else .token s
      | some (.token c) =>
        if isMissing then .missing c.tokenName
        else if c = .regexEnd || c = .ternaryMark then .token c.tokenName
        else .named c
      | _ => .named (Construct.ofNat (symbol - terminals.size))

/-- The names and slots that a production gives to its symbols. -/
def placesOf (production : Option Nat) : List (Option Construct × Option Role) :=
  match production with
  | some p => (productions.getD p default).steps.toList.map fun s => (s.shown, s.slot)
  | none => []

namespace Subtree

mutual

/-- The trees that a tree shows as: itself, or those of its children. -/
def shownAs (name : Option Construct) (role : Option Role) : Subtree → List Cst
  | node facts children =>
    if name.isSome || Syntax.isVisible facts.symbol then
      [.node (labelOf facts.symbol facts.isMissing name) role facts.start facts.stop
        (showAll (placesOf facts.production) none children)]
    else showAll (placesOf facts.production) role children

/-- The trees that a row of children shows as. What stands between symbols has no slot. -/
def showAll (places : List (Option Construct × Option Role)) (role : Option Role) :
    List Subtree → List Cst
  | [] => []
  | child :: more =>
    if child.isExtra then shownAs none none child ++ showAll places role more
    else
      let (name, slot) := places.headD (none, none)
      shownAs name (slot <|> role) child ++ showAll places.tail role more

end

/-- The concrete tree of a reading of a whole text. -/
def toCst (t : Subtree) : Cst :=
  (shownAs none none t).headD default

end Subtree

end Restyle.Syntax
