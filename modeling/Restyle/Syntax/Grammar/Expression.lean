import Restyle.Syntax.Rule

/-!
Expressions, patterns and names.
-/

namespace Restyle.Syntax.Grammar

open Rule

/-! ### Operators -/

/-- The operators between two operands, with the level and the side of each. -/
def binaryOperators : List (String × Level × Side) :=
  [("&&", .conjunction, .left), ("||", .disjunction, .left), (">>", .shift, .left),
    (">>>", .shift, .left), ("<<", .shift, .left), ("&", .bitAnd, .left), ("^", .bitXor, .left),
    ("|", .bitOr, .left), ("+", .sum, .left), ("-", .sum, .left), ("*", .product, .left),
    ("/", .product, .left), ("%", .product, .left), ("**", .power, .right),
    ("<", .relation, .left), ("<=", .relation, .left), ("==", .equality, .left),
    ("===", .equality, .left), ("!=", .equality, .left), ("!==", .equality, .left),
    (">=", .relation, .left), (">", .relation, .left), ("??", .ternary, .left),
    ("instanceof", .relation, .left), ("in", .relation, .left)]

/-- An operator with its operands. A private name may be looked for with `in`. -/
def binaryOperation (operator : String) (level : Level) (side : Side) : Rule :=
  let first :=
    if operator = "in" then the .expression <|> the .privateName else the .expression
  Rule.bound (.level level) (some side) (first ++ spelled operator ++ the .expression)

/-- The alternatives of a list of rules. -/
def alternatives : List Rule → Rule
  | [] => blank
  | [r] => r
  | r :: more => r <|> alternatives more

/-- The operators that change what stands on their left. -/
def augmentingOperators : List String :=
  ["+=", "-=", "*=", "/=", "%=", "^=", "&=", "|=", ">>=", ">>>=", "<<=", "**=", "&&=", "||=",
    "??="]

/-! ### Names -/

/-- An identifier, or a word with a meaning of its own that may also be used as one. -/
def freeIdentifier : Rule :=
  the .identifier <|> the .reservedIdentifier

/-- The words with a meaning of their own that may be used as identifiers. -/
def reservedIdentifiers : List String :=
  ["declare", "namespace", "type", "public", "private", "protected", "override", "readonly",
    "module", "any", "number", "boolean", "string", "symbol", "export", "object", "new", "get",
    "set", "async", "static", "let"]

/-- What may stand on the left of an assignment. -/
def assignable : Rule :=
  the .member <|> the .subscript <|> the .anyIdentifier
    <|> shown .identifier (the .reservedIdentifier) <|> the .destructuringPattern
    <|> the .nonNullExpression

/-- The name of a member, behind a dot. -/
def memberName : Rule :=
  the .privateName <|> shown .propertyName (the .identifier)

/-! ### Rules -/

/-- The rules of expressions. -/
def expressionRule? : Construct → Option Rule
  | .parenthesizedExpression => some (
      spelled "("
        ++ (the .expression ++ maybe (the .typeAscription) <|> the .sequenceExpression)
        ++ spelled ")")
  | .expressions => some (the .expression <|> the .sequenceExpression)
  | .expression => some (
      among [.asExpression, .satisfiesExpression, .instantiation, .namespaceDeclaration,
        .primaryExpression, .anyElement, .assignment, .augmentedAssignment, .awaitExpression,
        .unaryExpression, .binaryExpression, .ternaryExpression, .updateExpression,
        .newExpression, .yieldExpression])
  | .primaryExpression => some (
      among [.subscript, .member, .parenthesizedExpression, .anyIdentifier]
        <|> shown .identifier (the .reservedIdentifier)
        <|> among [.thisExpression, .superExpression, .number, .string, .templateString, .regex,
          .trueLiteral, .falseLiteral, .nullLiteral, .object, .array, .functionExpression,
          .arrowFunction, .generatorFunction, .classExpression, .metaProperty, .call,
          .nonNullExpression])
  | .yieldExpression => some (
      right (spelled "yield" ++ (spelled "*" ++ the .expression <|> maybe (the .expression))))
  | .object => some (
      binds .object (spelled "\x7b"
        ++ commas (maybe (the .pair <|> the .spreadElement <|> the .methodDefinition
          <|> shown .shorthandName freeIdentifier))
        ++ spelled "\x7d"))
  | .objectPattern => some (
      binds .object (spelled "\x7b"
        ++ commas (maybe (the .pairPattern <|> the .restPattern <|> the .objectAssignmentPattern
          <|> shown .shorthandPattern freeIdentifier))
        ++ spelled "\x7d"))
  | .assignmentPattern => some (the .pattern ++ spelled "=" ++ the .expression)
  | .objectAssignmentPattern => some (
      (shown .shorthandPattern freeIdentifier <|> the .destructuringPattern) ++ spelled "="
        ++ the .expression)
  | .array => some (
      spelled "[" ++ commas (maybe (the .expression <|> the .spreadElement)) ++ spelled "]")
  | .arrayPattern => some (
      spelled "[" ++ commas (maybe (the .pattern <|> the .assignmentPattern)) ++ spelled "]")
  | .nestedIdentifier => some (
      binds .member ((the .identifier <|> shown .member (the .nestedIdentifier)) ++ spelled "."
        ++ shown .propertyName (the .identifier)))
  | .arrowFunction => some (
      maybe (spelled "async")
        ++ (shown .identifier (the .reservedIdentifier) <|> the .identifier <|> the .signature)
        ++ spelled "=>" ++ (the .expression <|> the .statementBlock))
  | .optionalChain => some (spelled "?.")
  | .call => some (
      binds .call (slot .function (the .expression <|> the .importKeyword)
          ++ maybe (the .typeArguments) ++ slot .arguments (the .arguments))
        <|> binds .template (slot .function (the .primaryExpression <|> the .newExpression)
          ++ slot .arguments (the .templateString))
        <|> binds .member (slot .function (the .primaryExpression) ++ spelled "?."
          ++ maybe (the .typeArguments) ++ slot .arguments (the .arguments)))
  | .newExpression => some (
      rightAt .construction (spelled "new" ++ the .primaryExpression ++ maybe (the .typeArguments)
        ++ slot .arguments (maybe (the .arguments))))
  | .awaitExpression => some (binds .prefixed (spelled "await" ++ the .expression))
  | .member => some (
      binds .member ((the .expression <|> the .primaryExpression <|> the .importKeyword)
        ++ (spelled "." <|> the .optionalChain) ++ memberName))
  | .subscript => some (
      rightAt .member ((the .expression <|> the .primaryExpression)
        ++ maybe (the .optionalChain) ++ spelled "[" ++ the .expressions ++ spelled "]"))
  | .assignable => some assignable
  | .assignment => some (
      rightAt .assignment (maybe (spelled "using")
        ++ (the .parenthesizedExpression <|> the .assignable) ++ spelled "=" ++ the .expression))
  | .augmentable => some (
      the .member <|> the .subscript <|> shown .identifier (the .reservedIdentifier)
        <|> the .identifier <|> the .parenthesizedExpression <|> the .nonNullExpression)
  | .augmentedAssignment => some (
      rightAt .assignment (the .augmentable ++ oneOf augmentingOperators ++ the .expression))
  | .initializer => some (spelled "=" ++ slot .value (the .expression))
  | .destructuringPattern => some (the .objectPattern <|> the .arrayPattern)
  | .spreadElement => some (spelled "..." ++ the .expression)
  | .ternaryExpression => some (
      rightAt .ternary (the .expression ++ the .ternaryMark ++ the .expression ++ spelled ":"
        ++ the .expression))
  | .binaryExpression => some (
      alternatives (binaryOperators.map fun (operator, level, side) =>
        binaryOperation operator level side))
  | .unaryExpression => some (
      leftAt .prefixed (oneOf ["!", "~", "-", "+", "typeof", "void", "delete"]
        ++ the .expression))
  | .updateExpression => some (
      left (the .expression ++ oneOf ["++", "--"] <|> oneOf ["++", "--"] ++ the .expression))
  | .sequenceExpression => some (right (commas1 (the .expression)))
  | .string => some (
      spelled "\"" ++ any (shown .stringFragment (the .doubleFragment) <|> the .escapeSequence)
          ++ spelled "\""
        <|> spelled "'" ++ any (shown .stringFragment (the .singleFragment)
            <|> the .escapeSequence) ++ spelled "'")
  | .templateString => some (
      spelled "`" ++ any (shown .stringFragment (the .templateChars) <|> the .escapeSequence
        <|> the .templateSubstitution) ++ spelled "`")
  | .templateSubstitution => some (spelled "$\x7b" ++ the .expressions ++ spelled "\x7d")
  | .regex => some (
      spelled "/" ++ the .regexPattern ++ the .regexEnd ++ maybe (the .regexFlags))
  | .anyIdentifier => some (the .undefinedLiteral <|> the .identifier)
  | .metaProperty => some (
      spelled "new" ++ spelled "." ++ spelled "target"
        <|> spelled "import" ++ spelled "." ++ spelled "meta")
  | .arguments => some (
      spelled "(" ++ commas (maybe (the .expression <|> the .spreadElement)) ++ spelled ")")
  | .pattern => some (weighed (-1) (the .assignable <|> the .restPattern))
  | .restPattern => some (right (spelled "..." ++ the .assignable))
  | .pair => some (
      slot .key (the .anyPropertyName) ++ spelled ":" ++ slot .value (the .expression))
  | .pairPattern => some (
      slot .key (the .anyPropertyName) ++ spelled ":"
        ++ slot .value (the .pattern <|> the .assignmentPattern))
  | .anyPropertyName => some (
      shown .propertyName freeIdentifier <|> the .privateName <|> the .string <|> the .number
        <|> the .computedPropertyName)
  | .computedPropertyName => some (spelled "[" ++ the .expression ++ spelled "]")
  | .reservedIdentifier => some (oneOf reservedIdentifiers)
  | .nonNullExpression => some (leftAt .postfixed (the .expression ++ spelled "!"))
  | .asExpression => some (
      leftAt .conversion (the .expression ++ spelled "as" ++ (spelled "const" <|> the .type)))
  | .satisfiesExpression => some (
      leftAt .conversion (the .expression ++ spelled "satisfies" ++ the .type))
  | .instantiation => some (
      binds .instantiation (the .expression ++ the .typeArguments))
  | _ => none

end Restyle.Syntax.Grammar
