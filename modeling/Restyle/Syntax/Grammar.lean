import Restyle.Syntax.Grammar.Class
import Restyle.Syntax.Grammar.Expression
import Restyle.Syntax.Grammar.Markup
import Restyle.Syntax.Grammar.Module
import Restyle.Syntax.Grammar.Statement
import Restyle.Syntax.Grammar.Type

/-!
The grammar as a whole: which constructs have rules (`rule?`), which are tokens (`tokens`,
`contextualTokens`), which are replaced by their alternatives wherever they occur (`isInlined`), and
how binding levels and constructs compare (`orderings`).
-/

namespace Restyle.Syntax.Grammar

/-- The rule of a construct, if it has one. -/
def rule? (c : Construct) : Option Rule :=
  moduleRule? c <|> statementRule? c <|> expressionRule? c <|> markupRule? c <|> classRule? c
    <|> typeDeclarationRule? c <|> typeRule? c

/-- The tokens that are told by their characters alone. -/
def tokens : List Construct :=
  [.hashBang, .characterReference, .dashedName, .doubleMarkupFragment, .singleMarkupFragment,
    .doubleFragment, .singleFragment, .escapeSequence, .comment, .regexEnd, .regexPattern,
    .regexFlags, .number, .identifier, .privateName, .thisExpression, .superExpression,
    .trueLiteral, .falseLiteral, .nullLiteral, .undefinedLiteral]

/-- The tokens that depend on what stands around them. -/
def contextualTokens : List Construct :=
  [.automaticSemicolon, .templateChars, .ternaryMark, .markupComment, .text, .signatureSemicolon]

/-- The tokens that may stand between any two others. -/
def layoutTokens : List Construct :=
  [.comment, .markupComment]

/-- Whether a construct is replaced by its alternatives wherever it occurs. -/
def isInlined : Construct → Bool
  | .expressions | .semicolon | .anyIdentifier | .reservedIdentifier | .anyAttribute | .elementName
  | .elementChild | .anyElement | .attributeName | .attributeValue | .anyMarkupName | .assignable
  | .anyTypeIdentifier | .openingTagStart => true
  | _ => false

/-- What an ordering compares. -/
inductive Rank where
  | level (l : Level)
  | construct (c : Construct)
  deriving DecidableEq, Repr

/-- Lists of levels and constructs, the tightest first. Two of them compare by the first list that
holds both. -/
def orderings : List (List Rank) :=
  [[.level .member, .level .template, .level .call, .construct .updateExpression, .level .prefixed,
      .level .power, .level .product, .level .sum, .level .shift, .level .relation,
      .level .equality, .level .bitAnd, .level .bitXor, .level .bitOr, .level .conjunction,
      .level .disjunction, .level .ternary, .construct .sequenceExpression,
      .construct .arrowFunction],
    [.level .assignment, .construct .primaryExpression],
    [.level .member, .level .template, .level .construction, .level .call,
      .construct .expression],
    [.level .declaration, .level .literal],
    [.construct .primaryExpression, .construct .statementBlock, .level .object],
    [.construct .metaProperty, .construct .importKeyword],
    [.construct .importStatement, .construct .importKeyword],
    [.construct .exportStatement, .construct .primaryExpression],
    [.construct .lexicalDeclaration, .construct .primaryExpression],
    [.level .call, .level .instantiation, .level .postfixed, .level .conversion,
      .construct .awaitExpression, .construct .arrowFunction],
    [.level .extension, .level .instantiation],
    [.construct .intersectionType, .construct .unionType, .construct .conditionalType,
      .construct .functionType, .level .conversion, .construct .typePredicate,
      .construct .readonlyType],
    [.construct .mappedTypeClause, .construct .primaryExpression],
    [.construct .accessibilityModifier, .construct .primaryExpression],
    [.level .prefixed, .construct .expression],
    [.construct .extendsClause, .construct .primaryExpression],
    [.level .postfixed, .level .assignment],
    [.level .declared, .construct .expression],
    [.construct .predefinedType, .construct .unaryExpression],
    [.construct .type, .construct .maybeType],
    [.construct .tupleType, .construct .arrayType, .construct .pattern, .construct .type],
    [.construct .readonlyType, .construct .pattern],
    [.construct .readonlyType, .construct .primaryExpression],
    [.construct .typeQuery, .construct .subscript, .construct .expression],
    [.construct .typeQuery, .construct .queriedSubscript],
    [.construct .nestedTypeIdentifier, .construct .genericType, .construct .primaryType,
      .construct .lookupType, .construct .indexTypeQuery, .construct .type],
    [.construct .asExpression, .construct .satisfiesExpression, .construct .primaryType],
    [.construct .queriedMember, .construct .member],
    [.construct .member, .construct .importedMember],
    [.construct .queriedMember, .construct .primaryExpression],
    [.construct .queriedSubscript, .construct .subscript],
    [.construct .queriedSubscript, .construct .primaryExpression],
    [.construct .queriedCall, .construct .primaryExpression],
    [.construct .queriedInstantiation, .construct .primaryExpression],
    [.construct .typeQuery, .construct .primaryExpression],
    [.construct .overrideModifier, .construct .primaryExpression],
    [.construct .decoratorCall, .construct .decorator],
    [.construct .literalType, .construct .pattern],
    [.construct .predefinedType, .construct .pattern],
    [.construct .call, .construct .queriedCall],
    [.construct .call, .construct .importedCall],
    [.construct .newExpression, .construct .primaryExpression],
    [.construct .metaProperty, .construct .primaryExpression],
    [.construct .constructSignature, .construct .anyPropertyName]]

end Restyle.Syntax.Grammar
