import Restyle.Tree.Kind

/-!
Constructs: the names of everything that the component language is made of. A construct is a phrase
that the grammar describes by a rule, a token that has no rule, or a name that the grammar gives to
one of these in a certain place.

`Construct.kind` maps the constructs onto the neutral vocabulary of `NodeKind`.
-/

namespace Restyle.Syntax

/-- The named constructs of the component language. Their order settles readings that are equally
good otherwise: an earlier construct goes first. -/
inductive Construct where
  -- modules
  | program
  | hashBang
  | exportStatement
  | namespaceExport
  | exportClause
  | exportSpecifier
  | moduleExportName
  | declaration
  | importKeyword
  | importStatement
  | importClause
  | fromClause
  | namespaceImport
  | namedImports
  | importSpecifier
  | importAttribute
  -- statements
  | statement
  | expressionStatement
  | variableDeclaration
  | lexicalDeclaration
  | variableDeclarator
  | statementBlock
  | elseClause
  | ifStatement
  | switchStatement
  | forStatement
  | forInStatement
  | forHeader
  | whileStatement
  | doStatement
  | tryStatement
  | withStatement
  | breakStatement
  | continueStatement
  | debuggerStatement
  | returnStatement
  | throwStatement
  | emptyStatement
  | labeledStatement
  | switchBody
  | switchCase
  | switchDefault
  | catchClause
  | finallyClause
  -- expressions
  | parenthesizedExpression
  | expressions
  | expression
  | primaryExpression
  | yieldExpression
  | object
  | objectPattern
  | assignmentPattern
  | objectAssignmentPattern
  | array
  | arrayPattern
  -- markup
  | anyElement
  | element
  | elementChild
  | characterReference
  | container
  | openingTag
  | anyMarkupName
  | dashedName
  | nestedIdentifier
  | namespacedName
  | elementName
  | closingTag
  | selfClosingElement
  | anyAttribute
  | attributeName
  | attribute
  | markupString
  | doubleMarkupFragment
  | singleMarkupFragment
  | attributeValue
  -- classes, functions and operators
  | classExpression
  | classDeclaration
  | classHeritage
  | functionExpression
  | functionDeclaration
  | generatorFunction
  | generatorDeclaration
  | arrowFunction
  | signature
  | formalParameter
  | optionalChain
  | call
  | newExpression
  | awaitExpression
  | member
  | subscript
  | assignable
  | assignment
  | augmentable
  | augmentedAssignment
  | initializer
  | destructuringPattern
  | spreadElement
  | ternaryExpression
  | binaryExpression
  | unaryExpression
  | updateExpression
  | sequenceExpression
  -- literals and names
  | string
  | doubleFragment
  | singleFragment
  | escapeSequence
  | comment
  | templateString
  | templateSubstitution
  | regex
  | regexEnd
  | regexPattern
  | regexFlags
  | number
  | anyIdentifier
  | identifier
  | privateName
  | metaProperty
  | thisExpression
  | superExpression
  | trueLiteral
  | falseLiteral
  | nullLiteral
  | undefinedLiteral
  -- parts of expressions and classes
  | arguments
  | decorator
  | decoratorMember
  | decoratorCall
  | classBody
  | formalParameters
  | staticBlock
  | pattern
  | restPattern
  | methodDefinition
  | pair
  | pairPattern
  | anyPropertyName
  | computedPropertyName
  | reservedIdentifier
  | semicolon
  -- types and declarations about types
  | fieldDefinition
  | openingTagStart
  | importIdentifier
  | nonNullExpression
  | methodSignature
  | abstractMethodSignature
  | functionSignature
  | decoratorParenthesized
  | asExpression
  | satisfiesExpression
  | instantiation
  | importRequireClause
  | extendsClause
  | extendedClass
  | implementsClause
  | ambientDeclaration
  | abstractClassDeclaration
  | moduleDeclaration
  | namespaceDeclaration
  | moduleTail
  | importAlias
  | nestedTypeIdentifier
  | interfaceDeclaration
  | extendsTypeClause
  | enumDeclaration
  | enumBody
  | enumAssignment
  | typeAlias
  | accessibilityModifier
  | overrideModifier
  | requiredParameter
  | optionalParameter
  | parameterName
  | omittingAscription
  | addingAscription
  | optingAscription
  | typeAscription
  | importedMember
  | importedCall
  | asserts
  | assertsAscription
  | type
  | tupleParameter
  | optionalTupleParameter
  | optionalType
  | restType
  | tupleMember
  | constructorType
  | primaryType
  | templateType
  | templateLiteralType
  | inferType
  | conditionalType
  | genericType
  | typePredicate
  | predicateAscription
  | queriedMember
  | queriedSubscript
  | queriedCall
  | queriedInstantiation
  | typeQuery
  | indexTypeQuery
  | lookupType
  | mappedTypeClause
  | literalType
  | signedNumber
  | existentialType
  | maybeType
  | parenthesizedType
  | predefinedType
  | typeArguments
  | objectType
  | callSignature
  | propertySignature
  | typeParameters
  | typeParameter
  | defaultType
  | constraint
  | constructSignature
  | indexSignature
  | arrayType
  | tupleType
  | readonlyType
  | unionType
  | intersectionType
  | functionType
  | anyTypeIdentifier
  -- tokens that depend on what stands around them
  | automaticSemicolon
  | templateChars
  | ternaryMark
  | markupComment
  | text
  | signatureSemicolon
  -- names that a construct has in certain places only
  | propertyName
  | shorthandName
  | shorthandPattern
  | labelName
  | typeName
  | stringFragment
  | thisType
  | interfaceBody
  -- text that fits nothing
  | error
  deriving DecidableEq, Repr, Inhabited, Hashable

namespace Construct

/-- The number of constructs. -/
def count : Nat := Construct.error.ctorIdx + 1

/-- All constructs in their order. -/
def all : List Construct :=
  (List.range count).map Construct.ofNat

/-- The neutral kind of a construct. -/
def kind : Construct → NodeKind
  | .program => .program
  | .hashBang => .hashBang
  | .comment => .comment
  | .importStatement => .importStatement
  | .expressionStatement => .expressionStatement
  | .element => .element
  | .selfClosingElement => .selfClosingElement
  | .openingTag => .openingTag
  | .closingTag => .closingTag
  | .attribute => .attribute
  | .container => .expressionContainer
  | .string => .stringLiteral
  | .identifier | .propertyName | .typeName | .member | .nestedIdentifier | .namespacedName =>
    .identifier
  | .call => .call
  | .arguments => .arguments
  | .object => .object
  | .pair => .pair
  | .text => .text
  | .error => .error
  | _ => .other

/-- Whether a construct never shows in a tree: its parts take its place. -/
def isHidden : Construct → Bool
  | .moduleExportName | .declaration | .fromClause | .statement | .forHeader | .expressions
  | .expression | .primaryExpression | .anyElement | .elementChild | .anyMarkupName | .elementName
  | .anyAttribute | .attributeName | .attributeValue | .signature | .formalParameter | .assignable
  | .augmentable | .initializer | .destructuringPattern | .anyIdentifier | .pattern
  | .anyPropertyName | .reservedIdentifier | .semicolon | .openingTagStart | .importIdentifier
  | .extendedClass | .moduleTail | .parameterName | .type | .tupleMember | .primaryType
  | .anyTypeIdentifier | .automaticSemicolon | .signatureSemicolon => true
  | _ => false

end Construct

end Restyle.Syntax
