import Restyle.Syntax.Rule

/-!
Types, and the declarations that are about types only.
-/

namespace Restyle.Syntax.Grammar

open Rule

/-- What a type query may ask about, before a member or an index. -/
def queried : Rule :=
  the .identifier <|> the .thisExpression <|> shown .subscript (the .queriedSubscript)
    <|> shown .member (the .queriedMember) <|> shown .call (the .queriedCall)

/-- What a type query may call or give type arguments. -/
def queriedFunction : Rule :=
  the .importKeyword <|> the .identifier <|> shown .member (the .queriedMember)
    <|> shown .subscript (the .queriedSubscript)

/-- A module that is imported in place, and what it holds. -/
def imported : Rule :=
  shown .member (the .importedMember) <|> shown .call (the .importedCall)

/-- The name of a member behind a dot. -/
def queriedName : Rule :=
  the .privateName <|> shown .propertyName (the .identifier)

/-- The rules of declarations about types. -/
def typeDeclarationRule? : Construct → Option Rule
  | .ambientDeclaration => some (
      spelled "declare"
        ++ (the .declaration
          <|> spelled "global" ++ the .statementBlock
          <|> spelled "module" ++ spelled "." ++ shown .propertyName (the .identifier)
            ++ spelled ":" ++ the .type ++ the .semicolon))
  | .moduleDeclaration => some (spelled "module" ++ the .moduleTail)
  | .namespaceDeclaration => some (spelled "namespace" ++ the .moduleTail)
  | .moduleTail => some (
      right (slot .name (among [.string, .identifier, .nestedIdentifier])
        ++ maybe (the .statementBlock)))
  | .nestedTypeIdentifier => some (
      binds .member ((the .identifier <|> the .nestedIdentifier) ++ spelled "."
        ++ slot .name (the .anyTypeIdentifier)))
  | .interfaceDeclaration => some (
      spelled "interface" ++ slot .name (the .anyTypeIdentifier) ++ maybe (the .typeParameters)
        ++ maybe (the .extendsTypeClause) ++ shown .interfaceBody (the .objectType))
  | .extendsTypeClause => some (
      spelled "extends"
        ++ commas1 (among [.anyTypeIdentifier, .nestedTypeIdentifier, .genericType]))
  | .enumDeclaration => some (
      maybe (spelled "const") ++ spelled "enum" ++ slot .name (the .identifier)
        ++ the .enumBody)
  | .enumBody => some (
      spelled "\x7b"
        ++ maybe (commas1 (slot .name (the .anyPropertyName) <|> the .enumAssignment)
          ++ maybe (spelled ","))
        ++ spelled "\x7d")
  | .enumAssignment => some (slot .name (the .anyPropertyName) ++ the .initializer)
  | .typeAlias => some (
      spelled "type" ++ slot .name (the .anyTypeIdentifier) ++ maybe (the .typeParameters)
        ++ spelled "=" ++ slot .value (the .type) ++ the .semicolon)
  | .typeAscription => some (spelled ":" ++ (the .type <|> imported))
  | .omittingAscription => some (spelled "-?:" ++ the .type)
  | .addingAscription => some (spelled "+?:" ++ the .type)
  | .optingAscription => some (spelled "?:" ++ the .type)
  | .asserts => some (
      spelled "asserts" ++ among [.typePredicate, .identifier, .thisExpression])
  | .assertsAscription => some (spelled ":" ++ the .asserts)
  | .typePredicate => some (
      slot .name (the .identifier <|> the .thisExpression
          <|> shown .identifier (the .predefinedType))
        ++ spelled "is" ++ the .type)
  | .predicateAscription => some (spelled ":" ++ the .typePredicate)
  | .typeParameters => some (
      spelled "<" ++ commas1 (the .typeParameter) ++ maybe (spelled ",") ++ spelled ">")
  | .typeParameter => some (
      maybe (spelled "const") ++ slot .name (the .anyTypeIdentifier) ++ maybe (the .constraint)
        ++ slot .value (maybe (the .defaultType)))
  | .defaultType => some (spelled "=" ++ the .type)
  | .constraint => some (oneOf ["extends", ":"] ++ the .type)
  | .anyTypeIdentifier => some (shown .typeName (the .identifier))
  | _ => none

/-- The rules of types. -/
def typeRule? : Construct → Option Rule
  | .type => some (
      among [.primaryType, .functionType, .readonlyType, .constructorType, .inferType]
        <|> Rule.bound (.number (-1)) none (shown .member (the .importedMember))
        <|> Rule.bound (.number (-1)) none (shown .call (the .importedCall)))
  | .importedMember => some (
      (the .importKeyword <|> imported) ++ spelled "." ++ queriedName)
  | .importedCall => some (
      slot .function (the .importKeyword <|> shown .member (the .importedMember))
        ++ slot .arguments (the .arguments))
  | .tupleParameter => some (
      slot .name (the .identifier <|> the .restPattern) ++ the .typeAscription)
  | .optionalTupleParameter => some (
      slot .name (the .identifier) ++ spelled "?" ++ the .typeAscription)
  | .optionalType => some (the .type ++ spelled "?")
  | .restType => some (spelled "..." ++ the .type)
  | .tupleMember => some (
      shown .requiredParameter (the .tupleParameter)
        <|> shown .optionalParameter (the .optionalTupleParameter)
        <|> among [.optionalType, .restType, .type])
  | .constructorType => some (
      left (maybe (spelled "abstract") ++ spelled "new" ++ maybe (the .typeParameters)
        ++ the .formalParameters ++ spelled "=>" ++ the .type))
  | .primaryType => some (
      among [.parenthesizedType, .predefinedType, .anyTypeIdentifier, .nestedTypeIdentifier,
          .genericType, .objectType, .arrayType, .tupleType, .maybeType, .typeQuery,
          .indexTypeQuery]
        <|> shown .thisType (the .thisExpression)
        <|> among [.existentialType, .literalType, .lookupType, .conditionalType,
          .templateLiteralType, .intersectionType, .unionType]
        <|> spelled "const")
  | .templateType => some (
      spelled "$\x7b" ++ (the .primaryType <|> the .inferType) ++ spelled "\x7d")
  | .templateLiteralType => some (
      spelled "`" ++ any (shown .stringFragment (the .templateChars) <|> the .templateType)
        ++ spelled "`")
  | .inferType => some (
      right (spelled "infer" ++ the .anyTypeIdentifier
        ++ maybe (spelled "extends" ++ the .type)))
  | .conditionalType => some (
      right (the .type ++ spelled "extends" ++ the .type ++ spelled "?" ++ the .type
        ++ spelled ":" ++ the .type))
  | .genericType => some (
      binds .call (slot .name (the .anyTypeIdentifier <|> the .nestedTypeIdentifier)
        ++ the .typeArguments))
  | .queriedMember => some (queried ++ oneOf [".", "?."] ++ queriedName)
  | .queriedSubscript => some (
      queried ++ maybe (spelled "?.") ++ spelled "["
        ++ among [.predefinedType, .string, .number] ++ spelled "]")
  | .queriedCall => some (
      slot .function queriedFunction ++ slot .arguments (the .arguments))
  | .queriedInstantiation => some (
      slot .function queriedFunction ++ the .typeArguments)
  | .typeQuery => some (
      right (spelled "typeof"
        ++ (shown .subscript (the .queriedSubscript) <|> shown .member (the .queriedMember)
          <|> shown .call (the .queriedCall) <|> shown .instantiation (the .queriedInstantiation)
          <|> the .identifier <|> the .thisExpression)))
  | .indexTypeQuery => some (spelled "keyof" ++ the .primaryType)
  | .lookupType => some (the .primaryType ++ spelled "[" ++ the .type ++ spelled "]")
  | .mappedTypeClause => some (
      slot .name (the .anyTypeIdentifier) ++ spelled "in" ++ the .type
        ++ maybe (spelled "as" ++ the .type))
  | .literalType => some (
      shown .unaryExpression (the .signedNumber)
        <|> among [.number, .string, .trueLiteral, .falseLiteral, .nullLiteral,
          .undefinedLiteral])
  | .signedNumber => some (
      Rule.bound (.number 1) (some .left) (oneOf ["-", "+"] ++ the .number))
  | .existentialType => some (spelled "*")
  | .maybeType => some (right (spelled "?" ++ the .primaryType))
  | .parenthesizedType => some (spelled "(" ++ the .type ++ spelled ")")
  | .predefinedType => some (
      oneOf ["any", "number", "boolean", "string", "symbol"]
        <|> spelled "unique" ++ spelled "symbol"
        <|> oneOf ["void", "unknown", "never", "object"])
  | .typeArguments => some (
      spelled "<" ++ commas1 (the .type) ++ maybe (spelled ",") ++ spelled ">")
  | .objectType => some (
      oneOf ["\x7b", "\x7b|"]
        ++ maybe (maybe (oneOf [",", ";"])
          ++ separated (spelled "," <|> the .semicolon)
            (among [.exportStatement, .propertySignature, .callSignature, .constructSignature,
              .indexSignature, .methodSignature])
          ++ maybe (spelled "," <|> the .semicolon))
        ++ oneOf ["\x7d", "|\x7d"])
  | .callSignature => some (the .signature)
  | .propertySignature => some (
      maybe (the .accessibilityModifier) ++ maybe (spelled "static")
        ++ maybe (the .overrideModifier) ++ maybe (spelled "readonly")
        ++ slot .name (the .anyPropertyName) ++ maybe (spelled "?")
        ++ maybe (the .typeAscription))
  | .constructSignature => some (
      maybe (spelled "abstract") ++ spelled "new" ++ maybe (the .typeParameters)
        ++ the .formalParameters ++ maybe (the .typeAscription))
  | .indexSignature => some (
      maybe (maybe (oneOf ["-", "+"]) ++ spelled "readonly") ++ spelled "["
        ++ (slot .name (the .identifier <|> shown .identifier (the .reservedIdentifier))
            ++ spelled ":" ++ the .type
          <|> the .mappedTypeClause)
        ++ spelled "]"
        ++ among [.typeAscription, .omittingAscription, .addingAscription,
          .optingAscription])
  | .arrayType => some (the .primaryType ++ spelled "[" ++ spelled "]")
  | .tupleType => some (
      spelled "[" ++ commas (the .tupleMember) ++ maybe (spelled ",") ++ spelled "]")
  | .readonlyType => some (spelled "readonly" ++ the .type)
  | .unionType => some (left (maybe (the .type) ++ spelled "|" ++ the .type))
  | .intersectionType => some (left (maybe (the .type) ++ spelled "&" ++ the .type))
  | .functionType => some (
      left (maybe (the .typeParameters) ++ the .formalParameters ++ spelled "=>"
        ++ among [.type, .asserts, .typePredicate]))
  | _ => none

end Restyle.Syntax.Grammar
