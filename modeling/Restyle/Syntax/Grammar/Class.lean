import Restyle.Syntax.Rule

/-!
Functions and classes: signatures, parameters, bodies and members.
-/

namespace Restyle.Syntax.Grammar

open Rule

/-- Decorators, if there are any. -/
def decorators : Rule :=
  any (the .decorator)

/-- What stands between a method's modifiers and its name. -/
def accessor : Rule :=
  maybe (oneOf ["get", "set", "*"])

/-- A method up to its body. -/
def methodHead : Rule :=
  maybe (the .accessibilityModifier) ++ maybe (spelled "static") ++ maybe (the .overrideModifier)
    ++ maybe (spelled "readonly") ++ maybe (spelled "async") ++ accessor
    ++ slot .name (the .anyPropertyName) ++ maybe (spelled "?") ++ the .signature

/-- A function from its keyword to the end of its parameters and result. -/
def functionHead (star : Rule) (name : Rule) : Rule :=
  maybe (spelled "async") ++ spelled "function" ++ star ++ slot .name name ++ the .signature

/-- A class from its keyword to the end of its body. -/
def classTail (name : Rule) : Rule :=
  spelled "class" ++ slot .name name ++ maybe (the .typeParameters) ++ maybe (the .classHeritage)
    ++ the .classBody

/-- The modifiers of a field. -/
def fieldModifiers : Rule :=
  maybe (spelled "declare" ++ maybe (the .accessibilityModifier)
      <|> the .accessibilityModifier ++ maybe (spelled "declare"))
    ++ (maybe (spelled "static") ++ maybe (the .overrideModifier) ++ maybe (spelled "readonly")
      <|> maybe (spelled "abstract") ++ maybe (spelled "readonly")
      <|> maybe (spelled "readonly") ++ maybe (spelled "abstract")
      <|> maybe (spelled "accessor"))

/-- The rules of functions and classes. -/
def classRule? : Construct → Option Rule
  | .classExpression => some (
      binds .literal (decorators ++ classTail (maybe (the .anyTypeIdentifier))))
  | .classDeclaration => some (
      leftAt .declaration (decorators ++ classTail (the .anyTypeIdentifier)
        ++ maybe (the .automaticSemicolon)))
  | .abstractClassDeclaration => some (
      binds .declaration (decorators ++ spelled "abstract" ++ classTail (the .anyTypeIdentifier)))
  | .classHeritage => some (
      the .extendsClause ++ maybe (the .implementsClause) <|> the .implementsClause)
  | .extendsClause => some (spelled "extends" ++ commas1 (the .extendedClass))
  | .extendedClass => some (
      binds .extension (slot .value (the .expression) ++ maybe (the .typeArguments)))
  | .implementsClause => some (spelled "implements" ++ commas1 (the .type))
  | .classBody => some (
      spelled "\x7b"
        ++ any (decorators ++ the .methodDefinition ++ maybe (the .semicolon)
          <|> the .methodSignature ++ (the .signatureSemicolon <|> spelled ",")
          <|> the .staticBlock
          <|> (the .abstractMethodSignature <|> the .indexSignature <|> the .methodSignature
              <|> the .fieldDefinition)
            ++ (the .semicolon <|> spelled ",")
          <|> spelled ";")
        ++ spelled "\x7d")
  | .staticBlock => some (
      spelled "static" ++ maybe (the .automaticSemicolon) ++ the .statementBlock)
  | .fieldDefinition => some (
      decorators ++ fieldModifiers ++ slot .name (the .anyPropertyName)
        ++ maybe (oneOf ["?", "!"]) ++ maybe (the .typeAscription) ++ maybe (the .initializer))
  | .methodDefinition => some (left (methodHead ++ the .statementBlock))
  | .methodSignature => some methodHead
  | .abstractMethodSignature => some (
      maybe (the .accessibilityModifier) ++ spelled "abstract" ++ maybe (the .overrideModifier)
        ++ accessor ++ slot .name (the .anyPropertyName) ++ maybe (spelled "?")
        ++ the .signature)
  | .functionExpression => some (
      binds .literal (functionHead blank (maybe (the .identifier)) ++ the .statementBlock))
  | .functionDeclaration => some (
      rightAt .declaration (functionHead blank (the .identifier) ++ the .statementBlock
        ++ maybe (the .automaticSemicolon)))
  | .generatorFunction => some (
      binds .literal (functionHead (spelled "*") (maybe (the .identifier))
        ++ the .statementBlock))
  | .generatorDeclaration => some (
      rightAt .declaration (functionHead (spelled "*") (the .identifier) ++ the .statementBlock
        ++ maybe (the .automaticSemicolon)))
  | .functionSignature => some (
      functionHead blank (the .identifier) ++ (the .semicolon <|> the .signatureSemicolon))
  | .signature => some (
      maybe (the .typeParameters) ++ the .formalParameters
        ++ maybe (the .typeAscription <|> the .assertsAscription <|> the .predicateAscription))
  | .formalParameters => some (
      spelled "(" ++ maybe (commas1 (the .formalParameter) ++ maybe (spelled ",")) ++ spelled ")")
  | .formalParameter => some (the .requiredParameter <|> the .optionalParameter)
  | .requiredParameter => some (
      the .parameterName ++ maybe (the .typeAscription) ++ maybe (the .initializer))
  | .optionalParameter => some (
      the .parameterName ++ spelled "?" ++ maybe (the .typeAscription)
        ++ maybe (the .initializer))
  | .parameterName => some (
      decorators ++ maybe (the .accessibilityModifier) ++ maybe (the .overrideModifier)
        ++ maybe (spelled "readonly") ++ (the .pattern <|> the .thisExpression))
  | .accessibilityModifier => some (oneOf ["public", "private", "protected"])
  | .overrideModifier => some (spelled "override")
  | .decorator => some (
      spelled "@"
        ++ (the .identifier <|> shown .member (the .decoratorMember)
          <|> shown .call (the .decoratorCall)
          <|> shown .parenthesizedExpression (the .decoratorParenthesized)))
  | .decoratorMember => some (
      binds .member ((the .identifier <|> shown .member (the .decoratorMember)) ++ spelled "."
        ++ shown .propertyName (the .identifier)))
  | .decoratorCall => some (
      binds .call (slot .function (the .identifier <|> shown .member (the .decoratorMember))
        ++ maybe (the .typeArguments) ++ slot .arguments (the .arguments)))
  | .decoratorParenthesized => some (
      spelled "("
        ++ (the .identifier <|> shown .member (the .decoratorMember)
          <|> shown .call (the .decoratorCall))
        ++ spelled ")")
  | _ => none

end Restyle.Syntax.Grammar
