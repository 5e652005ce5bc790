import Restyle.Syntax.Rule

/-!
Statements and the declarations that exist at run time.
-/

namespace Restyle.Syntax.Grammar

open Rule

/-- A name or a pattern that a declaration binds. -/
def bound : Rule :=
  the .identifier <|> the .destructuringPattern

/-- What stands between the brackets of `for (… in …)`. -/
def forHeader : Rule :=
  spelled "("
    ++ (the .assignable <|> the .parenthesizedExpression
      <|> spelled "var" ++ bound ++ maybe (the .initializer)
      <|> oneOf ["let", "const"] ++ bound ++ maybe (the .automaticSemicolon))
    ++ oneOf ["in", "of"] ++ the .expressions ++ spelled ")"

/-- The rules of statements. -/
def statementRule? : Construct → Option Rule
  | .statement => some (
      among [.exportStatement, .importStatement, .debuggerStatement, .expressionStatement,
        .declaration, .statementBlock, .ifStatement, .switchStatement, .forStatement,
        .forInStatement, .whileStatement, .doStatement, .tryStatement, .withStatement,
        .breakStatement, .continueStatement, .returnStatement, .throwStatement, .emptyStatement,
        .labeledStatement])
  | .expressionStatement => some (the .expressions ++ the .semicolon)
  | .variableDeclaration => some (
      spelled "var" ++ commas1 (the .variableDeclarator) ++ the .semicolon)
  | .lexicalDeclaration => some (
      oneOf ["let", "const"] ++ commas1 (the .variableDeclarator) ++ the .semicolon)
  | .variableDeclarator => some (
      slot .name bound ++ maybe (the .typeAscription) ++ maybe (the .initializer)
        <|> binds .declared (slot .name (the .identifier) ++ spelled "!" ++ the .typeAscription))
  | .statementBlock => some (
      right (spelled "\x7b" ++ any (the .statement) ++ spelled "\x7d"
        ++ maybe (the .automaticSemicolon)))
  | .elseClause => some (spelled "else" ++ the .statement)
  | .ifStatement => some (
      right (spelled "if" ++ the .parenthesizedExpression ++ the .statement
        ++ maybe (the .elseClause)))
  | .switchStatement => some (
      spelled "switch" ++ slot .value (the .parenthesizedExpression) ++ the .switchBody)
  | .forStatement => some (
      spelled "for" ++ spelled "("
        ++ (the .lexicalDeclaration <|> the .variableDeclaration
          <|> the .expressions ++ spelled ";"
          <|> the .emptyStatement)
        ++ (the .expressions ++ spelled ";" <|> the .emptyStatement)
        ++ maybe (the .expressions) ++ spelled ")" ++ the .statement)
  | .forInStatement => some (
      spelled "for" ++ maybe (spelled "await") ++ the .forHeader ++ the .statement)
  | .forHeader => some forHeader
  | .whileStatement => some (
      spelled "while" ++ the .parenthesizedExpression ++ the .statement)
  | .doStatement => some (
      right (spelled "do" ++ the .statement ++ spelled "while" ++ the .parenthesizedExpression
        ++ maybe (the .semicolon)))
  | .tryStatement => some (
      spelled "try" ++ the .statementBlock ++ maybe (the .catchClause)
        ++ maybe (the .finallyClause))
  | .withStatement => some (
      spelled "with" ++ the .parenthesizedExpression ++ the .statement)
  | .breakStatement => some (
      spelled "break" ++ maybe (shown .labelName (the .identifier)) ++ the .semicolon)
  | .continueStatement => some (
      spelled "continue" ++ maybe (shown .labelName (the .identifier)) ++ the .semicolon)
  | .debuggerStatement => some (spelled "debugger" ++ the .semicolon)
  | .returnStatement => some (
      spelled "return" ++ maybe (the .expressions) ++ the .semicolon)
  | .throwStatement => some (spelled "throw" ++ the .expressions ++ the .semicolon)
  | .emptyStatement => some (spelled ";")
  | .labeledStatement => some (
      weighed (-1) (shown .labelName (the .identifier <|> the .reservedIdentifier) ++ spelled ":"
        ++ the .statement))
  | .switchBody => some (
      spelled "\x7b" ++ any (the .switchCase <|> the .switchDefault) ++ spelled "\x7d")
  | .switchCase => some (
      spelled "case" ++ slot .value (the .expressions) ++ spelled ":" ++ any (the .statement))
  | .switchDefault => some (spelled "default" ++ spelled ":" ++ any (the .statement))
  | .catchClause => some (
      spelled "catch" ++ maybe (spelled "(" ++ bound ++ maybe (the .typeAscription) ++ spelled ")")
        ++ the .statementBlock)
  | .finallyClause => some (spelled "finally" ++ the .statementBlock)
  | _ => none

end Restyle.Syntax.Grammar
