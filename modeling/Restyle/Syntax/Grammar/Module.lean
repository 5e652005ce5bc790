import Restyle.Syntax.Rule

/-!
Modules and their statements.
-/

namespace Restyle.Syntax.Grammar

open Rule

/-- The rules of modules: what they import and export. -/
def moduleRule? : Construct → Option Rule
  | .program => some (maybe (the .hashBang) ++ any (the .statement))
  | .exportStatement => some (
      spelled "export"
          ++ (spelled "*" ++ the .fromClause
            <|> the .namespaceExport ++ the .fromClause
            <|> the .exportClause ++ the .fromClause
            <|> the .exportClause)
          ++ the .semicolon
        <|> any (the .decorator) ++ spelled "export"
          ++ (the .declaration
            <|> spelled "default"
              ++ (the .declaration <|> slot .value (the .expression) ++ the .semicolon))
        <|> spelled "export" ++ spelled "type" ++ the .exportClause ++ maybe (the .fromClause)
          ++ the .semicolon
        <|> spelled "export" ++ spelled "=" ++ the .expression ++ the .semicolon
        <|> spelled "export" ++ spelled "as" ++ spelled "namespace" ++ the .identifier
          ++ the .semicolon)
  | .namespaceExport => some (spelled "*" ++ spelled "as" ++ the .moduleExportName)
  | .exportClause => some (
      spelled "\x7b" ++ commas (the .exportSpecifier) ++ maybe (spelled ",") ++ spelled "\x7d")
  | .exportSpecifier => some (
      maybe (oneOf ["type", "typeof"]) ++ slot .name (the .moduleExportName)
        ++ maybe (spelled "as" ++ the .moduleExportName))
  | .moduleExportName => some (the .identifier <|> the .string)
  | .declaration => some (
      among [.functionDeclaration, .generatorDeclaration, .classDeclaration, .lexicalDeclaration,
          .variableDeclaration, .functionSignature, .abstractClassDeclaration, .moduleDeclaration]
        <|> binds .declared (the .namespaceDeclaration)
        <|> among [.typeAlias, .enumDeclaration, .interfaceDeclaration, .importAlias,
          .ambientDeclaration])
  | .importKeyword => some (spelled "import")
  | .importStatement => some (
      spelled "import" ++ maybe (oneOf ["type", "typeof"])
        ++ (the .importClause ++ the .fromClause
          <|> the .importRequireClause
          <|> slot .source (the .string))
        ++ maybe (the .importAttribute) ++ the .semicolon)
  | .importClause => some (
      the .namespaceImport <|> the .namedImports
        <|> the .importIdentifier
          ++ maybe (spelled "," ++ (the .namespaceImport <|> the .namedImports)))
  | .fromClause => some (spelled "from" ++ slot .source (the .string))
  | .namespaceImport => some (spelled "*" ++ spelled "as" ++ the .identifier)
  | .namedImports => some (
      spelled "\x7b" ++ commas (the .importSpecifier) ++ maybe (spelled ",") ++ spelled "\x7d")
  | .importSpecifier => some (
      maybe (oneOf ["type", "typeof"])
        ++ (slot .name (the .importIdentifier)
          <|> slot .name (the .moduleExportName <|> shown .identifier (spelled "type"))
            ++ spelled "as" ++ the .importIdentifier))
  | .importAttribute => some (oneOf ["with", "assert"] ++ the .object)
  | .importIdentifier => some (the .identifier <|> shown .identifier (spelled "type"))
  | .importRequireClause => some (
      the .identifier ++ spelled "=" ++ spelled "require" ++ spelled "("
        ++ slot .source (the .string) ++ spelled ")")
  | .importAlias => some (
      spelled "import" ++ the .identifier ++ spelled "="
        ++ (the .identifier <|> the .nestedIdentifier) ++ the .semicolon)
  | .semicolon => some (the .automaticSemicolon <|> spelled ";")
  | _ => none

end Restyle.Syntax.Grammar
