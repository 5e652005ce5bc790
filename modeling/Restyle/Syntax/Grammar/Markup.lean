import Restyle.Syntax.Rule

/-!
Markup: elements, their attributes and what stands between two tags.
-/

namespace Restyle.Syntax.Grammar

open Rule

/-- An opening tag up to its closing bracket. Only a plain or dotted name takes type arguments, and
a tag without a name has no attributes. -/
def openingTagStart : Rule :=
  spelled "<"
    ++ maybe ((slot .name (the .anyMarkupName <|> the .namespacedName)
        <|> slot .name (the .identifier <|> shown .member (the .nestedIdentifier))
          ++ maybe (the .typeArguments))
      ++ any (slot .attribute (the .anyAttribute)))

/-- The rules of markup. -/
def markupRule? : Construct → Option Rule
  | .anyElement => some (the .element <|> the .selfClosingElement)
  | .element => some (
      slot .openTag (the .openingTag)
        ++ any (the .elementChild)
        ++ slot .closeTag (the .closingTag))
  | .elementChild => some (
      among [.text, .characterReference, .anyElement, .container])
  | .container => some (
      spelled "\x7b"
        ++ maybe (among [.expression, .sequenceExpression, .spreadElement])
        ++ spelled "\x7d")
  | .openingTagStart => some openingTagStart
  | .openingTag => some (weighed (-1) (the .openingTagStart ++ spelled ">"))
  | .selfClosingElement => some (weighed (-1) (the .openingTagStart ++ spelled "/>"))
  | .closingTag => some (
      spelled "</" ++ maybe (slot .name (the .elementName)) ++ spelled ">")
  | .anyMarkupName => some (shown .identifier (the .dashedName) <|> the .identifier)
  | .namespacedName => some (the .anyMarkupName ++ spelled ":" ++ the .anyMarkupName)
  | .elementName => some (
      the .anyMarkupName <|> shown .member (the .nestedIdentifier) <|> the .namespacedName)
  | .anyAttribute => some (the .attribute <|> the .container)
  | .attributeName => some (shown .propertyName (the .anyMarkupName) <|> the .namespacedName)
  | .attribute => some (
      the .attributeName ++ maybe (spelled "=" ++ the .attributeValue))
  | .markupString => some (
      spelled "\"" ++ any (shown .stringFragment (the .doubleMarkupFragment)
          <|> the .characterReference) ++ spelled "\""
        <|> spelled "'" ++ any (shown .stringFragment (the .singleMarkupFragment)
          <|> the .characterReference) ++ spelled "'")
  | .attributeValue => some (
      shown .string (the .markupString) <|> the .container <|> the .anyElement)
  | _ => none

end Restyle.Syntax.Grammar
