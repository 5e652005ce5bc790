/-!
The neutral vocabulary of a component's source: what a node is (`NodeKind`), which slot it fills in
its parent (`Role`), and where it starts (`Position`). Everything the library never looks into is
`NodeKind.other` and is only ever copied.
-/

namespace Restyle

/-- What a node of a syntax tree is, as far as restyling a component needs to know. -/
inductive NodeKind where
  | program
  | hashBang
  | comment
  | importStatement
  | expressionStatement
  | element
  | selfClosingElement
  | openingTag
  | closingTag
  | attribute
  | expressionContainer
  | stringLiteral
  | identifier
  | call
  | arguments
  | object
  | pair
  | text
  | token
  | error
  | other
  deriving DecidableEq, Repr, Inhabited

/-- An element that a wrapper can be put around. -/
def NodeKind.isElement : NodeKind → Bool
  | .element | .selfClosingElement => true
  | _ => false

/-- A node that carries an element's name and attributes. -/
def NodeKind.isTag : NodeKind → Bool
  | .openingTag | .selfClosingElement => true
  | _ => false

/-- The slot that a child fills in its parent. -/
inductive Role where
  | name
  | source
  | attribute
  | value
  | key
  | function
  | arguments
  | openTag
  | closeTag
  deriving DecidableEq, Repr, Inhabited, Hashable

/-- A place in a source text. Lines and columns count from one, columns in bytes of UTF-8. -/
structure Position where
  line : Nat
  column : Nat
  deriving DecidableEq, Repr, Inhabited

namespace Position

/-- The place of the first character of a text. -/
def start : Position := ⟨1, 1⟩

/-- The place just after `c`, when `c` stands at `p`. -/
def after (p : Position) (c : Char) : Position :=
  if c = '\n' then ⟨p.line + 1, 1⟩ else ⟨p.line, p.column + c.utf8Size⟩

/-- The place that is reached by reading `text` from `p`. -/
def advance (p : Position) (text : List Char) : Position :=
  text.foldl after p

/-- The place of the character with index `offset` in `text`. -/
def ofOffset (text : List Char) (offset : Nat) : Position :=
  start.advance (text.take offset)

@[simp] theorem advance_nil (p : Position) : p.advance [] = p := rfl

theorem advance_append (p : Position) (s t : List Char) :
    p.advance (s ++ t) = (p.advance s).advance t :=
  List.foldl_append

end Position

end Restyle
