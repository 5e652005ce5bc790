import Restyle.Tree.Basic

/-!
Imports at the top of a module, and the place where a new one goes: behind the line that names an
interpreter and behind the directives, such as `"use client"`, that open the module.
-/

namespace Restyle.SyntaxTree

/-- The module that an import names. -/
def importSource? (t : SyntaxTree) (id : NodeId) : Option String :=
  (t.childIn? id .source).bind fun source => (t.quotation? source).map Prod.snd

/-- The imports of the module from `library`. -/
def importsFrom (t : SyntaxTree) (library : String) : List NodeId :=
  (t.childrenThatAre root .importStatement).filter fun id => t.importSource? id = some library

/-- The first import from `library`. -/
def importOf? (t : SyntaxTree) (library : String) : Option NodeId :=
  (t.importsFrom library).head?

/-- Whether a statement is nothing but a string literal, punctuation aside. -/
def isDirective (t : SyntaxTree) (id : NodeId) : Bool :=
  match (t.children id).filter fun c => t.kind c != .token with
  | [literal] => t.kind literal = .stringLiteral
  | _ => false

/-- The index behind the last hash-bang line or directive among `ids`, where comments may stand
between them. The first of `ids` has the index `index`; `last` is the answer so far. -/
def prologueEnd (t : SyntaxTree) : (index last : Nat) → List NodeId → Nat
  | _, last, [] => last
  | index, last, id :: ids =>
    match t.kind id with
    | .hashBang => prologueEnd t (index + 1) (index + 1) ids
    | .comment => prologueEnd t (index + 1) last ids
    | .expressionStatement =>
      if t.isDirective id then prologueEnd t (index + 1) (index + 1) ids else last
    | _ => last

/-- The index among the statements of the module at which a new import goes. -/
def importPlace (t : SyntaxTree) (respectDirectives : Bool) : Nat :=
  if respectDirectives then t.prologueEnd 0 0 (t.children root) else 0

end Restyle.SyntaxTree
