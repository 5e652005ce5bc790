import Restyle.Syntax.Construct

/-!
Concrete syntax trees: what a parser makes of a text. A node has a label, the slot it fills, and the
stretch of the text that it covers, in characters. Comments are nodes like any other, so that no
character but layout is lost.
-/

namespace Restyle.Syntax

/-- What a node of a concrete tree is: a named construct, a piece of punctuation or a keyword, or a
token that the text lacks and the parser supplied. -/
inductive Label where
  | named (construct : Construct)
  | token (spelling : String)
  | missing (spelling : String)
  deriving DecidableEq, Repr, Inhabited

/-- Punctuation, written or supplied, is not named. -/
def Label.isNamed : Label → Bool
  | .named _ => true
  | _ => false

/-- The neutral kind of a label. -/
def Label.kind : Label → NodeKind
  | .named construct => construct.kind
  | _ => .token

/-- A concrete syntax tree. `start` and `stop` are character indices into the text. -/
inductive Cst where
  | node (label : Label) (role : Option Role) (start stop : Nat) (children : List Cst)
  deriving Repr, Inhabited

namespace Cst

def label : Cst → Label
  | node label _ _ _ _ => label

def role : Cst → Option Role
  | node _ role _ _ _ => role

def start : Cst → Nat
  | node _ _ start _ _ => start

def stop : Cst → Nat
  | node _ _ _ stop _ => stop

def children : Cst → List Cst
  | node _ _ _ _ children => children

/-- Text that the grammar does not admit. -/
def isError (t : Cst) : Bool :=
  t.label == .named .error

/-- A token that the text lacks. -/
def isMissing (t : Cst) : Bool :=
  match t.label with
  | .missing _ => true
  | _ => false

mutual

/-- The nodes of a tree, each before the nodes below it. -/
def preorder : Cst → List Cst
  | node label role start stop children =>
    node label role start stop children :: preorderAll children

/-- The nodes of a row of trees, tree after tree. -/
def preorderAll : List Cst → List Cst
  | [] => []
  | t :: ts => preorder t ++ preorderAll ts

end

end Cst

end Restyle.Syntax
