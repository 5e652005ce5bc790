import Restyle.Syntax.Construct

/-!
Rules: how constructs are written, as data. A rule is built from spellings and constructs by
sequence, choice and repetition, and may say how tightly it binds, on which side it groups, which
slot a part fills and under which name it shows.
-/

namespace Restyle.Syntax

/-- How tightly an operator or a clause binds. The orderings of the grammar compare these levels
with each other and with constructs. -/
inductive Level where
  | member
  | template
  | call
  | construction
  | prefixed
  | power
  | product
  | sum
  | shift
  | relation
  | equality
  | bitAnd
  | bitXor
  | bitOr
  | conjunction
  | disjunction
  | ternary
  | assignment
  | declared
  | declaration
  | literal
  | object
  | instantiation
  | postfixed
  | conversion
  | extension
  deriving DecidableEq, Repr, Hashable

/-- How tightly a rule binds: not said, by a number, or by a level. -/
inductive Binding where
  | unsaid
  | number (n : Int)
  | level (l : Level)
  deriving DecidableEq, Repr, Inhabited, Hashable

/-- The side on which a rule groups when it meets itself. -/
inductive Side where
  | left
  | right
  deriving DecidableEq, Repr, Inhabited, Hashable

/-- How a construct is written. -/
inductive Rule where
  /-- Nothing at all. -/
  | blank
  /-- A piece of punctuation or a keyword. -/
  | spelled (spelling : String)
  | the (construct : Construct)
  | seq (first second : Rule)
  | alt (first second : Rule)
  /-- Once or more. -/
  | many (rule : Rule)
  | bound (binding : Binding) (side : Option Side) (rule : Rule)
  /-- Counts for or against the rule where a text can be read in several ways. -/
  | weighed (weight : Int) (rule : Rule)
  /-- Shows under another name. -/
  | shown (construct : Construct) (rule : Rule)
  | slot (role : Role) (rule : Rule)
  deriving DecidableEq, Repr, Inhabited

namespace Rule

instance : Append Rule := ⟨seq⟩

instance : OrElse Rule := ⟨fun r s => alt r (s ())⟩

/-- The rule or nothing. -/
def maybe (r : Rule) : Rule := alt r blank

/-- The rule any number of times. -/
def any (r : Rule) : Rule := maybe (many r)

/-- One of several spellings. -/
def oneOf : List String → Rule
  | [] => blank
  | [s] => spelled s
  | s :: more => spelled s <|> oneOf more

/-- One of several constructs. -/
def among : List Construct → Rule
  | [] => blank
  | [c] => the c
  | c :: more => the c <|> among more

/-- The rule at least once, with a separator between any two. -/
def separated (separator r : Rule) : Rule := r ++ any (separator ++ r)

/-- The rule at least once, with commas between. -/
def commas1 (r : Rule) : Rule := separated (spelled ",") r

/-- The rule any number of times, with commas between. -/
def commas (r : Rule) : Rule := maybe (commas1 r)

/-- Binds as tightly as a level. -/
def binds (l : Level) (r : Rule) : Rule := bound (.level l) none r

/-- Groups to the left. -/
def left (r : Rule) : Rule := bound (.number 0) (some .left) r

/-- Groups to the right. -/
def right (r : Rule) : Rule := bound (.number 0) (some .right) r

/-- Binds as tightly as a level and groups to the left. -/
def leftAt (l : Level) (r : Rule) : Rule := bound (.level l) (some .left) r

/-- Binds as tightly as a level and groups to the right. -/
def rightAt (l : Level) (r : Rule) : Rule := bound (.level l) (some .right) r

end Rule

end Restyle.Syntax
