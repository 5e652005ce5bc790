import Restyle.Syntax.Lexeme

/-!
Automatic semicolons: where a statement ends although no `;` is written. A statement ends before the
end of the text, before a closing brace, and before a line break, unless what stands on the next
lines carries the statement on.
-/

namespace Restyle.Syntax.Semicolon

open Lexeme

/-- What may come next besides the end of a statement. -/
structure Setting where
  /-- An operator may come next: a bracket on the next line carries the statement on. -/
  inExpression : Bool
  /-- The statement is the head of a function: a brace on the next line starts its body. -/
  inSignature : Bool
  deriving DecidableEq, Repr

/-- Whether a statement ends, and if it does not, what the search has not looked at. -/
inductive Verdict where
  | due
  | carriedOn (rest : List Char) (metComment : Bool)
  deriving DecidableEq, Repr

namespace Verdict

/-- Ends the statement if a condition holds. -/
def dueIf (b : Bool) (rest : List Char) (metComment : Bool) : Verdict :=
  if b then due else carriedOn rest metComment

end Verdict

/-- What follows a block comment, which may lack its end. -/
def afterBlock : List Char → List Char
  | '*' :: '/' :: rest => rest
  | '\x00' :: rest => '\x00' :: rest
  | _ :: rest => afterBlock rest
  | [] => []

/-- Skips the blanks and comments before the next line's first token. A lone slash ends the search
without an answer. The fuel is the length of the text. -/
def nextToken (metComment : Bool) : Nat → List Char → Verdict ⊕ (List Char × Bool)
  | 0, text => .inr (text, metComment)
  | _, [] => .inr ([], metComment)
  | fuel + 1, c :: rest =>
    if isPlainBlank c then nextToken metComment fuel rest
    else
      match c, rest with
      | '/', '/' :: more => nextToken true fuel (more.dropWhile fun c => c ≠ '\n' && c ≠ '\x00')
      | '/', '*' :: more => nextToken metComment fuel (afterBlock more)
      | '/', more => .inl (.carriedOn more metComment)
      | _, _ => .inr (c :: rest, metComment)

/-- Whether a word carries a statement on: `in` and `instanceof` do. The letters `in` have been
read. -/
def afterIn (metComment : Bool) (rest : List Char) : Verdict :=
  if !(rest.head?.any isLetter) then .carriedOn rest metComment
  else if "stanceof".toList.isPrefixOf rest then
    let more := rest.drop 8
    .dueIf (more.head?.any isLetter) more metComment
  else .due

/-- Whether the first token of a later line starts a new statement. -/
def startsStatement (setting : Setting) (metComment : Bool) (text : List Char) : Verdict :=
  match text with
  | [] => .due
  | '\x7b' :: _ => .dueIf (!setting.inSignature) text metComment
  | '(' :: _ | '[' :: _ => .dueIf (!setting.inExpression) text metComment
  | '+' :: rest => .dueIf (rest.head? = some '+') rest metComment
  | '-' :: rest => .dueIf (rest.head? = some '-') rest metComment
  | '!' :: rest => .dueIf (rest.head? ≠ some '=') rest metComment
  | 'i' :: 'n' :: rest => afterIn metComment rest
  | c :: _ =>
    .dueIf
      (!(c ∈ ['\x60', ',', '.', ';', '*', '%', '>', '<', '=', '?', '^', '|', '&', '/', ':']))
      text metComment

/-- Whether a statement ends at the front of a text. -/
def verdict (setting : Setting) (text : List Char) : Verdict :=
  match text.dropWhile fun c => isPlainBlank c && c ≠ '\n' with
  | [] | '\x00' :: _ => .due
  | '\x7d' :: rest =>
    let rest := rest.dropWhile isPlainBlank
    .dueIf (rest.head? ≠ some ':' || setting.inExpression) rest false
  | '\n' :: rest =>
    match nextToken false rest.length rest with
    | .inl verdict => verdict
    | .inr (next, metComment) => startsStatement setting metComment next
  | rest => .carriedOn rest false

end Restyle.Syntax.Semicolon
