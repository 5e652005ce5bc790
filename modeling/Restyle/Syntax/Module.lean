import Restyle.Error
import Restyle.Syntax.Cursor
import Restyle.Syntax.Parse
import Restyle.Syntax.Showing
import Restyle.Text.Blank

/-!
Reading a module into a concrete tree, and what to say about a text that is no module.
-/

namespace Restyle.Syntax

/-- The merged automaton of the grammar. It takes a while to build, so that only texts with faults
are read along it. -/
def mergedAutomaton : Thunk Automaton.Merged :=
  Thunk.mk fun _ => .ofProductions Grammar.productions

/-- A tree for any text. It tells of faults if the grammar does not admit the text. -/
def readTolerantly (text : List Char) : Cst :=
  match parse (some mergedAutomaton.get) (.ofText text) with
  | some t => t.toCst
  | none => .node (.named .error) none 0 text.length []

/-- Reads a module. The tree is there exactly if the grammar admits the whole text. -/
def readModule? (text : List Char) : Option Cst :=
  match parse none (.ofText text) with
  | some t => if t.cost = 0 then some t.toCst else none
  | none => none

/-! ### Faults in words -/

/-- How many characters of an error are shown. -/
def shownChars : Nat := 24

/-- The error that a node of a tree tells of. -/
def Cst.parseError (text : List Char) (t : Cst) : ParseError :=
  let place := Position.ofOffset text t.start
  match t.label with
  | .missing spelling => .syntaxError place ("missing `" ++ spelling ++ "`")
  | _ =>
    let shown := ((text.drop t.start).take (t.stop - t.start)).take shownChars
    .syntaxError place ("unexpected `" ++ Text.trim (String.ofList shown) ++ "`")

/-- Reads a module, or says where it is at fault. -/
def readModule (text : List Char) : Except ParseError Cst :=
  match readModule? text with
  | some tree => .ok tree
  | none =>
    let tree := readTolerantly text
    .error (((tree.firstFault?).map (Cst.parseError text)).getD
      (.syntaxError .start "syntax error"))

end Restyle.Syntax
