import Restyle.LogFilter.Directive

/-!
Log filters: a list of directives. The more specific directives come first, and of those that speak
of the same thing the last one counts.

`ofSetting` falls back on a filter of its own where there is none or it cannot be read.
-/

namespace Restyle

/-- A log filter: the directives in the order in which they are asked, those about spans last. -/
structure LogFilter where
  plain : List LogDirective
  spans : List LogDirective
  deriving DecidableEq, Repr

namespace LogFilter

/-- Puts a directive where it belongs; it takes the place of one that speaks of the same thing. -/
def insert (d : LogDirective) : List LogDirective → List LogDirective
  | [] => [d]
  | e :: es =>
    match d.order e with
    | .lt => d :: e :: es
    | .eq => d :: es
    | .gt => e :: insert d es

/-- Puts directives in order. -/
def sorted (ds : List LogDirective) : List LogDirective :=
  ds.foldl (fun row d => insert d row) []

def ofDirectives (ds : List LogDirective) : LogFilter :=
  let (spans, others) := ds.partition LogDirective.isAboutSpans
  ⟨sorted (others ++ spans.filterMap LogDirective.plain?), sorted spans⟩

/-- Reads directives with commas between them. -/
def ofText? (s : String) : Option LogFilter :=
  let parts := ((s.splitOn ",").filter fun part => !part.isEmpty)
  (parts.mapM LogDirective.ofText?).map ofDirectives

/-- The filter that holds where none is set. -/
def default : LogFilter :=
  .ofDirectives [{ target := some "forge", level := .info }]

/-- The filter of a setting. -/
def ofSetting (setting : Option String) : LogFilter :=
  (setting.bind ofText?).getD default

def text (f : LogFilter) : String :=
  ",".intercalate ((f.plain ++ f.spans).map LogDirective.text)

end LogFilter

end Restyle
