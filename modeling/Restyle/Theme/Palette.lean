import Restyle.Theme.Color

/-!
The colors of a theme. A light palette gives every role a color and may add colors for charts; a
dark one gives a background and a foreground and overrides what else it names. `declared` lists the
colors that are given, by the names that a stylesheet uses, in a fixed order.
-/

namespace Restyle

/-- The colors of the light theme. -/
structure Palette where
  primary : Color
  primaryForeground : Color
  secondary : Color
  secondaryForeground : Color
  muted : Color
  mutedForeground : Color
  accent : Color
  accentForeground : Color
  destructive : Color
  destructiveForeground : Color
  background : Color
  foreground : Color
  card : Color
  cardForeground : Color
  popover : Color
  popoverForeground : Color
  border : Color
  input : Color
  ring : Color
  chart1 : Option Color
  chart2 : Option Color
  chart3 : Option Color
  chart4 : Option Color
  chart5 : Option Color
  deriving DecidableEq, Repr

/-- The colors of the dark theme; a role without color keeps the light one. -/
structure DarkPalette where
  background : Color
  foreground : Color
  card : Option Color
  cardForeground : Option Color
  popover : Option Color
  popoverForeground : Option Color
  primary : Option Color
  primaryForeground : Option Color
  secondary : Option Color
  secondaryForeground : Option Color
  muted : Option Color
  mutedForeground : Option Color
  accent : Option Color
  accentForeground : Option Color
  destructive : Option Color
  border : Option Color
  input : Option Color
  ring : Option Color
  deriving DecidableEq, Repr

/-- Decodes a record of colors, of which some must be there, into the colors by their names. -/
def Decoder.colors (name : String) (required optional : List String) :
    Decoder (List (String × Option Color)) :=
  let find (key : String) (given : List (String × Option Color)) : Option (Option Color) :=
    (given.find? fun m => m.1 = key).map Prod.snd
  let add (key : String) (c : Option Color) (given : List (String × Option Color)) :
      List (String × Option Color) :=
    given ++ [(key, c)]
  let must (key : String) : Decoder.Field (List (String × Option Color)) :=
    .required key (find key) (add key) fun levels r => (Color.decode levels r).map some
  let may (key : String) : Decoder.Field (List (String × Option Color)) :=
    .defaulted key none (find key) (add key) (Decoder.nullable Color.decode)
  Decoder.Record.decode ⟨name, required.map must ++ optional.map may⟩ []

/-- The colors that are given, out of a list with gaps. -/
def givenColors (colors : List (String × Option Color)) : List (String × Color) :=
  colors.filterMap fun (name, c) => c.map fun c => (name, c)

namespace Palette

/-- The names under which a palette is written down, for the roles that must have a color. -/
def requiredKeys : List String := [
  "primary", "primaryForeground", "secondary", "secondaryForeground", "muted", "mutedForeground",
  "accent", "accentForeground", "destructive", "destructiveForeground", "background", "foreground",
  "card", "cardForeground", "popover", "popoverForeground", "border", "input", "ring"]

/-- The names under which the colors of charts are written down. -/
def chartKeys : List String :=
  ["chart1", "chart2", "chart3", "chart4", "chart5"]

/-- All colors by their names in a stylesheet. -/
def declared (p : Palette) : List (String × Color) :=
  [
    ("primary", p.primary), ("primary-foreground", p.primaryForeground),
    ("secondary", p.secondary), ("secondary-foreground", p.secondaryForeground),
    ("muted", p.muted), ("muted-foreground", p.mutedForeground), ("accent", p.accent),
    ("accent-foreground", p.accentForeground), ("destructive", p.destructive),
    ("destructive-foreground", p.destructiveForeground), ("background", p.background),
    ("foreground", p.foreground), ("card", p.card), ("card-foreground", p.cardForeground),
    ("popover", p.popover), ("popover-foreground", p.popoverForeground), ("border", p.border),
    ("input", p.input), ("ring", p.ring)]
    ++ givenColors [("chart-1", p.chart1), ("chart-2", p.chart2), ("chart-3", p.chart3),
      ("chart-4", p.chart4), ("chart-5", p.chart5)]

/-- The palette of the colors that a function gives to its keys. -/
def ofColors? (color : String → Option Color) : Option Palette := do
  return {
    primary := ← color "primary"
    primaryForeground := ← color "primaryForeground"
    secondary := ← color "secondary"
    secondaryForeground := ← color "secondaryForeground"
    muted := ← color "muted"
    mutedForeground := ← color "mutedForeground"
    accent := ← color "accent"
    accentForeground := ← color "accentForeground"
    destructive := ← color "destructive"
    destructiveForeground := ← color "destructiveForeground"
    background := ← color "background"
    foreground := ← color "foreground"
    card := ← color "card"
    cardForeground := ← color "cardForeground"
    popover := ← color "popover"
    popoverForeground := ← color "popoverForeground"
    border := ← color "border"
    input := ← color "input"
    ring := ← color "ring"
    chart1 := color "chart1"
    chart2 := color "chart2"
    chart3 := color "chart3"
    chart4 := color "chart4"
    chart5 := color "chart5" }

def decode : Decoder Palette := fun levels r =>
  match Decoder.colors "ColorPalette" requiredKeys chartKeys levels r with
  | .error c => .error c
  | .ok colors =>
    match ofColors? fun key => (colors.find? fun m => m.1 = key).bind Prod.snd with
    | some p => .ok p
    | none => .error (.missingField "")

def encode (p : Palette) : Json :=
  .object ((givenColors [
      ("primary", p.primary), ("primaryForeground", p.primaryForeground),
      ("secondary", p.secondary), ("secondaryForeground", p.secondaryForeground),
      ("muted", p.muted), ("mutedForeground", p.mutedForeground), ("accent", p.accent),
      ("accentForeground", p.accentForeground), ("destructive", p.destructive),
      ("destructiveForeground", p.destructiveForeground), ("background", p.background),
      ("foreground", p.foreground), ("card", p.card), ("cardForeground", p.cardForeground),
      ("popover", p.popover), ("popoverForeground", p.popoverForeground), ("border", p.border),
      ("input", p.input), ("ring", p.ring),
      ("chart1", p.chart1), ("chart2", p.chart2), ("chart3", p.chart3), ("chart4", p.chart4),
      ("chart5", p.chart5)]).map fun (key, c) => (key, c.encode))

end Palette

namespace DarkPalette

/-- The names under which the roles are written down that may have a color. -/
def optionalKeys : List String := [
  "card", "cardForeground", "popover", "popoverForeground", "primary", "primaryForeground",
  "secondary", "secondaryForeground", "muted", "mutedForeground", "accent", "accentForeground",
  "destructive", "border", "input", "ring"]

/-- The colors that are given, by their names in a stylesheet. -/
def declared (p : DarkPalette) : List (String × Color) :=
  [("background", p.background), ("foreground", p.foreground)]
    ++ givenColors [
      ("card", p.card), ("card-foreground", p.cardForeground), ("popover", p.popover),
      ("popover-foreground", p.popoverForeground), ("primary", p.primary),
      ("primary-foreground", p.primaryForeground), ("secondary", p.secondary),
      ("secondary-foreground", p.secondaryForeground), ("muted", p.muted),
      ("muted-foreground", p.mutedForeground), ("accent", p.accent),
      ("accent-foreground", p.accentForeground), ("destructive", p.destructive),
      ("border", p.border), ("input", p.input), ("ring", p.ring)]

/-- The palette of the colors that a function gives to its keys. -/
def ofColors? (color : String → Option Color) : Option DarkPalette := do
  return {
    background := ← color "background"
    foreground := ← color "foreground"
    card := color "card"
    cardForeground := color "cardForeground"
    popover := color "popover"
    popoverForeground := color "popoverForeground"
    primary := color "primary"
    primaryForeground := color "primaryForeground"
    secondary := color "secondary"
    secondaryForeground := color "secondaryForeground"
    muted := color "muted"
    mutedForeground := color "mutedForeground"
    accent := color "accent"
    accentForeground := color "accentForeground"
    destructive := color "destructive"
    border := color "border"
    input := color "input"
    ring := color "ring" }

def decode : Decoder DarkPalette := fun levels r =>
  match Decoder.colors "DarkColorOverrides" ["background", "foreground"] optionalKeys levels r with
  | .error c => .error c
  | .ok colors =>
    match ofColors? fun key => (colors.find? fun m => m.1 = key).bind Prod.snd with
    | some p => .ok p
    | none => .error (.missingField "")

def encode (p : DarkPalette) : Json :=
  .object ((givenColors [
      ("background", p.background), ("foreground", p.foreground),
      ("card", p.card), ("cardForeground", p.cardForeground), ("popover", p.popover),
      ("popoverForeground", p.popoverForeground), ("primary", p.primary),
      ("primaryForeground", p.primaryForeground), ("secondary", p.secondary),
      ("secondaryForeground", p.secondaryForeground), ("muted", p.muted),
      ("mutedForeground", p.mutedForeground), ("accent", p.accent),
      ("accentForeground", p.accentForeground), ("destructive", p.destructive),
      ("border", p.border), ("input", p.input), ("ring", p.ring)]).map
    fun (key, c) => (key, c.encode))

end DarkPalette

end Restyle
