import Restyle.Theme.Palette
import Restyle.Theme.Radius
import Restyle.Text.Naming

/-!
Design tokens: a theme with its name, colors, fonts and corner radius. `ofJson` reads tokens and
turns away those whose name, description or fonts break the rules.
-/

namespace Restyle

/-- The font families of a theme. -/
structure Fonts where
  heading : String
  body : String
  mono : String
  deriving DecidableEq, Repr

/-- A theme. -/
structure Tokens where
  name : String
  description : String
  colors : Palette
  darkColors : DarkPalette
  fonts : Fonts
  radius : Radius
  deriving DecidableEq, Repr

namespace Fonts

/-- Fonts that are being decoded. -/
structure Draft where
  heading : Option String := none
  body : Option String := none
  mono : Option String := none

def decode : Decoder Fonts := fun levels r =>
  let record : Decoder.Record Draft := ⟨"FontSet", [
    .required "heading" Draft.heading (fun a s => { s with heading := some a }) Decoder.string,
    .required "body" Draft.body (fun a s => { s with body := some a }) Decoder.string,
    .required "mono" Draft.mono (fun a s => { s with mono := some a }) Decoder.string]⟩
  match record.decode {} levels r with
  | .ok ⟨some heading, some body, some mono⟩ => .ok ⟨heading, body, mono⟩
  | .ok _ => .error (.missingField "")
  | .error c => .error c

def encode (f : Fonts) : Json :=
  .object [("heading", .string f.heading), ("body", .string f.body), ("mono", .string f.mono)]

end Fonts

namespace Tokens

/-- The fewest characters of a description. -/
def minDescription : Nat := 10

/-- The most characters of a description. -/
def maxDescription : Nat := 500

/-- The first rule that the tokens break. -/
def check (t : Tokens) : Except Rejection Unit :=
  let length := t.description.length
  if !Text.isKebab t.name then .error (.invalidField "name" "must be kebab-case")
  else if length < minDescription || maxDescription < length then
    .error (.invalidField "description"
      ("must be " ++ toString minDescription ++ "-" ++ toString maxDescription
        ++ " characters, got " ++ toString length))
  else if Text.isBlankText t.fonts.heading then
    .error (.invalidField "fonts.heading" "must not be empty")
  else if Text.isBlankText t.fonts.body then
    .error (.invalidField "fonts.body" "must not be empty")
  else if Text.isBlankText t.fonts.mono then
    .error (.invalidField "fonts.mono" "must not be empty")
  else .ok ()

/-- Tokens that are being decoded. -/
structure Draft where
  name : Option String := none
  description : Option String := none
  colors : Option Palette := none
  darkColors : Option DarkPalette := none
  fonts : Option Fonts := none
  radius : Option Radius := none

def decode : Decoder Tokens := fun levels r =>
  let record : Decoder.Record Draft := ⟨"DesignTokens", [
    .required "name" Draft.name (fun a s => { s with name := some a }) Decoder.string,
    .required "description" Draft.description (fun a s => { s with description := some a })
      Decoder.string,
    .required "colors" Draft.colors (fun a s => { s with colors := some a }) Palette.decode,
    .required "darkColors" Draft.darkColors (fun a s => { s with darkColors := some a })
      DarkPalette.decode,
    .required "fonts" Draft.fonts (fun a s => { s with fonts := some a }) Fonts.decode,
    .required "radius" Draft.radius (fun a s => { s with radius := some a }) Radius.decode]⟩
  match record.decode {} levels r with
  | .ok ⟨some name, some description, some colors, some darkColors, some fonts, some radius⟩ =>
    .ok ⟨name, description, colors, darkColors, fonts, radius⟩
  | .ok _ => .error (.missingField "")
  | .error c => .error c

def encode (t : Tokens) : Json :=
  .object [("name", .string t.name), ("description", .string t.description),
    ("colors", t.colors.encode), ("darkColors", t.darkColors.encode), ("fonts", t.fonts.encode),
    ("radius", t.radius.encode)]

/-- Reads tokens and checks their rules. -/
def ofJson (json : String) : Except Rejection Tokens :=
  match Decoder.text decode json with
  | .error c => .error (.invalidJson c.message)
  | .ok t =>
    match t.check with
    | .error e => .error e
    | .ok () => .ok t

end Tokens

end Restyle
