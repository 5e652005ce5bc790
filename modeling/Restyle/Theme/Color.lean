import Restyle.Error
import Restyle.Json.Decode
import Restyle.Number.Read
import Restyle.Text.Blank
import Restyle.Text.Digit

/-!
Perceptual colors, written `oklch(L C H)`: lightness from 0 to 1, chroma from 0 to 0.4, and hue from
0 up to, but not including, 360.
-/

namespace Restyle

/-- A color by its three channels. -/
structure Color where
  lightness : Binary64
  chroma : Binary64
  hue : Binary64
  deriving DecidableEq, Repr

namespace Color

/-- The number `n / 10`, as near as possible. -/
def tenths (n : Nat) : Binary64 :=
  .ofDecimal false n (-1)

def zero : Binary64 := .zero false

/-- The color in its written form. -/
def text (c : Color) : String :=
  "oklch(" ++ c.lightness.plain ++ " " ++ c.chroma.plain ++ " " ++ c.hue.plain ++ ")"

instance : ToString Color := ⟨text⟩

def lightnessInRange (c : Color) : Bool :=
  zero.le c.lightness && c.lightness.le (tenths 10)

def chromaInRange (c : Color) : Bool :=
  zero.le c.chroma && c.chroma.le (tenths 4)

def hueInRange (c : Color) : Bool :=
  zero.le c.hue && c.hue.lt (tenths 3600)

/-- The color, if all channels are in range; the first one that is not is to blame. -/
def checked (c : Color) : Except Rejection Color :=
  if !c.lightnessInRange then
    .error (.invalidColor c.text "lightness must be between 0 and 1")
  else if !c.chromaInRange then
    .error (.invalidColor c.text "chroma must be between 0 and 0.4")
  else if !c.hueInRange then
    .error (.invalidColor c.text "hue must be in [0, 360)")
  else .ok c

/-- The color of three channels. -/
def make (lightness chroma hue : Binary64) : Except Rejection Color :=
  checked ⟨lightness, chroma, hue⟩

/-- A character of a channel, in the script of any language. -/
def isChannelChar (c : Char) : Bool :=
  Text.isDecimalDigit c || c = '.'

/-- The texts of the channels, if the text has the form of a color. -/
def channels? (text : List Char) : Option (List Char × List Char × List Char) :=
  let channel (text : List Char) : Option (List Char × List Char) :=
    let digits := text.takeWhile isChannelChar
    if digits.isEmpty then none else some (digits, text.drop digits.length)
  let blanks (text : List Char) : Option (List Char) :=
    match text with
    | c :: rest => if Text.isBlank c then some (rest.dropWhile Text.isBlank) else none
    | [] => none
  let lead := "oklch(".toList
  if lead.isPrefixOf text then do
    let (l, rest) ← channel (text.drop lead.length)
    let rest ← blanks rest
    let (c, rest) ← channel rest
    let rest ← blanks rest
    let (h, rest) ← channel rest
    if rest = [')'] then some (l, c, h) else none
  else none

/-- Reads a color. -/
def ofText (s : String) : Except Rejection Color :=
  match channels? s.toList with
  | none => .error (.invalidColor s "expected oklch(L C H)")
  | some (l, c, h) =>
    match Binary64.ofUnsigned? l, Binary64.ofUnsigned? c, Binary64.ofUnsigned? h with
    | some l, some c, some h => checked ⟨l, c, h⟩
    | _, _, _ => .error (.invalidColor s "channel is not a number")

/-- Whether a text is a color. -/
def isValid (s : String) : Bool :=
  (ofText s).isOk

def decode : Decoder Color :=
  Decoder.parsed fun s => (ofText s).mapError message

def encode (c : Color) : Json :=
  .string c.text

end Color

end Restyle
