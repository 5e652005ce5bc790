import Restyle.Error
import Restyle.Json.Decode
import Restyle.Number.Read

/-!
Corner radii: none, a number of `rem`, or the pill shape.
-/

namespace Restyle

/-- How round the corners are. -/
inductive Radius where
  | zero
  | rem (n : Binary64)
  | pill
  deriving DecidableEq, Repr

namespace Radius

def text : Radius → String
  | zero => "0"
  | rem n => n.plain ++ "rem"
  | pill => "9999px"

instance : ToString Radius := ⟨text⟩

/-- The text before `rem`, if that is how the text ends. -/
def beforeRem? (s : String) : Option (List Char) :=
  match s.toList.reverse with
  | 'm' :: 'e' :: 'r' :: rest => some rest.reverse
  | _ => none

/-- Reads a radius. The number has neither sign nor exponent. -/
def ofText (s : String) : Except Rejection Radius :=
  if s = "0" then .ok zero
  else if s = "9999px" then .ok pill
  else
    match (beforeRem? s).bind Binary64.ofUnsigned? with
    | some n => .ok (rem n)
    | none => .error (.invalidField "radius" ("`" ++ s ++ "` is not 0, <number>rem or 9999px"))

def decode : Decoder Radius :=
  Decoder.parsed fun s => (ofText s).mapError message

def encode (r : Radius) : Json :=
  .string r.text

end Radius

end Restyle
