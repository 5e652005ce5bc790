import Restyle.Bundle.Payload
import Restyle.Theme.Tokens

/-!
Generated payloads. A generator answers with a text or fails; what it answers is checked before
anything else sees it.
-/

namespace Restyle

namespace Generation

/-- What a generator answers: a text, or why it has none. -/
abbrev Response := Except GenerationError String

/-- Reads what a generator answers. -/
def accept {α : Type} (read : String → Except Rejection α) (response : Response) :
    Except GenerationError α :=
  match response with
  | .error e => .error e
  | .ok payload =>
    if Text.isBlankText payload then .error .noContent
    else (read payload).mapError .rejected

/-- The tokens that a generator answers with. -/
def tokens (response : Response) : Except GenerationError Tokens :=
  accept Tokens.ofJson response

/-- The customization of a component that a generator answers with. -/
def customization (response : Response) : Except GenerationError Bundle :=
  accept Bundle.ofJson response

end Generation

end Restyle
