import Restyle.Tree.Kind

/-!
Errors: what can go wrong in each part of the library, the words for it, and a code for callers that
do not read words.
-/

namespace Restyle

/-- An error that can be told in words and by a code. -/
class Tellable (ε : Type) where
  message : ε → String
  code : ε → String

export Tellable (message code)

/-- The code in brackets and the words. -/
def tagged {ε : Type} [Tellable ε] (e : ε) : String :=
  "[" ++ code e ++ "] " ++ message e

/-- Why a text is no tree. -/
inductive ParseError where
  | syntaxError (place : Position) (message : String)
  | grammarMissing (message : String)
  | noTree
  deriving DecidableEq, Repr

namespace ParseError

/-- The place of the error, where there is one. -/
def place? : ParseError → Option Position
  | syntaxError place _ => some place
  | _ => none

instance : Tellable ParseError where
  message
    | syntaxError place message =>
      "Syntax error at " ++ toString place.line ++ ":" ++ toString place.column ++ ": " ++ message
    | grammarMissing message => "Failed to load grammar: " ++ message
    | noTree => "Parser produced no tree"
  code
    | grammarMissing _ => "GRAMMAR_ERROR"
    | _ => "PARSE_ERROR"

end ParseError

/-- Why tokens or a bundle are turned away. -/
inductive Rejection where
  | invalidJson (message : String)
  | unknownVariant (field value : String)
  | invalidColor (value message : String)
  | invalidField (field message : String)
  deriving DecidableEq, Repr

instance : Tellable Rejection where
  message
    | .invalidJson message => "Invalid JSON: " ++ message
    | .unknownVariant field value => "Unknown " ++ field ++ " `" ++ value ++ "`"
    | .invalidColor value message => "Invalid color `" ++ value ++ "`: " ++ message
    | .invalidField field message => "Invalid " ++ field ++ ": " ++ message
  code
    | .unknownVariant .. => "UNKNOWN_VARIANT"
    | _ => "VALIDATION_ERROR"

/-- Why there is no configuration. -/
inductive SettingsError where
  | unreadable (path : String)
  | parseError (path message : String)
  | ruleBroken (field message : String)
  | invalidValue (field message : String)
  deriving DecidableEq, Repr

instance : Tellable SettingsError where
  message
    | .unreadable path => "Config file not found: " ++ path
    | .parseError path message => "Config parse error in " ++ path ++ ": " ++ message
    | .ruleBroken field message =>
      "Config validation failed for " ++ field ++ ": " ++ message
    | .invalidValue field message => "Invalid config value for " ++ field ++ ": " ++ message
  code _ := "CONFIG_ERROR"

/-- Why there is no registry. -/
inductive RegistryError where
  | invalidName (name : String)
  | unwritable (message : String)
  deriving DecidableEq, Repr

instance : Tellable RegistryError where
  message
    | .invalidName name => "Invalid registry item name `" ++ name ++ "`"
    | .unwritable message => "Failed to serialize registry: " ++ message
  code _ := "REGISTRY_ERROR"

/-- Why nothing was generated. -/
inductive GenerationError where
  | noContent
  | generatorFailed (message : String)
  | rejected (cause : Rejection)
  deriving DecidableEq, Repr

instance : Tellable GenerationError where
  message
    | .noContent => "Generator returned no content"
    | .generatorFailed message => "Generator failed: " ++ message
    | .rejected cause => "Generated payload rejected: " ++ message cause
  code _ := "GENERATION_FAILED"

/-- Any error of the library. -/
inductive AnyError where
  | parse (e : ParseError)
  | validation (e : Rejection)
  | config (e : SettingsError)
  | registry (e : RegistryError)
  | generation (e : GenerationError)
  deriving DecidableEq, Repr

instance : Tellable AnyError where
  message
    | .parse e => "Parse error: " ++ message e
    | .validation e => "Validation error: " ++ message e
    | .config e => "Configuration error: " ++ message e
    | .registry e => "Registry error: " ++ message e
    | .generation e => "Generation error: " ++ message e
  code
    | .parse e => code e
    | .validation e => code e
    | .config e => code e
    | .registry e => code e
    | .generation e => code e

instance : Coe ParseError AnyError := ⟨.parse⟩
instance : Coe Rejection AnyError := ⟨.validation⟩
instance : Coe SettingsError AnyError := ⟨.config⟩
instance : Coe RegistryError AnyError := ⟨.registry⟩
instance : Coe GenerationError AnyError := ⟨.generation⟩

end Restyle
