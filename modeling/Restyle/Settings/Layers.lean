import Restyle.Error
import Restyle.Settings.Format
import Restyle.Text.Blank

/-!
Where settings come from. `Settings.load` asks three layers: the project's file, the environment,
and the command line. A later layer wins wherever it gives a value, and the result must pass
`Settings.check`.
-/

namespace Restyle.Settings

/-! ### Rules -/

def isWordStart (c : Char) : Bool :=
  ('a' ≤ c && c ≤ 'z') || ('A' ≤ c && c ≤ 'Z') || c = '_' || c = '$'

def isWordChar (c : Char) : Bool :=
  isWordStart c || ('0' ≤ c && c ≤ '9')

/-- Whether a text is a plain identifier. -/
def isIdentifier (s : String) : Bool :=
  match s.toList with
  | c :: cs => isWordStart c && cs.all isWordChar
  | [] => false

/-- Whether a text is the name of an attribute: an identifier that may be followed by more, with
dashes and colons. -/
def isAttributeName (s : String) : Bool :=
  isIdentifier ((Text.split (fun c => c = '-' || c = ':') s).headD "")
    && s.toList.all fun c => isWordChar c || c = '-' || c = ':'

/-- The first rule that the configuration breaks. -/
def check (c : Settings) : Except SettingsError Unit :=
  if c.transform.classAttributes.any fun name => !isAttributeName name then
    .error (.ruleBroken "transform.class_attributes"
      "entries must be non-empty JSX attribute names")
  else if c.transform.animationLibrary.any fun library =>
      Text.isBlankText library || library.toList.any fun d => d = '"' || d = '\'' || d = '\n' then
    .error (.ruleBroken "transform.animation_library"
      "must be a non-empty module specifier without quotes")
  else if c.transform.motionBinding.any fun binding => !isIdentifier binding then
    .error (.ruleBroken "transform.motion_binding" "must be a JavaScript identifier")
  else if c.registry.name.any Text.isBlankText then
    .error (.ruleBroken "registry.name" "must not be empty")
  else .ok ()

/-- The configuration, if it keeps the rules. -/
def checked (c : Settings) : Except SettingsError Settings :=
  match c.check with
  | .ok () => .ok c
  | .error e => .error e

/-- Reads a configuration from a document. -/
def ofToml (text : String) : Except SettingsError Settings :=
  match ofDocument? text with
  | none => .error (.parseError "<string>" "not a configuration")
  | some c => c.checked

/-! ### Layers -/

/-- The project's file. -/
inductive File where
  | absent
  | unreadable
  | content (text : String)
  deriving DecidableEq, Repr

/-- What the command line sets. -/
structure Overrides where
  classAttributes : Option (List String) := none
  animationLibrary : Option String := none
  motionBinding : Option String := none
  synthesizeMissingProps : Option Bool := none
  respectDirectives : Option Bool := none
  registryName : Option String := none
  registryHomepage : Option String := none
  deriving DecidableEq, Repr, Inhabited

/-- The variables of the environment. -/
abbrev Environment := String → Option String

/-- A value, unless a higher layer gives one. -/
def layered {α : Type} (higher lower : Option α) : Option α :=
  higher.orElse fun _ => lower

/-- A list, unless a higher layer gives one that is not empty. -/
def layeredList {α : Type} (higher lower : List α) : List α :=
  if higher.isEmpty then lower else higher

/-- Puts a document over a configuration. -/
def withDocument (c document : Settings) : Settings where
  transform := {
    classAttributes :=
      layeredList document.transform.classAttributes c.transform.classAttributes
    animationLibrary := layered document.transform.animationLibrary c.transform.animationLibrary
    motionBinding := layered document.transform.motionBinding c.transform.motionBinding
    synthesizeMissingProps :=
      layered document.transform.synthesizeMissingProps c.transform.synthesizeMissingProps
    respectDirectives :=
      layered document.transform.respectDirectives c.transform.respectDirectives }
  registry := {
    name := layered document.registry.name c.registry.name
    homepage := layered document.registry.homepage c.registry.homepage
    styleDependencies :=
      layeredList document.registry.styleDependencies c.registry.styleDependencies
    componentPathPrefix :=
      layered document.registry.componentPathPrefix c.registry.componentPathPrefix }

/-- The name of the project's file. -/
def fileName : String := "forge.toml"

/-- The layer of the project's file. -/
def ofFile (file : File) : Except SettingsError Settings :=
  match file with
  | .absent => .ok {}
  | .unreadable => .error (.unreadable fileName)
  | .content text =>
    match ofDocument? text with
    | some document => .ok (({} : Settings).withDocument document)
    | none => .error (.parseError fileName "not a configuration")

/-- A truth value in a variable. -/
def readBool (setting : String) (value : Option String) :
    Except SettingsError (Option Bool) :=
  match value with
  | none => .ok none
  | some v =>
    let word := Text.trim v
    if word = "true" then .ok (some true)
    else if word = "false" then .ok (some false)
    else .error (.invalidValue setting ("expected true or false, got `" ++ v ++ "`"))

/-- The parts of a list with commas that are not blank, without the blanks around them. -/
def commaParts (s : String) : List String :=
  ((Text.split (· = ',') s).map Text.trim).filter fun part => !part.isEmpty

/-- Puts the environment over a configuration. -/
def withEnvironment (c : Settings) (env : Environment) : Except SettingsError Settings :=
  let t := c.transform
  let synthesize := "FORGE_TRANSFORM_SYNTHESIZE_MISSING_PROPS"
  let respect := "FORGE_TRANSFORM_RESPECT_DIRECTIVES"
  match readBool synthesize (env synthesize) with
  | .error e => .error e
  | .ok synthesizeMissingProps =>
    match readBool respect (env respect) with
    | .error e => .error e
    | .ok respectDirectives =>
      .ok {
        transform := {
          classAttributes :=
            ((env "FORGE_TRANSFORM_CLASS_ATTRIBUTES").map commaParts).getD t.classAttributes
          animationLibrary :=
            layered (env "FORGE_TRANSFORM_ANIMATION_LIBRARY") t.animationLibrary
          motionBinding := layered (env "FORGE_TRANSFORM_MOTION_BINDING") t.motionBinding
          synthesizeMissingProps := layered synthesizeMissingProps t.synthesizeMissingProps
          respectDirectives := layered respectDirectives t.respectDirectives }
        registry := { c.registry with
          name := layered (env "FORGE_REGISTRY_NAME") c.registry.name
          homepage := layered (env "FORGE_REGISTRY_HOMEPAGE") c.registry.homepage } }

/-- Puts the command line over a configuration. -/
def withOverrides (c : Settings) (o : Overrides) : Settings where
  transform := {
    classAttributes := o.classAttributes.getD c.transform.classAttributes
    animationLibrary := layered o.animationLibrary c.transform.animationLibrary
    motionBinding := layered o.motionBinding c.transform.motionBinding
    synthesizeMissingProps := layered o.synthesizeMissingProps c.transform.synthesizeMissingProps
    respectDirectives := layered o.respectDirectives c.transform.respectDirectives }
  registry := { c.registry with
    name := layered o.registryName c.registry.name
    homepage := layered o.registryHomepage c.registry.homepage }

/-- The configuration of a project. -/
def load (file : File) (env : Environment) (overrides : Option Overrides) :
    Except SettingsError Settings :=
  match ofFile file with
  | .error e => .error e
  | .ok c =>
    match c.withEnvironment env with
    | .error e => .error e
    | .ok c => (c.withOverrides (overrides.getD {})).checked

end Restyle.Settings
