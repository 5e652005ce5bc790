import Restyle.Json.Decode
import Restyle.Settings.Basic
import Restyle.Toml.Reading

/-!
Settings in JSON and in TOML.
-/

namespace Restyle

/-! ### JSON -/

namespace TransformSettings

/-- A configuration that is being decoded; a field that is `none` has not been met. -/
structure Draft where
  classAttributes : Option (List String) := none
  animationLibrary : Option (Option String) := none
  motionBinding : Option (Option String) := none
  synthesizeMissingProps : Option (Option Bool) := none
  respectDirectives : Option (Option Bool) := none

def decode : Decoder TransformSettings := fun levels r =>
  let record : Decoder.Record Draft := ⟨"TransformConfig", [
    .defaulted "class_attributes" [] Draft.classAttributes
      (fun a s => { s with classAttributes := some a }) (Decoder.list Decoder.string),
    .defaulted "animation_library" none Draft.animationLibrary
      (fun a s => { s with animationLibrary := some a }) (Decoder.nullable Decoder.string),
    .defaulted "motion_binding" none Draft.motionBinding
      (fun a s => { s with motionBinding := some a }) (Decoder.nullable Decoder.string),
    .defaulted "synthesize_missing_props" none Draft.synthesizeMissingProps
      (fun a s => { s with synthesizeMissingProps := some a }) (Decoder.nullable Decoder.bool),
    .defaulted "respect_directives" none Draft.respectDirectives
      (fun a s => { s with respectDirectives := some a }) (Decoder.nullable Decoder.bool)]⟩
  (record.decode {} levels r).map fun s =>
    ⟨s.classAttributes.getD [], s.animationLibrary.join, s.motionBinding.join,
      s.synthesizeMissingProps.join, s.respectDirectives.join⟩

def encode (c : TransformSettings) : Json :=
  .object [("class_attributes", .strings c.classAttributes),
    ("animation_library", .ofOption .string c.animationLibrary),
    ("motion_binding", .ofOption .string c.motionBinding),
    ("synthesize_missing_props", .ofOption .bool c.synthesizeMissingProps),
    ("respect_directives", .ofOption .bool c.respectDirectives)]

end TransformSettings

namespace RegistrySettings

/-- A configuration that is being decoded; a field that is `none` has not been met. -/
structure Draft where
  name : Option (Option String) := none
  homepage : Option (Option String) := none
  styleDependencies : Option (List String) := none
  componentPathPrefix : Option (Option String) := none

def decode : Decoder RegistrySettings := fun levels r =>
  let record : Decoder.Record Draft := ⟨"RegistryConfig", [
    .defaulted "name" none Draft.name (fun a s => { s with name := some a })
      (Decoder.nullable Decoder.string),
    .defaulted "homepage" none Draft.homepage (fun a s => { s with homepage := some a })
      (Decoder.nullable Decoder.string),
    .defaulted "style_dependencies" [] Draft.styleDependencies
      (fun a s => { s with styleDependencies := some a }) (Decoder.list Decoder.string),
    .defaulted "component_path_prefix" none Draft.componentPathPrefix
      (fun a s => { s with componentPathPrefix := some a }) (Decoder.nullable Decoder.string)]⟩
  (record.decode {} levels r).map fun s =>
    ⟨s.name.join, s.homepage.join, s.styleDependencies.getD [], s.componentPathPrefix.join⟩

def encode (c : RegistrySettings) : Json :=
  .object [("name", .ofOption .string c.name), ("homepage", .ofOption .string c.homepage),
    ("style_dependencies", .strings c.styleDependencies),
    ("component_path_prefix", .ofOption .string c.componentPathPrefix)]

end RegistrySettings

namespace Settings

/-- A configuration that is being decoded; a field that is `none` has not been met. -/
structure Draft where
  transform : Option TransformSettings := none
  registry : Option RegistrySettings := none

def decode : Decoder Settings := fun levels r =>
  let record : Decoder.Record Draft := ⟨"ForgeConfig", [
    .defaulted "transform" {} Draft.transform (fun a s => { s with transform := some a })
      TransformSettings.decode,
    .defaulted "registry" {} Draft.registry (fun a s => { s with registry := some a })
      RegistrySettings.decode]⟩
  (record.decode {} levels r).map fun s => ⟨s.transform.getD {}, s.registry.getD {}⟩

def encode (c : Settings) : Json :=
  .object [("transform", c.transform.encode), ("registry", c.registry.encode)]

/-! ### TOML -/

def asString? : Toml → Option String
  | .string s => some s
  | _ => none

def asBool? : Toml → Option Bool
  | .boolean b => some b
  | _ => none

def asStrings? : Toml → Option (List String)
  | .array items => items.mapM asString?
  | _ => none

/-- A value under a key that may be missing but must then be of the right form. -/
def optionalEntry {α : Type} (as? : Toml → Option α) (value : Option Toml) : Option (Option α) :=
  match value with
  | none => some none
  | some v => (as? v).map some

/-- How the fields of a record are found: by their names in a table, or by their order in an array.
A date holds no fields. -/
def fieldsOf? (names : List String) : Toml → Option (String → Option Toml)
  | .table entries => some fun name => Toml.get? name entries
  | .array items => some fun name => (names.findIdx? (· = name)).bind fun i => items[i]?
  | .datetime _ => some fun _ => none
  | _ => none

def transformOfToml? (v : Toml) : Option TransformSettings := do
  let field ← fieldsOf? ["class_attributes", "animation_library", "motion_binding",
    "synthesize_missing_props", "respect_directives"] v
  let classAttributes ← optionalEntry asStrings? (field "class_attributes")
  let animationLibrary ← optionalEntry asString? (field "animation_library")
  let motionBinding ← optionalEntry asString? (field "motion_binding")
  let synthesizeMissingProps ← optionalEntry asBool? (field "synthesize_missing_props")
  let respectDirectives ← optionalEntry asBool? (field "respect_directives")
  return ⟨classAttributes.getD [], animationLibrary, motionBinding, synthesizeMissingProps,
    respectDirectives⟩

def registryOfToml? (v : Toml) : Option RegistrySettings := do
  let field ← fieldsOf? ["name", "homepage", "style_dependencies", "component_path_prefix"] v
  let name ← optionalEntry asString? (field "name")
  let homepage ← optionalEntry asString? (field "homepage")
  let styleDependencies ← optionalEntry asStrings? (field "style_dependencies")
  let componentPathPrefix ← optionalEntry asString? (field "component_path_prefix")
  return ⟨name, homepage, styleDependencies.getD [], componentPathPrefix⟩

/-- The configuration that a document says. Keys that mean nothing are ignored. -/
def ofDocument? (text : String) : Option Settings := do
  let entries ← Toml.ofText? text
  let transform ← optionalEntry transformOfToml? (Toml.get? "transform" entries)
  let registry ← optionalEntry registryOfToml? (Toml.get? "registry" entries)
  return ⟨transform.getD {}, registry.getD {}⟩

/-- A line of a document, if there is a value. -/
def tomlLine {α : Type} (key : String) (write : α → String) (value : Option α) : String :=
  match value with
  | some a => key ++ " = " ++ write a ++ "\n"
  | none => ""

/-- The configuration as a document. -/
def toToml (c : Settings) : String :=
  let bool (b : Bool) : String := if b then "true" else "false"
  "[transform]\n"
    ++ tomlLine "class_attributes" Toml.quoteList (some c.transform.classAttributes)
    ++ tomlLine "animation_library" Toml.quote c.transform.animationLibrary
    ++ tomlLine "motion_binding" Toml.quote c.transform.motionBinding
    ++ tomlLine "synthesize_missing_props" bool c.transform.synthesizeMissingProps
    ++ tomlLine "respect_directives" bool c.transform.respectDirectives
    ++ "\n[registry]\n"
    ++ tomlLine "name" Toml.quote c.registry.name
    ++ tomlLine "homepage" Toml.quote c.registry.homepage
    ++ tomlLine "style_dependencies" Toml.quoteList (some c.registry.styleDependencies)
    ++ tomlLine "component_path_prefix" Toml.quote c.registry.componentPathPrefix

end Settings

end Restyle
