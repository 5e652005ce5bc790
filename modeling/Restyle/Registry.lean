import Restyle.Error
import Restyle.Settings.Format
import Restyle.Stylesheet

/-!
Registries: the documents by which themes and components are handed on. The theme is one item that
carries its variables; each component is an item that carries its file.
-/

namespace Restyle

/-- What an item or a file is. -/
inductive ItemType where
  | style
  | ui
  deriving DecidableEq, Repr

/-- A file of an item. -/
structure ItemFile where
  path : String
  fileType : ItemType
  content : Option String
  deriving DecidableEq, Repr

/-- Variables by scope, in the order in which they are declared. -/
structure ScopedVars where
  theme : List (String × Json) := []
  light : List (String × Json) := []
  dark : List (String × Json) := []
  deriving Repr

/-- A theme or component that can be handed on. -/
structure RegistryItem where
  schema : Option String
  name : String
  itemType : ItemType
  dependencies : List String
  registryDependencies : List String
  files : List ItemFile
  cssVars : Option ScopedVars
  deriving Repr

/-- A registry. -/
structure Registry where
  schema : String
  name : String
  homepage : Option String
  items : List RegistryItem
  deriving Repr

namespace ItemType

def text : ItemType → String
  | style => "registry:style"
  | ui => "registry:ui"

def decode : Decoder ItemType :=
  Decoder.enumeration [("registry:style", style), ("registry:ui", ui)]

def encode (t : ItemType) : Json := .string t.text

end ItemType

namespace ItemFile

def encode (f : ItemFile) : Json :=
  .object ([("path", .string f.path), ("type", f.fileType.encode)]
    ++ Json.member? "content" (f.content.map .string))

/-- A file that is being decoded. -/
structure Draft where
  path : Option String := none
  fileType : Option ItemType := none
  content : Option (Option String) := none

def decode : Decoder ItemFile := fun levels r =>
  let record : Decoder.Record Draft := ⟨"RegistryFile", [
    .required "path" Draft.path (fun a s => { s with path := some a }) Decoder.string,
    .required "type" Draft.fileType (fun a s => { s with fileType := some a }) ItemType.decode,
    .defaulted "content" none Draft.content (fun a s => { s with content := some a })
      (Decoder.nullable Decoder.string)]⟩
  match record.decode {} levels r with
  | .ok ⟨some path, some fileType, content⟩ => .ok ⟨path, fileType, content.join⟩
  | .ok _ => .error (.missingField "")
  | .error c => .error c

end ItemFile

namespace ScopedVars

/-- A scope without variables is left out. -/
def encode (v : ScopedVars) : Json :=
  let scope (name : String) (vars : List (String × Json)) : List (String × Json) :=
    if vars.isEmpty then [] else [(name, .object vars)]
  .object (scope "theme" v.theme ++ scope "light" v.light ++ scope "dark" v.dark)

/-- Variables that are being decoded. -/
structure Draft where
  theme : Option (List (String × Json)) := none
  light : Option (List (String × Json)) := none
  dark : Option (List (String × Json)) := none

def decode : Decoder ScopedVars := fun levels r =>
  let record : Decoder.Record Draft := ⟨"CssVars", [
    .defaulted "theme" [] Draft.theme (fun a s => { s with theme := some a }) Decoder.jsonObject,
    .defaulted "light" [] Draft.light (fun a s => { s with light := some a }) Decoder.jsonObject,
    .defaulted "dark" [] Draft.dark (fun a s => { s with dark := some a }) Decoder.jsonObject]⟩
  (record.decode {} levels r).map fun s =>
    ⟨s.theme.getD [], s.light.getD [], s.dark.getD []⟩

/-- The variables of declarations; a later declaration takes the place of an earlier one. -/
def ofDeclarations (declarations : List (String × String)) : List (String × Json) :=
  declarations.foldl (fun vars (name, value) => Json.insert name (.string value) vars) []

end ScopedVars

namespace RegistryItem

/-- Lists that hold nothing are left out, except for the files. -/
def encode (i : RegistryItem) : Json :=
  let list (name : String) (ss : List String) : List (String × Json) :=
    if ss.isEmpty then [] else [(name, .strings ss)]
  .object (Json.member? "$schema" (i.schema.map .string)
    ++ [("name", .string i.name), ("type", i.itemType.encode)]
    ++ list "dependencies" i.dependencies
    ++ list "registryDependencies" i.registryDependencies
    ++ [("files", .array (i.files.map ItemFile.encode))]
    ++ Json.member? "cssVars" (i.cssVars.map ScopedVars.encode))

/-- An item that is being decoded. -/
structure Draft where
  schema : Option (Option String) := none
  name : Option String := none
  itemType : Option ItemType := none
  dependencies : Option (List String) := none
  registryDependencies : Option (List String) := none
  files : Option (List ItemFile) := none
  cssVars : Option (Option ScopedVars) := none

def decode : Decoder RegistryItem := fun levels r =>
  let record : Decoder.Record Draft := ⟨"RegistryItem", [
    .defaulted "$schema" none Draft.schema (fun a s => { s with schema := some a })
      (Decoder.nullable Decoder.string),
    .required "name" Draft.name (fun a s => { s with name := some a }) Decoder.string,
    .required "type" Draft.itemType (fun a s => { s with itemType := some a }) ItemType.decode,
    .defaulted "dependencies" [] Draft.dependencies (fun a s => { s with dependencies := some a })
      (Decoder.list Decoder.string),
    .defaulted "registryDependencies" [] Draft.registryDependencies
      (fun a s => { s with registryDependencies := some a }) (Decoder.list Decoder.string),
    .required "files" Draft.files (fun a s => { s with files := some a })
      (Decoder.list ItemFile.decode),
    .defaulted "cssVars" none Draft.cssVars (fun a s => { s with cssVars := some a })
      (Decoder.nullable ScopedVars.decode)]⟩
  match record.decode {} levels r with
  | .ok ⟨schema, some name, some itemType, dependencies, registryDependencies, some files,
      cssVars⟩ =>
    .ok ⟨schema.join, name, itemType, dependencies.getD [], registryDependencies.getD [], files,
      cssVars.join⟩
  | .ok _ => .error (.missingField "")
  | .error c => .error c

/-- The item as a document. -/
def toJson (i : RegistryItem) : String :=
  i.encode.pretty

end RegistryItem

namespace Registry

def encode (r : Registry) : Json :=
  .object ([("$schema", .string r.schema), ("name", .string r.name)]
    ++ Json.member? "homepage" (r.homepage.map .string)
    ++ [("items", .array (r.items.map RegistryItem.encode))])

/-- A registry that is being decoded. -/
structure Draft where
  schema : Option String := none
  name : Option String := none
  homepage : Option (Option String) := none
  items : Option (List RegistryItem) := none

def decode : Decoder Registry := fun levels r =>
  let record : Decoder.Record Draft := ⟨"Registry", [
    .required "$schema" Draft.schema (fun a s => { s with schema := some a }) Decoder.string,
    .required "name" Draft.name (fun a s => { s with name := some a }) Decoder.string,
    .defaulted "homepage" none Draft.homepage (fun a s => { s with homepage := some a })
      (Decoder.nullable Decoder.string),
    .required "items" Draft.items (fun a s => { s with items := some a })
      (Decoder.list RegistryItem.decode)]⟩
  match record.decode {} levels r with
  | .ok ⟨some schema, some name, homepage, some items⟩ => .ok ⟨schema, name, homepage.join, items⟩
  | .ok _ => .error (.missingField "")
  | .error c => .error c

/-- The registry as a document. -/
def toJson (r : Registry) : String :=
  r.encode.pretty

/-- The first item of that name. -/
def item? (r : Registry) (name : String) : Option RegistryItem :=
  r.items.find? fun i => i.name = name

/-! ### Assembly -/

/-- The schema of registries. -/
def schemaUrl : String := "https://ui.shadcn.com/schema/registry.json"

/-- The schema of items. -/
def itemSchemaUrl : String := "https://ui.shadcn.com/schema/registry-item.json"

/-- The registry of a list of items. -/
def build (name : String) (homepage : Option String) (items : List RegistryItem) : Registry :=
  ⟨schemaUrl, name, homepage, items⟩

/-- The item of a theme. -/
def themeItem (t : Tokens) (settings : RegistrySettings) : RegistryItem where
  schema := some itemSchemaUrl
  name := "style"
  itemType := .style
  dependencies := settings.actualStyleDependencies
  registryDependencies := ["utils"]
  files := []
  cssVars := some {
    theme := ScopedVars.ofDeclarations [("font-sans", t.fonts.body),
      ("font-heading", t.fonts.heading), ("font-mono", t.fonts.mono)]
    light := ScopedVars.ofDeclarations
      (("radius", t.radius.text) :: t.colors.declared.map fun (role, c) => (role, c.text))
    dark := ScopedVars.ofDeclarations (t.darkColors.declared.map fun (role, c) => (role, c.text)) }

/-- The path of a component's file. -/
def componentPath (settings : RegistrySettings) (name : String) : String :=
  settings.actualComponentPathPrefix ++ "/" ++ name ++ "/" ++ name ++ ".tsx"

/-- The item of a component. -/
def componentItem (name code : String) (dependencies registryDependencies : List String)
    (settings : RegistrySettings) : Except RegistryError RegistryItem :=
  if !Text.isKebab name then .error (.invalidName name)
  else
    .ok {
      schema := some itemSchemaUrl
      name := name
      itemType := .ui
      dependencies := dependencies
      registryDependencies := registryDependencies
      files := [⟨componentPath settings name, .ui, some code⟩]
      cssVars := none }

end Registry

end Restyle
