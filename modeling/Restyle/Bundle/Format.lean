import Restyle.Bundle.Basic
import Restyle.Json.Decode

/-!
The parts of a bundle in JSON, in today's words.
-/

namespace Restyle

/-! ### Words -/

namespace AnimationKind

def decode : Decoder AnimationKind :=
  Decoder.enumeration [("keyframe", keyframe), ("motion-config", motionConfig)]

def encode (k : AnimationKind) : Json := .string k.text

end AnimationKind

namespace Trigger

def decode : Decoder Trigger := Decoder.enumeration cases

def encode (t : Trigger) : Json := .string t.text

end Trigger

namespace ModificationAction

def decode : Decoder ModificationAction := Decoder.enumeration cases

def encode (a : ModificationAction) : Json := .string a.text

end ModificationAction

/-! ### Parts of a bundle -/

namespace AnimationDefinition

def encode : AnimationDefinition → Json
  | keyframes css => .string css
  | motion settings => .object settings

def decode : Decoder AnimationDefinition := fun levels r =>
  match Decoder.json levels r with
  | .error c => .error c
  | .ok v =>
    match ofJson? v with
    | some d => .ok d
    | none =>
      .error (.custom "data did not match any variant of untagged enum AnimationDefinition")

end AnimationDefinition

namespace Animation

def encode (a : Animation) : Json :=
  .object [("name", .string a.name), ("kind", a.kind.encode), ("definition", a.definition.encode),
    ("trigger", a.trigger.encode)]

/-- An animation that is being decoded; `κ`, `δ` and `τ` are what its kind, definition and trigger
are decoded to. -/
structure Draft (κ δ τ : Type) where
  name : Option String := none
  kind : Option κ := none
  definition : Option δ := none
  trigger : Option τ := none

/-- The fields of an animation, each with the decoder for its type. -/
def fields {κ δ τ : Type} (kind : Decoder κ) (definition : Decoder δ) (trigger : Decoder τ) :
    List (Decoder.Field (Draft κ δ τ)) := [
  .required "name" Draft.name (fun a s => { s with name := some a }) Decoder.string,
  .required "kind" Draft.kind (fun a s => { s with kind := some a }) kind,
  .required "definition" Draft.definition (fun a s => { s with definition := some a }) definition,
  .required "trigger" Draft.trigger (fun a s => { s with trigger := some a }) trigger]

def record : Decoder.Record (Draft AnimationKind AnimationDefinition Trigger) :=
  ⟨"Animation", fields AnimationKind.decode AnimationDefinition.decode Trigger.decode⟩

def decode : Decoder Animation := fun levels r =>
  match record.decode {} levels r with
  | .ok ⟨some name, some kind, some definition, some trigger⟩ =>
    .ok ⟨name, kind, definition, trigger⟩
  | .ok _ => .error (.missingField "")
  | .error c => .error c

end Animation

namespace Variant

def encode (v : Variant) : Json :=
  .object [("name", .string v.name), ("classes", .string v.classes)]

/-- A variant that is being decoded. -/
structure Draft where
  name : Option String := none
  classes : Option String := none

def record : Decoder.Record Draft := ⟨"Variant", [
  .required "name" Draft.name (fun a s => { s with name := some a }) Decoder.string,
  .required "classes" Draft.classes (fun a s => { s with classes := some a }) Decoder.string]⟩

def decode : Decoder Variant := fun levels r =>
  match record.decode {} levels r with
  | .ok ⟨some name, some classes⟩ => .ok ⟨name, classes⟩
  | .ok _ => .error (.missingField "")
  | .error c => .error c

end Variant

namespace Modification

def encode (m : Modification) : Json :=
  .object [("target", .string m.target), ("action", m.action.encode), ("value", .string m.value)]

/-- A modification that is being decoded; `α` is what its action is decoded to. -/
structure Draft (α : Type) where
  target : Option String := none
  action : Option α := none
  value : Option String := none

/-- The fields of a modification, with the decoder for its action. -/
def fields {α : Type} (action : Decoder α) : List (Decoder.Field (Draft α)) := [
  .required "target" Draft.target (fun a s => { s with target := some a }) Decoder.string,
  .required "action" Draft.action (fun a s => { s with action := some a }) action,
  .required "value" Draft.value (fun a s => { s with value := some a }) Decoder.string]

def record : Decoder.Record (Draft ModificationAction) :=
  ⟨"CodeModification", fields ModificationAction.decode⟩

def decode : Decoder Modification := fun levels r =>
  match record.decode {} levels r with
  | .ok ⟨some target, some action, some value⟩ => .ok ⟨target, action, value⟩
  | .ok _ => .error (.missingField "")
  | .error c => .error c

end Modification

namespace Bundle

/-- A list under its name, which is left out if it holds nothing. -/
def part {α : Type} (name : String) (encode : α → Json) (as : List α) : List (String × Json) :=
  if as.isEmpty then [] else [(name, .array (as.map encode))]

/-- The variables, which are left out if there are none. -/
def vars (d : Text.Dictionary) : List (String × Json) :=
  if d.isEmpty then []
  else [("cssVars", .object (d.entries.map fun (k, v) => (k, .string v)))]

def encode (b : Bundle) : Json :=
  .object (vars b.cssVars ++ part "animations" Animation.encode b.animations
    ++ part "variants" Variant.encode b.variants
    ++ part "codeModifications" Modification.encode b.modifications)

end Bundle

end Restyle
