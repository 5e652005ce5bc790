import Restyle.Bundle.Format
import Restyle.Text.Blank

/-!
Payloads: bundles as they arrive, with free texts for their words. `Bundle.ofPayload` accepts a
payload only if every word is known and every name and target says something, and otherwise blames
the first entry that is at fault.
-/

namespace Restyle

namespace Payload

/-- An animation as it arrives. -/
structure Animation where
  name : String
  kind : String
  definition : Json
  trigger : String
  deriving Repr

/-- A modification as it arrives. -/
structure Modification where
  target : String
  action : String
  value : String
  deriving DecidableEq, Repr

end Payload

/-- A bundle as it arrives, with free texts for its words. -/
structure Payload where
  cssVars : Text.Dictionary
  animations : List Payload.Animation
  variants : List Variant
  modifications : List Payload.Modification
  deriving Repr

namespace Payload

/-- Some fields also go by the names that they had before. -/
def Animation.fields : List (Decoder.Field (Restyle.Animation.Draft String Json String)) :=
  (Restyle.Animation.fields Decoder.string Decoder.json Decoder.string).map fun f =>
    match f.names with
    | ["kind"] => f.withName "type"
    | ["trigger"] => f.withName "appliesTo"
    | _ => f

def Animation.record : Decoder.Record (Restyle.Animation.Draft String Json String) :=
  ⟨"RawAnimation", Animation.fields⟩

def Animation.decode : Decoder Payload.Animation := fun levels r =>
  match Animation.record.decode {} levels r with
  | .ok ⟨some name, some kind, some definition, some trigger⟩ =>
    .ok ⟨name, kind, definition, trigger⟩
  | .ok _ => .error (.missingField "")
  | .error c => .error c

def Modification.record : Decoder.Record (Restyle.Modification.Draft String) :=
  ⟨"RawModification", Restyle.Modification.fields Decoder.string⟩

def Modification.decode : Decoder Payload.Modification := fun levels r =>
  match Modification.record.decode {} levels r with
  | .ok ⟨some target, some action, some value⟩ => .ok ⟨target, action, value⟩
  | .ok _ => .error (.missingField "")
  | .error c => .error c

/-- A payload that is being decoded. Each part may be absent or `null`. -/
structure Draft where
  cssVars : Option (Option (List (String × String))) := none
  animations : Option (Option (List Payload.Animation)) := none
  variants : Option (Option (List Variant)) := none
  modifications : Option (Option (List Payload.Modification)) := none

def record : Decoder.Record Draft := ⟨"RawBundle", [
  .defaulted "cssVars" none Draft.cssVars (fun a s => { s with cssVars := some a })
    (Decoder.nullable (Decoder.pairs Decoder.string)),
  .defaulted "animations" none Draft.animations (fun a s => { s with animations := some a })
    (Decoder.nullable (Decoder.list Animation.decode)),
  .defaulted "variants" none Draft.variants (fun a s => { s with variants := some a })
    (Decoder.nullable (Decoder.list Variant.decode)),
  .defaulted "codeModifications" none Draft.modifications
    (fun a s => { s with modifications := some a })
    (Decoder.nullable (Decoder.list Modification.decode))]⟩

/-- The payload of a draft; what is lacking in it holds nothing. -/
def ofDraft (s : Draft) : Payload where
  cssVars := Text.Dictionary.ofList (s.cssVars.join.getD [])
  animations := s.animations.join.getD []
  variants := s.variants.join.getD []
  modifications := s.modifications.join.getD []

def decode : Decoder Payload := fun levels r =>
  (record.decode {} levels r).map ofDraft

end Payload

namespace Bundle

/-- Accepts the animation at an index, unless one of its words is unknown or a part says
nothing. -/
def acceptAnimation (index : Nat) (a : Payload.Animation) : Except Rejection Animation :=
  let field (name : String) : String := "animations[" ++ toString index ++ "]." ++ name
  match AnimationKind.ofText a.kind with
  | .error e => .error e
  | .ok kind =>
    match Trigger.ofText a.trigger with
    | .error e => .error e
    | .ok trigger =>
      match AnimationDefinition.ofJson? a.definition with
      | none =>
        .error (.invalidField (field "definition")
          "must be keyframe text or a configuration object")
      | some definition =>
        if Text.isBlankText a.name then
          .error (.invalidField (field "name") "must not be empty")
        else .ok ⟨a.name, kind, definition, trigger⟩

/-- Accepts the modification at an index, unless its action is unknown or its target says
nothing. -/
def acceptModification (index : Nat) (m : Payload.Modification) :
    Except Rejection Modification :=
  match ModificationAction.ofText m.action with
  | .error e => .error e
  | .ok action =>
    if Text.isBlankText m.target then
      .error (.invalidField ("codeModifications[" ++ toString index ++ "].target")
        "must not be empty")
    else .ok ⟨m.target, action, m.value⟩

/-- Accepts all entries of a list, or blames the first that is at fault. Indices count from
`index`. -/
def acceptAll {α β : Type} (accept : Nat → α → Except Rejection β) (index : Nat) :
    List α → Except Rejection (List β)
  | [] => .ok []
  | a :: as =>
    match accept index a with
    | .error e => .error e
    | .ok b => (acceptAll accept (index + 1) as).map (b :: ·)

/-- Accepts a payload. The animations are settled before the modifications. -/
def ofPayload (p : Payload) : Except Rejection Bundle :=
  match acceptAll acceptAnimation 0 p.animations with
  | .error e => .error e
  | .ok animations =>
    match acceptAll acceptModification 0 p.modifications with
    | .error e => .error e
    | .ok modifications => .ok ⟨p.cssVars, animations, p.variants, modifications⟩

/-- Reads a bundle. -/
def ofJson (json : String) : Except Rejection Bundle :=
  match Decoder.text Payload.decode json with
  | .error c => .error (.invalidJson c.message)
  | .ok p => ofPayload p

/-- Decodes a bundle that is part of a larger text. -/
def decode : Decoder Bundle := fun levels r =>
  match Payload.decode levels r with
  | .error c => .error c
  | .ok p => (ofPayload p).mapError fun e => .custom (message e)

end Bundle

end Restyle
