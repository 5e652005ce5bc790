import Restyle.Error
import Restyle.Json.Value
import Restyle.Text.Dictionary

/-!
Customization bundles: what is to be done to a component. A bundle holds variables for the
stylesheet, animations, variants and modifications of the code.
-/

namespace Restyle

/-- What an animation is made of. -/
inductive AnimationKind where
  | keyframe
  | motionConfig
  deriving DecidableEq, Repr

/-- What sets an animation off. -/
inductive Trigger where
  | enter
  | exit
  | hover
  | tap
  | custom
  deriving DecidableEq, Repr

/-- The text of keyframes, or the settings of a motion. -/
inductive AnimationDefinition where
  | keyframes (css : String)
  | motion (settings : List (String × Json))
  deriving Repr

/-- An animation. -/
structure Animation where
  name : String
  kind : AnimationKind
  definition : AnimationDefinition
  trigger : Trigger
  deriving Repr

/-- A variant of a component and the classes that make it. -/
structure Variant where
  name : String
  classes : String
  deriving DecidableEq, Repr

/-- What a modification does to the elements it targets. -/
inductive ModificationAction where
  | addClass
  | addProp
  | wrapElement
  deriving DecidableEq, Repr

/-- A modification of the code: what to do to which elements, and with which value. -/
structure Modification where
  target : String
  action : ModificationAction
  value : String
  deriving DecidableEq, Repr

/-- What is to be done to a component. -/
structure Bundle where
  cssVars : Text.Dictionary
  animations : List Animation
  variants : List Variant
  modifications : List Modification
  deriving Repr

/-! ### Words -/

namespace AnimationKind

def text : AnimationKind → String
  | keyframe => "keyframe"
  | motionConfig => "motion-config"

/-- Reads a kind in today's word or in the one that was used before. -/
def ofText (s : String) : Except Rejection AnimationKind :=
  if s = "keyframe" || s = "css-keyframes" then .ok keyframe
  else if s = "motion-config" || s = "framer-motion" then .ok motionConfig
  else .error (.unknownVariant "animation kind" s)

end AnimationKind

namespace Trigger

def text : Trigger → String
  | enter => "enter"
  | exit => "exit"
  | hover => "hover"
  | tap => "tap"
  | custom => "custom"

/-- Every trigger under its word. -/
def cases : List (String × Trigger) :=
  [("enter", enter), ("exit", exit), ("hover", hover), ("tap", tap), ("custom", custom)]

def ofText (s : String) : Except Rejection Trigger :=
  match cases.find? fun c => c.1 = s with
  | some (_, t) => .ok t
  | none => .error (.unknownVariant "animation trigger" s)

end Trigger

namespace ModificationAction

def text : ModificationAction → String
  | addClass => "add-class"
  | addProp => "add-prop"
  | wrapElement => "wrap-element"

/-- Every action under its word. -/
def cases : List (String × ModificationAction) :=
  [("add-class", addClass), ("add-prop", addProp), ("wrap-element", wrapElement)]

def ofText (s : String) : Except Rejection ModificationAction :=
  match cases.find? fun c => c.1 = s with
  | some (_, a) => .ok a
  | none => .error (.unknownVariant "action" s)

end ModificationAction

/-- The definition that a value is, if it is a text or an object. -/
def AnimationDefinition.ofJson? : Json → Option AnimationDefinition
  | .string css => some (keyframes css)
  | .object settings => some (motion settings)
  | _ => none

/-! ### Bundles -/

namespace Bundle

/-- A bundle that asks for nothing. -/
def empty : Bundle := ⟨.empty, [], [], []⟩

instance : Inhabited Bundle := ⟨empty⟩

/-- Whether the bundle asks for nothing. -/
def isEmpty (b : Bundle) : Bool :=
  b.cssVars.isEmpty && b.animations.isEmpty && b.variants.isEmpty && b.modifications.isEmpty

/-- Whether a component needs the library of motions. -/
def needsMotion (b : Bundle) : Bool :=
  b.animations.any fun a => a.kind = .motionConfig

end Bundle

end Restyle
