import Restyle.Bundle.Basic
import Restyle.Text.Blank

/-!
What animations come to in a stylesheet and in code: the keyframes, the settings of motions by
trigger, and the classes that set keyframes off; and the animations that are there from the start.
-/

namespace Restyle

namespace Animations

/-- The texts of all keyframes, with an empty line between any two. -/
def keyframesCss (animations : List Animation) : String :=
  "\n\n".intercalate (animations.filterMap fun a =>
    match a.kind, a.definition with
    | .keyframe, .keyframes css => if Text.isBlankText css then none else some css
    | _, _ => none)

/-- The settings of motions by trigger. A later animation takes the place of an earlier one with
the same trigger. -/
def motionSettings (animations : List Animation) : List (String × Json) :=
  animations.foldl
    (fun variants a =>
      match a.kind, a.definition with
      | .motionConfig, .motion settings => Json.insert a.trigger.text (.object settings) variants
      | _, _ => variants)
    []

/-- The classes that run keyframes when a component enters or is hovered over. -/
def classes (animations : List Animation) : List String :=
  animations.filterMap fun a =>
    match a.kind, a.trigger with
    | .keyframe, .hover => some ("hover:animate-" ++ a.name)
    | .keyframe, .enter => some ("animate-" ++ a.name)
    | _, _ => none

/-- Keyframes as a stylesheet has them, one step a line. -/
def keyframesText (name : String) (steps : List String) : String :=
  "@keyframes " ++ name ++ " \x7b\n" ++ String.join (steps.map fun s => "  " ++ s ++ "\n") ++ "\x7d"

/-- One step of keyframes. -/
def step (place rules : String) : String :=
  place ++ " \x7b " ++ rules ++ " \x7d"

/-- The animations that are there from the start. -/
def presets : List Animation :=
  let preset (name : String) (trigger : Trigger) (steps : List String) : Animation :=
    ⟨name, .keyframe, .keyframes (keyframesText name steps), trigger⟩
  [preset "glitch" .hover [
      step "0%, 100%" "transform: translate(0);",
      step "20%" "transform: translate(-2px, 2px);",
      step "40%" "transform: translate(-2px, -2px);",
      step "60%" "transform: translate(2px, 2px);",
      step "80%" "transform: translate(2px, -2px);"],
    preset "neon-pulse" .enter [
      step "0%, 100%" "box-shadow: 0 0 5px var(--primary);",
      step "50%" "box-shadow: 0 0 20px var(--primary), 0 0 40px var(--primary);"],
    preset "fade-in" .enter [
      step "from" "opacity: 0;",
      step "to" "opacity: 1;"],
    preset "slide-up" .enter [
      step "from" "opacity: 0; transform: translateY(10px);",
      step "to" "opacity: 1; transform: translateY(0);"],
    preset "bounce" .hover [
      step "0%, 100%" "transform: translateY(0);",
      step "50%" "transform: translateY(-5px);"],
    preset "wiggle" .hover [
      step "0%, 100%" "transform: rotate(0deg);",
      step "25%" "transform: rotate(-3deg);",
      step "75%" "transform: rotate(3deg);"]]

/-- The animation of that name that is there from the start. -/
def preset? (name : String) : Option Animation :=
  presets.find? fun a => a.name = name

end Animations

namespace Variant

/-- The classes of variants by name. A later variant takes the place of an earlier one with the same
name. -/
def classMap (variants : List Variant) : Text.Dictionary :=
  Text.Dictionary.ofList (variants.map fun v => (v.name, v.classes))

end Variant

end Restyle
