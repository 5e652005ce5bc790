import Restyle.Bundle.Animations
import Restyle.Proofs.Bundle.Accepted
import Restyle.Proofs.Json.ReadBack
import Restyle.Proofs.Text.Pieces

/-!
What animations come to, in a stylesheet and in code.

* `Animation.Apt`: the definition of an animation is what its kind asks for;
* `Animations.mem_motionSettings_iff`: there are settings for the triggers of motions that are apt;
* `Animations.hasClass_of_mem_classes`, `Animations.isPartOf_of_apt`: classes are those of
  keyframes, and keyframes that are apt are in the stylesheet;
* `Bundle.generators_agree`: what is imported, set and classed, and what there is behind it if the
  animations are apt.
-/

namespace Restyle

/-! ### Single animations -/

namespace Animation

/-- The definition of an animation is what its kind asks for: a text that says something for
keyframes, and settings for a motion. -/
inductive Apt : Animation → Prop
  | keyframes (name : String) {css : String} (trigger : Trigger)
      (h : Text.isBlankText css = false) :
    Apt ⟨name, .keyframe, .keyframes css, trigger⟩
  | motion (name : String) (settings : List (String × Json)) (trigger : Trigger) :
    Apt ⟨name, .motionConfig, .motion settings, trigger⟩

/-- The class that runs the keyframes of an animation. -/
inductive HasClass : Animation → String → Prop
  | hover (name : String) (definition : AnimationDefinition) :
    HasClass ⟨name, .keyframe, definition, .hover⟩ ("hover:animate-" ++ name)
  | enter (name : String) (definition : AnimationDefinition) :
    HasClass ⟨name, .keyframe, definition, .enter⟩ ("animate-" ++ name)

lemma HasClass.kind_eq {a : Animation} {c : String} (h : a.HasClass c) : a.kind = .keyframe := by
  cases h
  all_goals rfl

/-- The keyframes of an animation are part of a stylesheet. -/
def IsPartOf (a : Animation) (css : String) : Prop :=
  ∃ text, a.definition = .keyframes text ∧ text.toList <:+: css.toList

end Animation

namespace Animations

variable {animations : List Animation} {a : Animation}

/-! ### Motions -/

/-- The settings with those of one more animation. -/
def addSettings (variants : List (String × Json)) (a : Animation) : List (String × Json) :=
  match a.kind, a.definition with
  | .motionConfig, .motion settings => Json.insert a.trigger.text (.object settings) variants
  | _, _ => variants

lemma motionSettings_eq (animations : List Animation) :
    motionSettings animations = animations.foldl addSettings [] := rfl

/-- An animation adds settings under its trigger if it is a motion and apt, and none otherwise. -/
lemma mem_addSettings_iff {trigger : String} {variants : List (String × Json)} :
    trigger ∈ (addSettings variants a).map Prod.fst
      ↔ trigger ∈ variants.map Prod.fst
        ∨ a.kind = .motionConfig ∧ a.Apt ∧ trigger = a.trigger.text := by
  obtain ⟨name, kind, definition, own⟩ := a
  cases kind with
  | keyframe => simp [addSettings]
  | motionConfig =>
    cases definition with
    | keyframes css =>
      have hnone : ¬ Animation.Apt ⟨name, .motionConfig, .keyframes css, own⟩ := nofun
      simp [addSettings, hnone]
    | motion settings =>
      have hapt : Animation.Apt ⟨name, .motionConfig, .motion settings, own⟩ := .motion ..
      simp only [addSettings, Json.mem_map_fst_insert, hapt, true_and]

/-- There are settings for the triggers of motions that are apt. -/
lemma mem_motionSettings_iff {trigger : String} :
    trigger ∈ (motionSettings animations).map Prod.fst
      ↔ ∃ a ∈ animations, a.kind = .motionConfig ∧ a.Apt ∧ trigger = a.trigger.text := by
  have hfold (variants : List (String × Json)) :
      trigger ∈ (animations.foldl addSettings variants).map Prod.fst
        ↔ trigger ∈ variants.map Prod.fst
          ∨ ∃ a ∈ animations, a.kind = .motionConfig ∧ a.Apt ∧ trigger = a.trigger.text := by
    induction animations generalizing variants with
    | nil => simp
    | cons a animations ih =>
      rw [List.foldl_cons, ih, mem_addSettings_iff, or_assoc, List.exists_mem_cons_iff]
  rw [motionSettings_eq, hfold]
  simp

/-- There are motion settings once some apt animation is of the motion kind. -/
lemma motionSettings_ne_nil_iff :
    motionSettings animations ≠ [] ↔ ∃ a ∈ animations, a.kind = .motionConfig ∧ a.Apt := by
  constructor
  · intro h
    obtain ⟨m, hm⟩ := List.exists_mem_of_ne_nil _ h
    obtain ⟨a, ha, hkind, hapt, -⟩ := mem_motionSettings_iff.mp (List.mem_map_of_mem hm)
    exact ⟨a, ha, hkind, hapt⟩
  · rintro ⟨a, ha, hkind, hapt⟩ hnone
    have hmem := mem_motionSettings_iff.mpr ⟨a, ha, hkind, hapt, rfl⟩
    rw [hnone] at hmem
    cases hmem

/-! ### Keyframes -/

/-- Every class listed is the class of some animation. -/
lemma hasClass_of_mem_classes {c : String} (h : c ∈ classes animations) :
    ∃ a ∈ animations, a.HasClass c := by
  obtain ⟨a, ha, hc⟩ := List.mem_filterMap.mp h
  refine ⟨a, ha, ?_⟩
  obtain ⟨name, kind, definition, trigger⟩ := a
  dsimp only at hc
  split at hc
  · cases hc
    exact .hover ..
  · cases hc
    exact .enter ..
  · cases hc

/-- The keyframes of an animation that is apt are in the stylesheet. -/
lemma isPartOf_of_apt (ha : a ∈ animations) (hkind : a.kind = .keyframe) (h : a.Apt) :
    a.IsPartOf (keyframesCss animations) := by
  cases h with
  | motion => cases hkind
  | @keyframes name css trigger hcss =>
    refine ⟨css, rfl, Text.infix_intercalate (List.mem_filterMap.mpr ⟨_, ha, ?_⟩)⟩
    dsimp only
    rw [hcss]
    rfl

lemma isBlankText_keyframesText (name : String) (steps : List String) :
    Text.isBlankText (keyframesText name steps) = false := by
  have hstart : Text.isBlank '@' = false := by decide
  simp [Text.isBlankText, keyframesText, hstart]

/-- The animations that are there from the start are apt. -/
lemma apt_of_mem_presets : ∀ a ∈ presets, a.Apt := by
  simp only [presets, List.forall_mem_cons, List.not_mem_nil, false_imp_iff, implies_true, and_true]
  refine ⟨?_, ?_, ?_, ?_, ?_, ?_⟩
  all_goals exact .keyframes _ _ (isBlankText_keyframesText _ _)

end Animations

/-! ### Bundles -/

namespace Bundle

open Animations

lemma needsMotion_iff {b : Bundle} :
    b.needsMotion = true ↔ ∃ a ∈ b.animations, a.kind = .motionConfig := by
  simp [needsMotion]

/-- What is asked for comes to something: the library of motions is needed only if there are
settings of motions, and each class belongs to an animation whose keyframes are in the
stylesheet. -/
structure Agrees (b : Bundle) : Prop where
  motion : b.needsMotion = true → motionSettings b.animations ≠ []
  classes : ∀ c ∈ classes b.animations, ∃ a ∈ b.animations,
    a.HasClass c ∧ a.IsPartOf (keyframesCss b.animations)

/-- The library of motions is needed if there is a motion, and there are settings exactly if there
is a motion that is apt. Each class is that of keyframes, and they are in the stylesheet if they are
apt. So where all animations are apt, what is asked for comes to something. -/
theorem generators_agree (b : Bundle) :
    (b.needsMotion = true ↔ ∃ a ∈ b.animations, a.kind = .motionConfig)
      ∧ (motionSettings b.animations ≠ [] ↔ ∃ a ∈ b.animations, a.kind = .motionConfig ∧ a.Apt)
      ∧ (∀ c ∈ classes b.animations, ∃ a ∈ b.animations,
        a.HasClass c ∧ (a.Apt → a.IsPartOf (keyframesCss b.animations)))
      ∧ ((∀ a ∈ b.animations, a.Apt) → b.Agrees) := by
  have hclasses : ∀ c ∈ classes b.animations, ∃ a ∈ b.animations,
      a.HasClass c ∧ (a.Apt → a.IsPartOf (keyframesCss b.animations)) := by
    intro c hc
    obtain ⟨a, ha, hclass⟩ := hasClass_of_mem_classes hc
    exact ⟨a, ha, hclass, isPartOf_of_apt ha hclass.kind_eq⟩
  refine ⟨needsMotion_iff, motionSettings_ne_nil_iff, hclasses,
    fun hapt => ⟨fun hneeds => ?_, fun c hc => ?_⟩⟩
  · obtain ⟨a, ha, hkind⟩ := needsMotion_iff.mp hneeds
    exact motionSettings_ne_nil_iff.mpr ⟨a, ha, hkind, hapt a ha⟩
  · obtain ⟨a, ha, hclass, hpart⟩ := hclasses c hc
    exact ⟨a, ha, hclass, hpart (hapt a ha)⟩

/-- The animations that are there from the start, and a motion beside them. -/
theorem generators_agree_presets :
    (∀ a ∈ ⟨"lift", .motionConfig, .motion [("y", .string "-2px")], .tap⟩ :: presets, a.Apt)
      ∧ Agrees ⟨.empty,
        ⟨"lift", .motionConfig, .motion [("y", .string "-2px")], .tap⟩ :: presets, [], []⟩ :=
  have hapt := List.forall_mem_cons.mpr
    ⟨.motion "lift" [("y", .string "-2px")] .tap, apt_of_mem_presets⟩
  ⟨hapt, (generators_agree _).2.2.2 hapt⟩

/-- A motion in words, and keyframes in settings. -/
def swapped : Json := .object [
  ("animations", .array [
    .object [("name", .string "lift"), ("kind", .string "motion-config"),
      ("definition", .string "y: -2px"), ("trigger", .string "hover")],
    .object [("name", .string "glow"), ("kind", .string "keyframe"),
      ("definition", .object [("opacity", .string "1")]), ("trigger", .string "enter")]])]

/-- The library of motions is needed without any settings, and a class runs keyframes that are
nowhere. -/
theorem generators_disagree : ∃ b, ofJson swapped.compact = .ok b
    ∧ ¬ (b.needsMotion = true → motionSettings b.animations ≠ [])
    ∧ ¬ ∀ c ∈ classes b.animations, ∃ a ∈ b.animations,
      a.HasClass c ∧ a.IsPartOf (keyframesCss b.animations) := by
  have htext : Decoder.text Payload.decode swapped.compact = .ok ⟨.empty,
      [⟨"lift", "motion-config", .string "y: -2px", "hover"⟩,
        ⟨"glow", "keyframe", .object [("opacity", .string "1")], "enter"⟩], [], []⟩ :=
    Json.text_compact rfl rfl
  refine ⟨⟨.empty, [⟨"lift", .motionConfig, .keyframes "y: -2px", .hover⟩,
    ⟨"glow", .keyframe, .motion [("opacity", .string "1")], .enter⟩], [], []⟩, ?_, ?_, ?_⟩
  · rw [ofJson_eq htext]
    rfl
  · exact fun h => h rfl rfl
  · intro h
    obtain ⟨a, ha, hclass, text, htext, -⟩ := h "animate-glow" (by decide)
    have hkind := hclass.kind_eq
    simp only [List.mem_cons, List.not_mem_nil, or_false] at ha
    obtain rfl | rfl := ha
    · cases hkind
    · cases htext

end Bundle

end Restyle
