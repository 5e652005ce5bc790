import Restyle.Proofs.Bundle.RoundTrip
import Restyle.Proofs.Json.ReadBack

/-!
Payloads are accepted all or nothing, and the first entry at fault is blamed.

* `Settles`: a result that is settled by what is right and what is wrong;
* `Payload.Animation.Sound`, `Payload.Animation.Fault`: an animation in which nothing is wrong, and
  what is blamed in any other, in the order of the checks; so for modifications;
* `FirstFault`: the blame on the first entry of a list at fault, which goes by its index;
* `Bundle.settles_acceptAll`, `Bundle.settles_ofPayload`: lists and payloads are settled by their
  entries;
* `Bundle.ofJson_settled`: when a text is read as a bundle, which bundle this is, and what is blamed
  otherwise.
-/

namespace Restyle

/-! ### Results -/

/-- A result is settled by what is right and what is wrong: it answers with what is right, if there
is such a thing, and blames what is wrong otherwise. -/
structure Settles {ε α : Type} (result : Except ε α) (Right : α → Prop) (Wrong : ε → Prop) :
    Prop where
  ok : ∀ a, Right a → result = .ok a
  error : ∀ e, Wrong e → result = .error e
  total : (∃ a, Right a) ∨ ∃ e, Wrong e

namespace Settles

variable {ε α : Type} {result : Except ε α} {Right : α → Prop} {Wrong : ε → Prop}

/-- A settled result is a value just when that value is right. -/
lemma eq_ok_iff (h : Settles result Right Wrong) {a : α} : result = .ok a ↔ Right a := by
  refine ⟨fun hok => ?_, h.ok a⟩
  obtain ⟨b, hb⟩ | ⟨e, he⟩ := h.total
  · obtain rfl : b = a := Except.ok.inj ((h.ok b hb).symm.trans hok)
    exact hb
  · cases (h.error e he).symm.trans hok

/-- A settled result is an error just when that error is the fault. -/
lemma eq_error_iff (h : Settles result Right Wrong) {e : ε} : result = .error e ↔ Wrong e := by
  refine ⟨fun herror => ?_, h.error e⟩
  obtain ⟨a, ha⟩ | ⟨e', he⟩ := h.total
  · cases (h.ok a ha).symm.trans herror
  · obtain rfl : e' = e := Except.error.inj ((h.error e' he).symm.trans herror)
    exact he

lemma exists_ok_iff (h : Settles result Right Wrong) : (∃ a, result = .ok a) ↔ ∃ a, Right a :=
  exists_congr fun _ => h.eq_ok_iff

end Settles

/-- The blame on the first entry of a list at fault: all entries before it are sound. An entry is
blamed under its index, which counts from zero. -/
def FirstFault {α : Type} (Sound : α → Prop) (Fault : ℕ → α → Rejection → Prop) (as : List α)
    (e : Rejection) : Prop :=
  ∃ before a behind, as = before ++ a :: behind ∧ (∀ b ∈ before, Sound b) ∧ Fault before.length a e

/-! ### Words -/

/-- The words for a kind: today's and the one that was used before. -/
def AnimationKind.words : AnimationKind → List String
  | keyframe => ["keyframe", "css-keyframes"]
  | motionConfig => ["motion-config", "framer-motion"]

/-- The words of the kinds are read, and any other word is an unknown variant. -/
lemma AnimationKind.settles_ofText (s : String) :
    Settles (ofText s) (fun k => s ∈ k.words)
      fun e => (∀ k : AnimationKind, s ∉ k.words) ∧ e = .unknownVariant "animation kind" s where
  ok k hk := by
    cases k
    all_goals
      simp only [words, List.mem_cons, List.not_mem_nil, or_false] at hk
      obtain rfl | rfl := hk
      all_goals rfl
  error e he := by
    obtain ⟨hnone, rfl⟩ := he
    have hkeyframe := hnone keyframe
    have hmotion := hnone motionConfig
    simp only [words, List.mem_cons, List.not_mem_nil, or_false, not_or] at hkeyframe hmotion
    simp [ofText, hkeyframe, hmotion]
  total := by
    by_cases h : ∃ k : AnimationKind, s ∈ k.words
    · exact .inl h
    · exact .inr ⟨_, not_exists.mp h, rfl⟩

/-- A word that is looked up among all that there are is settled by what they stand for. -/
lemma settles_of_find? {α : Type} {cases : List (String × α)} {text : α → String} {s : String}
    {e : Rejection} {result : Except Rejection α}
    (hsome : ∀ c, cases.find? (fun c => c.1 = s) = some c → result = .ok c.2)
    (hnone : cases.find? (fun c => c.1 = s) = none → result = .error e)
    (hcases : ∀ c ∈ cases, text c.2 = c.1)
    (hfound : ∀ a, cases.find? (fun c => c.1 = text a) = some (text a, a)) :
    Settles result (fun a => text a = s) fun e' => (∀ a, text a ≠ s) ∧ e' = e where
  ok a ha := hsome (text a, a) (ha ▸ hfound a)
  error e' he := by
    obtain ⟨hunknown, rfl⟩ := he
    refine hnone (List.find?_eq_none.mpr fun c hc hword => hunknown c.2 ?_)
    exact (hcases c hc).trans (of_decide_eq_true hword)
  total := by
    by_cases h : ∃ a, text a = s
    · exact .inl h
    · exact .inr ⟨e, not_exists.mp h, rfl⟩

/-- The words of the triggers are read, and any other word is an unknown variant. -/
lemma Trigger.settles_ofText (s : String) :
    Settles (ofText s) (fun t => t.text = s)
      fun e => (∀ t : Trigger, t.text ≠ s) ∧ e = .unknownVariant "animation trigger" s := by
  refine settles_of_find? (fun c hc => ?_) (fun hc => ?_)
    (by decide : ∀ c ∈ cases, c.2.text = c.1) fun t => ?_
  · rw [ofText, hc]
  · rw [ofText, hc]
  · cases t
    all_goals rfl

/-- The words of the actions are read, and any other word is an unknown variant. -/
lemma ModificationAction.settles_ofText (s : String) :
    Settles (ofText s) (fun a => a.text = s)
      fun e => (∀ a : ModificationAction, a.text ≠ s) ∧ e = .unknownVariant "action" s := by
  refine settles_of_find? (fun c hc => ?_) (fun hc => ?_)
    (by decide : ∀ c ∈ cases, c.2.text = c.1) fun a => ?_
  · rw [ofText, hc]
  · rw [ofText, hc]
  · cases a
    all_goals rfl

/-! ### Entries -/

namespace Payload

/-- Nothing is wrong in an animation: its kind and its trigger are known, its definition is a text
or an object, and its name says something. -/
structure Animation.Sound (p : Payload.Animation) : Prop where
  kind : ∃ k : AnimationKind, p.kind ∈ k.words
  trigger : ∃ t : Trigger, t.text = p.trigger
  definition : (∃ css, p.definition = .string css) ∨ ∃ settings, p.definition = .object settings
  name : Text.isBlankText p.name = false

/-- The animation that arrives is taken for another: they have the same parts. -/
structure Animation.Means (p : Payload.Animation) (a : Restyle.Animation) : Prop where
  kind : p.kind ∈ a.kind.words
  trigger : a.trigger.text = p.trigger
  definition : a.definition.encode = p.definition
  name : a.name = p.name ∧ Text.isBlankText p.name = false

/-- The path to a part of the animation at an index. -/
def Animation.path (index : ℕ) (part : String) : String :=
  "animations[" ++ toString index ++ "]." ++ part

/-- What an animation at an index is blamed for: the first of its parts in which something is
wrong. -/
inductive Animation.Fault (index : ℕ) (p : Payload.Animation) : Rejection → Prop
  | kind (h : ∀ k : AnimationKind, p.kind ∉ k.words) :
    Fault index p (.unknownVariant "animation kind" p.kind)
  | trigger (hkind : ∃ k : AnimationKind, p.kind ∈ k.words)
    (h : ∀ t : Trigger, t.text ≠ p.trigger) :
    Fault index p (.unknownVariant "animation trigger" p.trigger)
  | definition (hkind : ∃ k : AnimationKind, p.kind ∈ k.words)
    (htrigger : ∃ t : Trigger, t.text = p.trigger) (hstring : ∀ css, p.definition ≠ .string css)
    (hobject : ∀ settings, p.definition ≠ .object settings) :
    Fault index p (.invalidField (path index "definition")
      "must be keyframe text or a configuration object")
  | name (hkind : ∃ k : AnimationKind, p.kind ∈ k.words)
    (htrigger : ∃ t : Trigger, t.text = p.trigger)
    (hdefinition : (∃ css, p.definition = .string css)
      ∨ ∃ settings, p.definition = .object settings)
    (h : Text.isBlankText p.name = true) :
    Fault index p (.invalidField (path index "name") "must not be empty")

/-- Nothing is wrong in a modification: its action is known, and its target says something. -/
structure Modification.Sound (p : Payload.Modification) : Prop where
  action : ∃ a : ModificationAction, a.text = p.action
  target : Text.isBlankText p.target = false

/-- The modification that arrives is taken for another: they have the same parts. -/
structure Modification.Means (p : Payload.Modification) (m : Restyle.Modification) : Prop where
  action : m.action.text = p.action
  target : m.target = p.target ∧ Text.isBlankText p.target = false
  value : m.value = p.value

/-- What a modification at an index is blamed for: the first of its parts in which something is
wrong. -/
inductive Modification.Fault (index : ℕ) (p : Payload.Modification) : Rejection → Prop
  | action (h : ∀ a : ModificationAction, a.text ≠ p.action) :
    Fault index p (.unknownVariant "action" p.action)
  | target (haction : ∃ a : ModificationAction, a.text = p.action)
    (h : Text.isBlankText p.target = true) :
    Fault index p (.invalidField ("codeModifications[" ++ toString index ++ "].target")
      "must not be empty")

/-- A definition is made of a text or of an object. -/
lemma exists_encode_iff {v : Json} :
    (∃ d : AnimationDefinition, d.encode = v)
      ↔ (∃ css, v = .string css) ∨ ∃ settings, v = .object settings := by
  constructor
  · rintro ⟨css | settings, rfl⟩
    · exact .inl ⟨css, rfl⟩
    · exact .inr ⟨settings, rfl⟩
  · rintro (⟨css, rfl⟩ | ⟨settings, rfl⟩)
    · exact ⟨.keyframes css, rfl⟩
    · exact ⟨.motion settings, rfl⟩

/-- An entry is sound just when some animation is what it means. -/
lemma Animation.sound_iff {p : Payload.Animation} : p.Sound ↔ ∃ a, p.Means a := by
  constructor
  · rintro ⟨⟨kind, hkind⟩, ⟨trigger, htrigger⟩, hdefinition, hname⟩
    obtain ⟨definition, hencode⟩ := exists_encode_iff.mpr hdefinition
    exact ⟨⟨p.name, kind, definition, trigger⟩, hkind, htrigger, hencode, rfl, hname⟩
  · rintro ⟨a, h⟩
    exact ⟨⟨_, h.kind⟩, ⟨_, h.trigger⟩, exists_encode_iff.mp ⟨_, h.definition⟩, h.name.2⟩

/-- An entry is sound just when some modification is what it means. -/
lemma Modification.sound_iff {p : Payload.Modification} : p.Sound ↔ ∃ m, p.Means m := by
  constructor
  · rintro ⟨⟨action, haction⟩, htarget⟩
    exact ⟨⟨p.target, action, p.value⟩, haction, ⟨rfl, htarget⟩, rfl⟩
  · rintro ⟨m, h⟩
    exact ⟨⟨_, h.action⟩, h.target.2⟩

/-- An animation entry without a fault is sound. -/
lemma Animation.sound_or_fault (index : ℕ) (p : Payload.Animation) :
    p.Sound ∨ ∃ e, p.Fault index e := by
  by_cases hkind : ∃ k : AnimationKind, p.kind ∈ k.words
  · by_cases htrigger : ∃ t : Trigger, t.text = p.trigger
    · by_cases hdefinition : (∃ css, p.definition = .string css)
          ∨ ∃ settings, p.definition = .object settings
      · cases hname : Text.isBlankText p.name with
        | false => exact .inl ⟨hkind, htrigger, hdefinition, hname⟩
        | true => exact .inr ⟨_, .name hkind htrigger hdefinition hname⟩
      · rw [not_or, not_exists, not_exists] at hdefinition
        exact .inr ⟨_, .definition hkind htrigger hdefinition.1 hdefinition.2⟩
    · exact .inr ⟨_, .trigger hkind (not_exists.mp htrigger)⟩
  · exact .inr ⟨_, .kind (not_exists.mp hkind)⟩

/-- A modification entry without a fault is sound. -/
lemma Modification.sound_or_fault (index : ℕ) (p : Payload.Modification) :
    p.Sound ∨ ∃ e, p.Fault index e := by
  by_cases haction : ∃ a : ModificationAction, a.text = p.action
  · cases htarget : Text.isBlankText p.target with
    | false => exact .inl ⟨haction, htarget⟩
    | true => exact .inr ⟨_, .target haction htarget⟩
  · exact .inr ⟨_, .action (not_exists.mp haction)⟩

end Payload

namespace Bundle

open Payload (exists_encode_iff)

/-- Accepting an animation gives what the entry means, or its first fault. -/
lemma settles_acceptAnimation (index : ℕ) (p : Payload.Animation) :
    Settles (acceptAnimation index p) p.Means (p.Fault index) where
  ok a h := by
    obtain ⟨hname, hblank⟩ := h.name
    rw [acceptAnimation, (AnimationKind.settles_ofText p.kind).ok _ h.kind,
      (Trigger.settles_ofText p.trigger).ok _ h.trigger, ← h.definition,
      AnimationDefinition.ofJson?_encode, hblank, ← hname]
    rfl
  error e h := by
    have hkindOf (hkind : ∃ k : AnimationKind, p.kind ∈ k.words) :
        ∃ k, AnimationKind.ofText p.kind = .ok k :=
      (AnimationKind.settles_ofText p.kind).exists_ok_iff.mpr hkind
    have htriggerOf (htrigger : ∃ t : Trigger, t.text = p.trigger) :
        ∃ t, Trigger.ofText p.trigger = .ok t :=
      (Trigger.settles_ofText p.trigger).exists_ok_iff.mpr htrigger
    -- One case for each check, in their order: the earlier checks have passed.
    cases h with
    | kind h => rw [acceptAnimation, (AnimationKind.settles_ofText p.kind).error _ ⟨h, rfl⟩]
    | trigger hkind h =>
      obtain ⟨k, hk⟩ := hkindOf hkind
      rw [acceptAnimation, hk, (Trigger.settles_ofText p.trigger).error _ ⟨h, rfl⟩]
    | definition hkind htrigger hstring hobject =>
      obtain ⟨k, hk⟩ := hkindOf hkind
      obtain ⟨t, ht⟩ := htriggerOf htrigger
      -- Only a string and an object of strings are a definition.
      have hnone : AnimationDefinition.ofJson? p.definition = none := by
        cases hof : AnimationDefinition.ofJson? p.definition with
        | none => rfl
        | some d =>
          obtain ⟨css, hcss⟩ | ⟨settings, hsettings⟩ :=
            exists_encode_iff.mp ⟨d, AnimationDefinition.encode_of_ofJson? hof⟩
          · exact absurd hcss (hstring css)
          · exact absurd hsettings (hobject settings)
      rw [acceptAnimation, hk, ht, hnone]
      rfl
    | name hkind htrigger hdefinition h =>
      obtain ⟨k, hk⟩ := hkindOf hkind
      obtain ⟨t, ht⟩ := htriggerOf htrigger
      obtain ⟨d, hd⟩ := exists_encode_iff.mpr hdefinition
      rw [acceptAnimation, hk, ht, ← hd, AnimationDefinition.ofJson?_encode, h]
      rfl
  total := by
    rw [← Payload.Animation.sound_iff]
    exact p.sound_or_fault index

/-- Accepting a modification gives what the entry means, or its first fault. -/
lemma settles_acceptModification (index : ℕ) (p : Payload.Modification) :
    Settles (acceptModification index p) p.Means (p.Fault index) where
  ok m h := by
    obtain ⟨htarget, hblank⟩ := h.target
    rw [acceptModification, (ModificationAction.settles_ofText p.action).ok _ h.action, hblank,
      ← htarget, ← h.value]
    rfl
  error e h := by
    cases h with
    | action h => rw [acceptModification,
        (ModificationAction.settles_ofText p.action).error _ ⟨h, rfl⟩]
    | target haction h =>
      obtain ⟨a, ha⟩ := (ModificationAction.settles_ofText p.action).exists_ok_iff.mpr haction
      rw [acceptModification, ha, h]
      rfl
  total := by
    rw [← Payload.Modification.sound_iff]
    exact p.sound_or_fault index

/-! ### Lists -/

section Lists

variable {α β : Type} {accept : ℕ → α → Except Rejection β} {Sound : α → Prop}
  {Means : α → β → Prop}
  {Fault : ℕ → α → Rejection → Prop}

/-- A list of entries is settled as each of them is: all are taken in their order, or the first one
at fault is blamed. -/
lemma settles_acceptAll (hentry : ∀ i a, Settles (accept i a) (Means a) (Fault i a))
    (hsound : ∀ a, Sound a ↔ ∃ b, Means a b) (index : ℕ) (as : List α) :
    Settles (acceptAll accept index as) (List.Forall₂ Means as)
      (FirstFault Sound (fun i => Fault (index + i)) as) where
  ok bs h := by
    -- By induction on the entries: the index is that of the first one left.
    induction h generalizing index with
    | nil => rfl
    | cons hab _ ih =>
      rw [acceptAll, (hentry index _).ok _ hab, ih]
      rfl
  error e h := by
    obtain ⟨before, a, behind, rfl, hbefore, hfault⟩ := h
    -- By induction on the sound entries in front of the faulty one.
    induction before generalizing index with
    | nil => rw [List.nil_append, acceptAll, (hentry index a).error e hfault]
    | cons b before ih =>
      obtain ⟨hb, hbefore⟩ := List.forall_mem_cons.mp hbefore
      obtain ⟨b', hb'⟩ := (hentry index b).exists_ok_iff.mpr ((hsound b).mp hb)
      have hplace : index + (b :: before).length = index + 1 + before.length := by
        rw [List.length_cons]
        omega
      rw [hplace] at hfault
      rw [List.cons_append, acceptAll, hb', ih (index + 1) hbefore hfault]
      rfl
  total := by
    induction as generalizing index with
    | nil => exact .inl ⟨[], .nil⟩
    | cons a as ih =>
      obtain ⟨b, hb⟩ | ⟨e, he⟩ := (hentry index a).total
      -- The first entry passes, so the fault is the first one of the rest.
      · obtain ⟨bs, hbs⟩ | ⟨e, before, a', behind, rfl, hbefore, hfault⟩ := ih (index + 1)
        · exact .inl ⟨b :: bs, .cons hb hbs⟩
        · have hplace : index + 1 + before.length = index + (a :: before).length := by
            rw [List.length_cons]
            omega
          refine .inr ⟨e, a :: before, a', behind, rfl, ?_, ?_⟩
          · exact List.forall_mem_cons.mpr ⟨(hsound a).mpr ⟨b, hb⟩, hbefore⟩
          · rwa [hplace] at hfault
      · exact .inr ⟨e, [], a, as, rfl, List.forall_mem_nil _, he⟩

/-- A list of sound entries means a list of values. -/
lemma forall_sound_iff (hsound : ∀ a, Sound a ↔ ∃ b, Means a b) {as : List α} :
    (∀ a ∈ as, Sound a) ↔ ∃ bs, List.Forall₂ Means as bs := by
  induction as with
  | nil => exact ⟨fun _ => ⟨[], .nil⟩, fun _ => List.forall_mem_nil _⟩
  | cons a as ih =>
    rw [List.forall_mem_cons, hsound, ih]
    constructor
    · rintro ⟨⟨b, hb⟩, bs, hbs⟩
      exact ⟨b :: bs, .cons hb hbs⟩
    · rintro ⟨_, hab⟩
      obtain ⟨b, bs, hb, hbs, rfl⟩ := List.forall₂_cons_left_iff.mp hab
      exact ⟨⟨b, hb⟩, bs, hbs⟩

end Lists

end Bundle

/-! ### Payloads -/

namespace Payload

/-- The payload that arrives is taken for a bundle: each entry is taken for one of the bundle, in
their order, and all else is kept. -/
structure Means (p : Payload) (b : Bundle) : Prop where
  cssVars : b.cssVars = p.cssVars
  animations : List.Forall₂ Animation.Means p.animations b.animations
  variants : b.variants = p.variants
  modifications : List.Forall₂ Modification.Means p.modifications b.modifications

/-- What a payload is blamed for: its first animation at fault, or if there is none, its first
modification at fault. -/
inductive Fault (p : Payload) (e : Rejection) : Prop
  | animation (h : FirstFault Animation.Sound Animation.Fault p.animations e)
  | modification (hanimations : ∀ a ∈ p.animations, a.Sound)
    (h : FirstFault Modification.Sound Modification.Fault p.modifications e)

end Payload

namespace Bundle

lemma settles_animations (p : Payload) :
    Settles (acceptAll acceptAnimation 0 p.animations)
      (List.Forall₂ Payload.Animation.Means p.animations)
      (FirstFault Payload.Animation.Sound Payload.Animation.Fault p.animations) := by
  have h := settles_acceptAll settles_acceptAnimation (fun a => a.sound_iff) 0 p.animations
  simpa only [Nat.zero_add] using h

lemma settles_modifications (p : Payload) :
    Settles (acceptAll acceptModification 0 p.modifications)
      (List.Forall₂ Payload.Modification.Means p.modifications)
      (FirstFault Payload.Modification.Sound Payload.Modification.Fault p.modifications) := by
  have h := settles_acceptAll settles_acceptModification (fun m => m.sound_iff) 0 p.modifications
  simpa only [Nat.zero_add] using h

/-- A payload is settled by its animations, and if nothing is wrong in them, by its
modifications. -/
lemma settles_ofPayload (p : Payload) : Settles (ofPayload p) p.Means p.Fault where
  ok b h := by
    rw [ofPayload, (settles_animations p).ok _ h.animations]
    dsimp only
    rw [(settles_modifications p).ok _ h.modifications, ← h.cssVars, ← h.variants]
  error e h := by
    rw [ofPayload]
    cases h with
    | animation h => rw [(settles_animations p).error e h]
    | modification hanimations h =>
      obtain ⟨as, has⟩ := (forall_sound_iff fun a => a.sound_iff).mp hanimations
      rw [(settles_animations p).ok as has]
      dsimp only
      rw [(settles_modifications p).error e h]
  total := by
    obtain ⟨as, has⟩ | ⟨e, he⟩ := (settles_animations p).total
    · obtain ⟨ms, hms⟩ | ⟨e, he⟩ := (settles_modifications p).total
      · exact .inl ⟨⟨p.cssVars, as, p.variants, ms⟩, rfl, has, rfl, hms⟩
      · exact .inr ⟨e, .modification ((forall_sound_iff fun a => a.sound_iff).mpr ⟨as, has⟩) he⟩
    · exact .inr ⟨e, .animation he⟩

/-- A payload means something just when all its entries are sound. -/
lemma exists_means_iff {p : Payload} :
    (∃ b, p.Means b) ↔ (∀ a ∈ p.animations, a.Sound) ∧ ∀ m ∈ p.modifications, m.Sound := by
  rw [forall_sound_iff fun a => a.sound_iff, forall_sound_iff fun m => m.sound_iff]
  constructor
  · rintro ⟨b, h⟩
    exact ⟨⟨_, h.animations⟩, _, h.modifications⟩
  · rintro ⟨⟨as, has⟩, ms, hms⟩
    exact ⟨⟨p.cssVars, as, p.variants, ms⟩, rfl, has, rfl, hms⟩

/-- A text that has the shape of a payload is read as a bundle exactly if nothing is wrong in any of
its animations and modifications. Then all of them are taken, in their order; otherwise the first
one at fault is blamed, and animations before modifications. -/
theorem ofJson_settled {json : String} {p : Payload}
    (h : Decoder.text Payload.decode json = .ok p) :
    ((∃ b, ofJson json = .ok b)
        ↔ (∀ a ∈ p.animations, a.Sound) ∧ ∀ m ∈ p.modifications, m.Sound)
      ∧ (∀ b, ofJson json = .ok b ↔ p.Means b) ∧ ∀ e, ofJson json = .error e ↔ p.Fault e := by
  have hsettled := settles_ofPayload p
  rw [ofJson_eq h]
  exact ⟨hsettled.exists_ok_iff.trans exists_means_iff, fun _ => hsettled.eq_ok_iff,
    fun _ => hsettled.eq_error_iff⟩

/-- A payload with an animation in words that were used before, one whose definition and name are
both wrong, one of an unknown kind, and a modification of an unknown action. -/
def faulty : Json := .object [
  ("animations", .array [
    .object [("name", .string "pop"), ("type", .string "css-keyframes"),
      ("definition", .string "@keyframes pop"), ("appliesTo", .string "hover")],
    .object [("name", .string " "), ("kind", .string "keyframe"), ("definition", .array []),
      ("trigger", .string "tap")],
    .object [("name", .string "fade"), ("kind", .string "fade"), ("definition", .null),
      ("trigger", .string "never")]]),
  ("codeModifications", .array [
    .object [("target", .string ""), ("action", .string ""), ("value", .string "x")]])]

/-- What arrives with it. -/
def faultyPayload : Payload :=
  ⟨.empty, [⟨"pop", "css-keyframes", .string "@keyframes pop", "hover"⟩,
    ⟨" ", "keyframe", .array [], "tap"⟩, ⟨"fade", "fade", .null, "never"⟩], [], [⟨"", "", "x"⟩]⟩

/-- The definition of the second animation is blamed. -/
theorem ofJson_settled_faulty :
    Decoder.text Payload.decode faulty.compact = .ok faultyPayload
      ∧ ofJson faulty.compact = .error (.invalidField "animations[1].definition"
        "must be keyframe text or a configuration object") := by
  have htext : Decoder.text Payload.decode faulty.compact = .ok faultyPayload :=
    Json.text_compact rfl rfl
  refine ⟨htext, ((ofJson_settled htext).2.2 _).mpr (.animation ?_)⟩
  refine ⟨[⟨"pop", "css-keyframes", .string "@keyframes pop", "hover"⟩], _, _, rfl, ?_, ?_⟩
  · refine List.forall_mem_singleton.mpr ⟨⟨.keyframe, ?_⟩, ⟨.hover, rfl⟩, .inl ⟨_, rfl⟩, rfl⟩
    decide
  · exact .definition ⟨.keyframe, by decide⟩ ⟨.tap, rfl⟩ nofun nofun

end Bundle

end Restyle
