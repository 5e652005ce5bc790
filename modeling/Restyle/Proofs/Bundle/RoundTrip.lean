import Restyle.Proofs.Bundle.Accepted

/-!
Writing a bundle and reading it again.

* `Bundle.payload`: a bundle as it arrives when it is read again;
* `Accepted.ofPayload_payload`: the payload of an accepted bundle is accepted as that bundle;
* `Payload.decode_encode`: a bundle that is written is decoded to its payload;
* `Json.IsBundle`: a bundle in today's words;
* `ofJson_encode`: whatever text a bundle was read from, it is written in today's words and read
  again as it is.
-/

namespace Restyle

/-! ### The payload of a bundle -/

/-- The animation as it arrives when it is read again. -/
def Animation.payload (a : Animation) : Payload.Animation :=
  ⟨a.name, a.kind.text, a.definition.encode, a.trigger.text⟩

/-- The modification as it arrives when it is read again. -/
def Modification.payload (m : Modification) : Payload.Modification :=
  ⟨m.target, m.action.text, m.value⟩

/-- The bundle as it arrives when it is read again. -/
def Bundle.payload (b : Bundle) : Payload :=
  ⟨b.cssVars, b.animations.map Animation.payload, b.variants,
    b.modifications.map Modification.payload⟩

lemma AnimationKind.ofText_text (k : AnimationKind) : AnimationKind.ofText k.text = .ok k := by
  cases k
  all_goals rfl

lemma Trigger.ofText_text (t : Trigger) : Trigger.ofText t.text = .ok t := by
  cases t
  all_goals rfl

lemma ModificationAction.ofText_text (a : ModificationAction) :
    ModificationAction.ofText a.text = .ok a := by
  cases a
  all_goals rfl

lemma AnimationDefinition.ofJson?_encode (d : AnimationDefinition) : ofJson? d.encode = some d := by
  cases d
  all_goals rfl

namespace Bundle

/-- Entries that are each accepted as themselves are accepted together. -/
lemma acceptAll_map {α β : Type} {accept : ℕ → α → Except Rejection β} {f : β → α} {bs : List β}
    (h : ∀ b ∈ bs, ∀ i, accept i (f b) = .ok b) (index : ℕ) :
    acceptAll accept index (bs.map f) = .ok bs := by
  induction bs generalizing index with
  | nil => rfl
  | cons b bs ih =>
    obtain ⟨hb, hbs⟩ := List.forall_mem_cons.mp h
    rw [List.map_cons, acceptAll, hb]
    simp only [ih hbs]
    rfl

lemma acceptAnimation_payload {a : Animation} (h : Text.isBlankText a.name = false) (index : ℕ) :
    acceptAnimation index a.payload = .ok a := by
  simp only [acceptAnimation, Animation.payload, AnimationKind.ofText_text, Trigger.ofText_text,
    AnimationDefinition.ofJson?_encode, h, Bool.false_eq_true, if_false]

lemma acceptModification_payload {m : Modification} (h : Text.isBlankText m.target = false)
    (index : ℕ) : acceptModification index m.payload = .ok m := by
  simp only [acceptModification, Modification.payload, ModificationAction.ofText_text, h,
    Bool.false_eq_true, if_false]

/-- The payload of an accepted bundle is accepted as that bundle. -/
lemma Accepted.ofPayload_payload {b : Bundle} (h : b.Accepted) : ofPayload b.payload = .ok b := by
  have hanimations := acceptAll_map (fun a ha => acceptAnimation_payload (h.named a ha)) 0
  have hmodifications := acceptAll_map (fun m hm => acceptModification_payload (h.targeted m hm)) 0
  simp only [ofPayload, payload, hanimations, hmodifications]

end Bundle

/-! ### Decoding what is written -/

lemma Variant.decode_encode {levels : ℕ} (hlevels : 2 ≤ levels) (v : Variant) :
    Variant.decode levels (.ofJson v.encode) = .ok v := by
  obtain ⟨levels, rfl⟩ : ∃ k, levels = k + 2 := ⟨levels - 2, by omega⟩
  rfl

namespace Payload

variable {levels : ℕ}

/-- An animation is decoded from the object it is written as, as its entry. -/
lemma Animation.decode_encode (hlevels : 2 ≤ levels) {a : Restyle.Animation}
    (h : a.definition.encode.Fits (levels - 1)) :
    Animation.decode levels (.ofJson a.encode) = .ok a.payload := by
  have hmembers : Animation.record.members (levels - 1) (Reading.ofMembers
        [("name", .string a.name), ("kind", a.kind.encode), ("definition", a.definition.encode),
          ("trigger", a.trigger.encode)]) {}
      = .ok ⟨some a.name, some a.kind.text, some a.definition.encode, some a.trigger.text⟩ := by
    rw [Reading.ofMembers, Decoder.Record.members_cons rfl rfl rfl,
      Reading.ofMembers, Decoder.Record.members_cons rfl rfl rfl,
      Reading.ofMembers,
      Decoder.Record.members_cons rfl rfl (Decoder.Field.decode_required h.again _),
      Reading.ofMembers, Decoder.Record.members_cons rfl rfl rfl]
    rfl
  have hrecord := Decoder.Record.decode_object hlevels hmembers rfl
  rw [Animation.decode, Restyle.Animation.encode, Reading.ofJson, hrecord]
  rfl

lemma Modification.decode_encode (hlevels : 2 ≤ levels) (m : Restyle.Modification) :
    Modification.decode levels (.ofJson m.encode) = .ok m.payload := by
  obtain ⟨levels, rfl⟩ : ∃ k, levels = k + 2 := ⟨levels - 2, by omega⟩
  rfl

/-- What a part of a bundle is decoded to: nothing if it was left out. -/
def stored {α : Type} (as : List α) : Option (Option (List α)) :=
  if as.isEmpty then none else some (some as)

lemma getD_stored {α : Type} (as : List α) : (stored as).join.getD [] = as := by
  cases as
  all_goals rfl

/-- The member of the variables, left out when there are none, puts them in the draft. -/
lemma members_vars (hlevels : 2 ≤ levels) (d : Text.Dictionary) :
    record.members levels (Reading.ofMembers (Bundle.vars d)) {}
      = .ok ⟨stored d.entries, none, none, none⟩ := by
  obtain ⟨entries⟩ := d
  cases entries with
  | nil => rfl
  | cons e entries =>
    have hpairs := Decoder.pairs_ofJson (e :: entries) hlevels
    exact Decoder.Record.members_cons rfl rfl
      (Decoder.Field.decode_defaulted (Decoder.nullable_of_ok hpairs nofun) _)

/-- A list under its name sets the field of that name; `put` is the draft with what is set there. -/
lemma members_part {α β : Type} {name : String} {encode : α → Json} {read : α → β} {d : Decoder β}
    {f : Decoder.Field Draft} (put : Option (Option (List β)) → Draft) (hlevels : 2 ≤ levels)
    (hfind : record.fields.find? (fun f => f.names.contains name) = some f)
    (hset : f.isSet (put none) = false)
    (hdecode : ∀ {r as}, Decoder.nullable (Decoder.list d) levels r = .ok as →
      f.decode levels r (put none) = .ok (put (some as)))
    {as : List α} (h : ∀ a ∈ as, d (levels - 1) (.ofJson (encode a)) = .ok (read a)) :
    record.members levels (Reading.ofMembers (Bundle.part name encode as)) (put none)
      = .ok (put (stored (as.map read))) := by
  cases as with
  | nil => rfl
  | cons a as =>
    have hlist := Decoder.list_ofJson hlevels h
    exact Decoder.Record.members_cons hfind hset (hdecode (Decoder.nullable_of_ok hlist nofun))

lemma settle_record (vars : Option (Option (List (String × String))))
    (animations : Option (Option (List Payload.Animation)))
    (variants : Option (Option (List Variant)))
    (modifications : Option (Option (List Payload.Modification))) :
    Decoder.Record.settle record.fields ⟨vars, animations, variants, modifications⟩
      = .ok ⟨some vars.join, some animations.join, some variants.join,
          some modifications.join⟩ := by
  cases vars
  all_goals
    cases animations
    all_goals
      cases variants
      all_goals
        cases modifications
        all_goals rfl

/-- A bundle that is written is decoded to its payload. -/
lemma decode_encode (hlevels : 4 ≤ levels) {b : Bundle} (hsorted : Text.Sorted b.cssVars.entries)
    (hfits : ∀ a ∈ b.animations, a.definition.encode.Fits (levels - 3)) :
    decode levels (.ofJson b.encode) = .ok b.payload := by
  -- The four members are read one after the other; each stores its list in the draft of the ones
  -- before, whose lists are generalized so that the terms stay small.
  have hvars := members_vars (show 2 ≤ levels - 1 by omega) b.cssVars
  generalize hcss : stored b.cssVars.entries = css at hvars
  have hanimations : record.members (levels - 1)
        (Reading.ofMembers (Bundle.part "animations" Restyle.Animation.encode b.animations))
        ⟨css, none, none, none⟩
      = .ok ⟨css, stored b.payload.animations, none, none⟩ :=
    members_part (fun as => ⟨css, as, none, none⟩) (by omega) rfl rfl
      (fun h => Decoder.Field.decode_defaulted h _)
      fun a ha => Animation.decode_encode (show 2 ≤ levels - 2 by omega) (hfits a ha)
  generalize hmotions : stored b.payload.animations = animations at hanimations
  have hvariants : record.members (levels - 1)
        (Reading.ofMembers (Bundle.part "variants" Variant.encode b.variants))
        ⟨css, animations, none, none⟩
      = .ok ⟨css, animations, stored (b.variants.map id), none⟩ :=
    members_part (fun vs => ⟨css, animations, vs, none⟩) (by omega) rfl rfl
      (fun h => Decoder.Field.decode_defaulted h _)
      fun v _ => Variant.decode_encode (show 2 ≤ levels - 2 by omega) v
  rw [List.map_id] at hvariants
  generalize hlooks : stored b.variants = variants at hvariants
  have hmodifications : record.members (levels - 1)
        (Reading.ofMembers
          (Bundle.part "codeModifications" Restyle.Modification.encode b.modifications))
        ⟨css, animations, variants, none⟩
      = .ok ⟨css, animations, variants, stored b.payload.modifications⟩ :=
    members_part (fun ms => ⟨css, animations, variants, ms⟩) (by omega) rfl rfl
      (fun h => Decoder.Field.decode_defaulted h _)
      fun m _ => Modification.decode_encode (show 2 ≤ levels - 2 by omega) m
  -- Together they make the whole draft.
  have hmembers : record.members (levels - 1) (Reading.ofMembers
        (Bundle.vars b.cssVars ++ (Bundle.part "animations" Restyle.Animation.encode b.animations
          ++ (Bundle.part "variants" Variant.encode b.variants
            ++ Bundle.part "codeModifications" Restyle.Modification.encode b.modifications)))) {}
      = .ok ⟨css, animations, variants, stored b.payload.modifications⟩ := by
    rw [Reading.ofMembers_append, Decoder.Record.members_append hvars,
      Reading.ofMembers_append, Decoder.Record.members_append hanimations,
      Reading.ofMembers_append, Decoder.Record.members_append hvariants, hmodifications]
  have hrecord := Decoder.Record.decode_object (show 2 ≤ levels by omega) hmembers
    (settle_record ..)
  -- The entries are in order already, so listing them again makes the same dictionary.
  have hlisted : Text.Dictionary.ofList (css.join.getD []) = b.cssVars := by
    rw [← hcss, getD_stored, Text.Dictionary.ofList_entries hsorted]
  rw [decode, Bundle.encode, List.append_assoc, List.append_assoc, Reading.ofJson, hrecord]
  subst hmotions hlooks
  simp only [Except.map, ofDraft, Option.join_some, hlisted, getD_stored]
  rfl

end Payload

/-! ### The numbers of a bundle -/

namespace Bundle

lemma flatMap_numbers_part {α : Type} (name : String) (encode : α → Json) (as : List α) :
    (part name encode as).flatMap (fun m => m.2.numbers)
      = as.flatMap fun a => (encode a).numbers := by
  cases as with
  | nil => rfl
  | cons a as =>
    rw [part, if_neg (by exact Bool.false_ne_true), List.flatMap_singleton, Json.numbers,
      Json.itemNumbers_eq_flatMap, List.flatMap_map]

/-- Variables are texts, so they print no number. -/
lemma flatMap_numbers_vars (d : Text.Dictionary) :
    (vars d).flatMap (fun m => m.2.numbers) = [] := by
  refine List.flatMap_eq_nil_iff.mpr fun m hm => ?_
  unfold vars at hm
  split at hm
  · cases hm
  · obtain rfl := List.mem_singleton.mp hm
    rw [Json.numbers, Json.memberNumbers_eq_flatMap, List.flatMap_map]
    exact List.flatMap_eq_nil_iff.mpr fun _ _ => rfl

lemma numbers_animation (a : Animation) : a.encode.numbers = a.definition.encode.numbers := by
  simp only [Animation.encode, Json.numbers, Json.memberNumbers, AnimationKind.encode,
    Trigger.encode, List.nil_append, List.append_nil]

/-- The numbers of a bundle are those of its definitions. -/
lemma numbers_encode (b : Bundle) :
    b.encode.numbers = b.animations.flatMap fun a => a.definition.encode.numbers := by
  have hvariants : b.variants.flatMap (fun v => v.encode.numbers) = [] :=
    List.flatMap_eq_nil_iff.mpr fun _ _ => rfl
  have hmodifications : b.modifications.flatMap (fun m => m.encode.numbers) = [] :=
    List.flatMap_eq_nil_iff.mpr fun _ _ => rfl
  rw [encode, Json.numbers, Json.memberNumbers_eq_flatMap, List.flatMap_append, List.flatMap_append,
    List.flatMap_append, flatMap_numbers_vars, flatMap_numbers_part, flatMap_numbers_part,
    flatMap_numbers_part, List.nil_append, hvariants, hmodifications, List.append_nil,
    List.append_nil]
  simp only [numbers_animation]

end Bundle

/-! ### Today's words -/

namespace Json

/-- An animation under today's names, with today's words for its kind and trigger. -/
def IsAnimation (v : Json) : Prop :=
  ∃ name kind definition trigger,
    v = .object [("name", .string name), ("kind", .string kind), ("definition", definition),
        ("trigger", .string trigger)]
      ∧ kind ∈ ["keyframe", "motion-config"]
      ∧ trigger ∈ ["enter", "exit", "hover", "tap", "custom"]

/-- A variant under today's names. -/
def IsVariant (v : Json) : Prop :=
  ∃ name classes, v = .object [("name", .string name), ("classes", .string classes)]

/-- A modification under today's names, with today's word for its action. -/
def IsModification (v : Json) : Prop :=
  ∃ target action value,
    v = .object [("target", .string target), ("action", .string action), ("value", .string value)]
      ∧ action ∈ ["add-class", "add-prop", "wrap-element"]

/-- Whatever stands under a key is a list of such items. -/
def Lists (key : String) (P : Json → Prop) (members : List (String × Json)) : Prop :=
  ∀ v, (key, v) ∈ members → ∃ items, v = .array items ∧ ∀ item ∈ items, P item

lemma Lists.append {key : String} {P : Json → Prop} {ms more : List (String × Json)}
    (hms : Lists key P ms) (hmore : Lists key P more) : Lists key P (ms ++ more) :=
  fun v hv => (List.mem_append.mp hv).elim (hms v) (hmore v)

/-- A bundle in today's words: its parts stand under their names, each at most once and in order. -/
def IsBundle (v : Json) : Prop :=
  ∃ members, v = .object members
    ∧ (members.map Prod.fst).Sublist ["cssVars", "animations", "variants", "codeModifications"]
    ∧ Lists "animations" IsAnimation members
    ∧ Lists "variants" IsVariant members
    ∧ Lists "codeModifications" IsModification members

end Json

namespace Bundle

/-- An animation is written in the canonical vocabulary. -/
lemma isAnimation_encode (a : Animation) : a.encode.IsAnimation := by
  refine ⟨a.name, a.kind.text, a.definition.encode, a.trigger.text, rfl, ?_, ?_⟩
  · cases a.kind
    all_goals decide
  · cases a.trigger
    all_goals decide

lemma isModification_encode (m : Modification) : m.encode.IsModification := by
  refine ⟨m.target, m.action.text, m.value, rfl, ?_⟩
  cases m.action
  all_goals decide

lemma map_fst_vars (d : Text.Dictionary) : ((vars d).map Prod.fst).Sublist ["cssVars"] := by
  unfold vars
  split
  · exact List.nil_sublist _
  · exact List.Sublist.refl _

section Part

variable {α : Type} {name key : String} {encode : α → Json} {as : List α} {P : Json → Prop}

lemma map_fst_part (name : String) (encode : α → Json) (as : List α) :
    ((part name encode as).map Prod.fst).Sublist [name] := by
  unfold part
  split
  · exact List.nil_sublist _
  · exact List.Sublist.refl _

lemma lists_part (h : name = key → ∀ a, P (encode a)) : Json.Lists key P (part name encode as) := by
  intro v hv
  unfold part at hv
  split at hv
  · cases hv
  · obtain ⟨hname, rfl⟩ := Prod.mk.inj (List.mem_singleton.mp hv)
    exact ⟨_, rfl, List.forall_mem_map.mpr fun a _ => h hname.symm a⟩

lemma lists_vars (hkey : key ≠ "cssVars") (d : Text.Dictionary) : Json.Lists key P (vars d) := by
  intro v hv
  unfold vars at hv
  split at hv
  · cases hv
  · exact absurd (Prod.mk.inj (List.mem_singleton.mp hv)).1 hkey

end Part

/-- A bundle is written in the canonical vocabulary, each member at most once. -/
lemma isBundle_encode (b : Bundle) : b.encode.IsBundle := by
  refine ⟨_, rfl, ?_, ?_, ?_, ?_⟩
  · rw [List.map_append, List.map_append, List.map_append]
    exact (((map_fst_vars _).append (map_fst_part _ _ _)).append (map_fst_part _ _ _)).append
      (map_fst_part _ _ _)
  · exact (((lists_vars (by decide) _).append (lists_part fun _ => isAnimation_encode)).append
      (lists_part fun h => absurd h (by decide))).append (lists_part fun h => absurd h (by decide))
  · exact (((lists_vars (by decide) _).append (lists_part fun h => absurd h (by decide))).append
      (lists_part fun _ v => ⟨v.name, v.classes, rfl⟩)).append
      (lists_part fun h => absurd h (by decide))
  · exact (((lists_vars (by decide) _).append (lists_part fun h => absurd h (by decide))).append
      (lists_part fun h => absurd h (by decide))).append (lists_part fun _ => isModification_encode)

/-- An accepted bundle is read again as it is printed if its floating-point numbers are; its whole
numbers always are. -/
lemma Accepted.kept_encode {b : Bundle} (h : b.Accepted)
    (hreals : ∀ x, .real x ∈ b.encode.numbers → (Json.number (.real x)).Kept) : b.encode.Kept := by
  refine Json.kept_of_numbers b.encode fun n hn => ?_
  cases n with
  | real x => exact hreals x hn
  | whole n =>
    rw [numbers_encode] at hn
    obtain ⟨a, ha, hn⟩ := List.mem_flatMap.mp hn
    exact Json.kept_whole ((h.fits a ha).inRange _ hn)

/-- Reading a bundle brings it into today's words, and what is written in them is read as the same
bundle again. Of floating-point numbers it is assumed that they are read again as they are
printed. -/
theorem ofJson_encode {json : String} {b : Bundle} (h : ofJson json = .ok b)
    (hreals : ∀ x, .real x ∈ b.encode.numbers → (Json.number (.real x)).Kept) :
    ofJson b.encode.compact = .ok b ∧ b.encode.IsBundle := by
  have haccepted := accepted_ofJson h
  refine ⟨?_, isBundle_encode b⟩
  have hkept := haccepted.kept_encode hreals
  have hdecode : Payload.decode Decoder.maxDepth (.ofJson b.encode) = .ok b.payload :=
    Payload.decode_encode (by decide) haccepted.sorted haccepted.fits
  have htext : Decoder.text Payload.decode b.encode.compact = .ok b.payload := by
    rw [Decoder.text, hkept]
    simp only [hdecode]
    rfl
  rw [ofJson, htext]
  exact haccepted.ofPayload_payload

/-- A bundle in the words that were used before, with a part that is `null`. -/
def formerWords : String :=
  "\x7b\"animations\": [\x7b\"name\": \"pop\", \"type\": \"framer-motion\", " ++
    "\"definition\": \x7b\"scale\": 1.5\x7d, \"appliesTo\": \"hover\"\x7d], \"variants\": null\x7d"

/-- The same bundle in today's words. -/
def todaysWords : String :=
  "\x7b\"animations\":[\x7b\"name\":\"pop\",\"kind\":\"motion-config\"," ++
    "\"definition\":\x7b\"scale\":1.5\x7d,\"trigger\":\"hover\"\x7d]\x7d"

/-- One and a half. -/
def oneAndHalf : Binary64 := .finite false 6755399441055744 (-52)

/-- The bundle has a floating-point number in it, which is read again as it is printed. -/
theorem ofJson_encode_formerWords :
    (Json.number (.real oneAndHalf)).Kept
      ∧ ∃ b, ofJson formerWords = .ok b ∧ b.encode.numbers = [.real oneAndHalf]
        ∧ b.encode.compact = todaysWords ∧ ofJson todaysWords = .ok b ∧ b.encode.IsBundle := by
  have hkept : (Json.number (.real oneAndHalf)).Kept := by
    unfold Json.Kept
    rfl
  refine ⟨hkept, ?_⟩
  have hread : (ofJson formerWords).map (fun b => (b.encode.compact, b.encode.numbers))
      = .ok (todaysWords, [.real oneAndHalf]) := by decide +kernel
  -- The bundle is whatever the text reads as; only its printed form is computed.
  cases h : ofJson formerWords with
  | error e =>
    rw [h] at hread
    cases hread
  | ok b =>
    rw [h] at hread
    obtain ⟨htext, hnumbers⟩ := Prod.mk.inj (Except.ok.inj hread)
    have hagain := ofJson_encode h fun x hx => by
      rw [hnumbers] at hx
      cases List.mem_singleton.mp hx
      exact hkept
    rw [htext] at hagain
    exact ⟨b, rfl, hnumbers, htext, hagain⟩

end Bundle

end Restyle
