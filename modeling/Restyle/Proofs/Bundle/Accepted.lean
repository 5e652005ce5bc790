import Restyle.Bundle.Payload
import Restyle.Proofs.Json.Records
import Restyle.Proofs.Text.Dictionary

/-!
What holds of a bundle that was accepted.

* `Payload.fits_definitions`: the definitions in a payload are values that fit into a text at the
  depth of a definition;
* `exists_of_mem_acceptAll`: each accepted entry was accepted at some index;
* `accepted_ofJson`: a bundle that was read is `Accepted`, that is, its variables are in order, its
  definitions fit into a text, and its names and targets say something.
-/

namespace Restyle

/-- A definition is written back as the value it was read from. -/
lemma AnimationDefinition.encode_of_ofJson? {v : Json} {d : AnimationDefinition}
    (h : ofJson? v = some d) : d.encode = v := by
  cases v
  case string css =>
    cases h
    rfl
  case object settings =>
    cases h
    rfl
  all_goals cases h

namespace Payload

variable {levels : ℕ} {r : Reading}

lemma Animation.fits_definition {p : Payload.Animation} (hr : r.InRange)
    (h : Animation.decode levels r = .ok p) : p.definition.Fits (levels - 1) := by
  have hplain : ∀ f ∈ Restyle.Animation.fields Decoder.string Decoder.json Decoder.string,
      f.Preserves (levels - 1) fun s => ∀ v ∈ s.definition, v.Fits (levels - 1) := by
    -- Of the four fields only `definition` stores a value; the others leave the draft's as it is.
    refine List.forall_mem_cons.mpr ⟨?_, List.forall_mem_cons.mpr ⟨?_, List.forall_mem_cons.mpr
      ⟨?_, List.forall_mem_singleton.mpr ?_⟩⟩⟩
    · exact .required fun _ _ hs => hs
    · exact .required fun _ _ hs => hs
    · refine .required fun hr hv _ => ?_
      rintro _ ⟨⟩
      exact Decoder.json_fits _ hr hv
    · exact .required fun _ _ hs => hs
  have hfields : ∀ f ∈ Animation.record.fields,
      f.Preserves (levels - 1) fun s => ∀ v ∈ s.definition, v.Fits (levels - 1) := by
    -- The record renames two of these fields, which changes no step of theirs.
    refine List.forall_mem_map.mpr fun f hf => ?_
    split
    · exact (hplain f hf).withName "type"
    · exact (hplain f hf).withName "appliesTo"
    · exact hplain f hf
  rw [Animation.decode] at h
  split at h
  · next name kind definition trigger hrecord =>
    cases h
    exact Decoder.Record.preserves_decode hfields hr (fun v hv => by cases hv) hrecord
      definition rfl
  · cases h
  · cases h

/-- A definition lies three levels below the payload: in the object of an animation, in the list of
them, in the object of the payload. -/
lemma fits_definitions {p : Payload} (hr : r.InRange) (h : decode levels r = .ok p) :
    ∀ a ∈ p.animations, a.definition.Fits (levels - 3) := by
  have hfields : ∀ f ∈ record.fields, f.Preserves (levels - 1) fun s =>
      ∀ a ∈ s.animations.join.getD [], a.definition.Fits (levels - 3) := by
    refine List.forall_mem_cons.mpr ⟨?_, List.forall_mem_cons.mpr ⟨?_, List.forall_mem_cons.mpr
      ⟨?_, List.forall_mem_singleton.mpr ?_⟩⟩⟩
    · exact .defaulted (fun _ _ hs => hs) fun hs => hs
    · refine .defaulted (fun hr hlist _ => ?_) fun _ => List.forall_mem_nil _
      intro a ha
      obtain rfl | ⟨as, rfl, has⟩ := Decoder.nullable_cases hlist
      · cases ha
      · obtain ⟨r', hr', ha⟩ := Decoder.mem_list has hr a ha
        exact Animation.fits_definition hr' ha
    · exact .defaulted (fun _ _ hs => hs) fun hs => hs
    · exact .defaulted (fun _ _ hs => hs) fun hs => hs
  obtain ⟨s, hrecord, rfl⟩ := Decoder.map_eq_ok_iff.mp h
  exact Decoder.Record.preserves_decode hfields hr (List.forall_mem_nil _) hrecord

lemma sorted_cssVars {p : Payload} (h : decode levels r = .ok p) :
    Text.Sorted p.cssVars.entries := by
  obtain ⟨s, -, rfl⟩ := Decoder.map_eq_ok_iff.mp h
  exact Text.Dictionary.sorted_ofList _

end Payload

/-- A text that decodes holds a value that decodes at the full depth. -/
lemma Decoder.decode_of_text {α : Type} {d : Decoder α} {json : String} {a : α}
    (h : d.text json = .ok a) : d maxDepth (Reading.ofText json).value = .ok a := by
  unfold Decoder.text at h
  dsimp only at h
  split at h
  · cases h
  · next b hb =>
    split at h
    · cases h
    · cases h
      exact hb

namespace Bundle

/-- An accepted animation keeps its definition and has a name. -/
lemma acceptAnimation_spec {index : ℕ} {p : Payload.Animation} {a : Animation}
    (h : acceptAnimation index p = .ok a) :
    a.definition.encode = p.definition ∧ Text.isBlankText a.name = false := by
  unfold acceptAnimation at h
  dsimp only at h
  split at h
  · cases h
  · split at h
    · cases h
    · split at h
      · cases h
      · next definition hdefinition =>
        split at h
        · cases h
        · next hname =>
          cases h
          exact ⟨AnimationDefinition.encode_of_ofJson? hdefinition, Bool.eq_false_iff.mpr hname⟩

/-- An accepted modification has a target. -/
lemma acceptModification_spec {index : ℕ} {p : Payload.Modification} {m : Modification}
    (h : acceptModification index p = .ok m) : Text.isBlankText m.target = false := by
  unfold acceptModification at h
  split at h
  · cases h
  · split at h
    · cases h
    · next htarget =>
      cases h
      exact Bool.eq_false_iff.mpr htarget

/-- Whatever comes out of a list of entries was accepted from one of them. -/
lemma exists_of_mem_acceptAll {α β : Type} {accept : ℕ → α → Except Rejection β} {index : ℕ}
    {as : List α} {bs : List β} (h : acceptAll accept index as = .ok bs) :
    ∀ b ∈ bs, ∃ i, ∃ a ∈ as, accept i a = .ok b := by
  induction as generalizing index bs with
  | nil =>
    cases h
    exact nofun
  | cons a as ih =>
    rw [acceptAll] at h
    split at h
    · cases h
    · next b hb =>
      cases hrest : acceptAll accept (index + 1) as with
      | error e =>
        rw [hrest] at h
        cases h
      | ok rest =>
        rw [hrest] at h
        cases h
        refine List.forall_mem_cons.mpr ⟨⟨index, a, List.mem_cons_self, hb⟩, fun c hc => ?_⟩
        obtain ⟨i, a', ha', hc⟩ := ih hrest c hc
        exact ⟨i, a', List.mem_cons_of_mem _ ha', hc⟩

/-- What holds of a bundle that was accepted: its variables are in order, its definitions fit into a
text at their depth, and its names and targets say something. -/
structure Accepted (b : Bundle) : Prop where
  sorted : Text.Sorted b.cssVars.entries
  fits : ∀ a ∈ b.animations, a.definition.encode.Fits (Decoder.maxDepth - 3)
  named : ∀ a ∈ b.animations, Text.isBlankText a.name = false
  targeted : ∀ m ∈ b.modifications, Text.isBlankText m.target = false

/-- What is accepted from a payload in order is an accepted bundle. -/
lemma accepted_ofPayload {p : Payload} {b : Bundle} (hsorted : Text.Sorted p.cssVars.entries)
    (hfits : ∀ a ∈ p.animations, a.definition.Fits (Decoder.maxDepth - 3))
    (h : ofPayload p = .ok b) : b.Accepted := by
  unfold ofPayload at h
  split at h
  · cases h
  · next animations hanimations =>
    split at h
    · cases h
    · next modifications hmodifications =>
      cases h
      refine ⟨hsorted, fun a ha => ?_, fun a ha => ?_, fun m hm => ?_⟩
      · obtain ⟨i, p', hp', haccept⟩ := exists_of_mem_acceptAll hanimations a ha
        rw [(acceptAnimation_spec haccept).1]
        exact hfits p' hp'
      · obtain ⟨i, p', -, haccept⟩ := exists_of_mem_acceptAll hanimations a ha
        exact (acceptAnimation_spec haccept).2
      · obtain ⟨i, p', -, haccept⟩ := exists_of_mem_acceptAll hmodifications m hm
        exact acceptModification_spec haccept

/-- A text that has the shape of a payload is read as the bundle that the payload is accepted as. -/
lemma ofJson_eq {json : String} {p : Payload} (h : Decoder.text Payload.decode json = .ok p) :
    ofJson json = ofPayload p := by
  rw [ofJson, h]

/-- Every bundle read from a text is an accepted one. -/
theorem accepted_ofJson {json : String} {b : Bundle} (h : ofJson json = .ok b) : b.Accepted := by
  unfold ofJson at h
  split at h
  · cases h
  · next p hp =>
    have hdecode := Decoder.decode_of_text hp
    exact accepted_ofPayload (Payload.sorted_cssVars hdecode)
      (Payload.fits_definitions (Reading.inRange_ofText json) hdecode) h

end Bundle

end Restyle
