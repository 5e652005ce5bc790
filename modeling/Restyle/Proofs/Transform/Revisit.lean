import Restyle.Proofs.Change.Reached
import Restyle.Proofs.Transform.Reread

/-!
Which tags a modification is applied at when a pipeline is run again.

* `stage`, `applyEach_append`: the module that a modification finds, behind those before it;
* `Visits`: the tags of the points that it has there;
* `keeps_stage`, `retouched_stage`: what is found before a stage is there afterwards, and on a
  settled module nothing else is;
* `ofConcrete_visits_again`: the second time a modification visits the tags that it visited the
  first time and its own wrappers, except those that have come to look like wrappers of
  modifications behind it.
-/

namespace Restyle.SyntaxTree

variable {t t' : SyntaxTree} {settings : TransformSettings} {m : Modification} {tag : Tag}
  {first later pending : List Modification}

/-! ### Stages of a run -/

/-- The module after the first modifications of a run, while `later` are pending behind them. -/
def stage (settings : TransformSettings) (later : List Modification) :
    SyntaxTree → List Modification → SyntaxTree
  | t, [] => t
  | t, m :: first => stage settings later (t.applyAtAll settings m
      (t.pointsBefore settings.actualClassAttributes m (first ++ later))).2 first

/-- The module that a pipeline has come to before it applies `later`. -/
def stageOfRestyle (t : SyntaxTree) (settings : TransformSettings) (needsImport : Bool)
    (first later : List Modification) : SyntaxTree :=
  (t.importIfNeeded settings needsImport).2.stage settings later first

@[simp] lemma stageOfRestyle_nil (t : SyntaxTree) (settings : TransformSettings)
    (later : List Modification) : t.stageOfRestyle settings false [] later = t := rfl

/-- A modification has a point at a tag, while others are pending. -/
def Visits (t : SyntaxTree) (settings : TransformSettings) (m : Modification)
    (pending : List Modification) (tag : Tag) : Prop :=
  ∃ point ∈ t.pointsBefore settings.actualClassAttributes m pending, point.tag? = some tag

instance : Decidable (t.Visits settings m pending tag) :=
  inferInstanceAs (Decidable (∃ point ∈ _, _))

/-- A modification visits the located tags that it sees. -/
lemma visits_iff :
    t.Visits settings m pending tag ↔ t.Located tag ∧ t.sees tag m pending = true := by
  rw [Visits, pointsBefore_eq, ← mem_tagsSeeing]
  refine ⟨fun ⟨point, hmem, htag⟩ => ?_, fun hmem => ?_⟩
  · obtain ⟨tag', hmem', rfl⟩ := List.mem_map.mp hmem
    rw [tag?_pointAt, Option.some.injEq] at htag
    exact htag ▸ hmem'
  · exact ⟨_, List.mem_map_of_mem hmem, tag?_pointAt t _ _ tag⟩

lemma applyOne_snd_eq (t : SyntaxTree) (settings : TransformSettings) (index : Nat)
    (m : Modification) (pending : List Modification) :
    (t.applyOne settings index m pending).2
      = (t.applyAtAll settings m (t.pointsBefore settings.actualClassAttributes m pending)).2 := by
  rw [applyOne_snd, pointsBefore_eq]

/-- A run applies its later modifications to the stage that its first ones lead to. -/
theorem applyEach_append (t : SyntaxTree) (settings : TransformSettings) (index : Nat)
    (first later : List Modification) :
    ∃ entries, t.applyEach settings index (first ++ later)
      = (entries ++
          ((t.stage settings later first).applyEach settings (index + first.length) later).1,
        ((t.stage settings later first).applyEach settings (index + first.length) later).2) := by
  induction first generalizing t index with
  | nil => exact ⟨[], rfl⟩
  | cons m first ih =>
      rw [List.cons_append, applyEach]
      dsimp only
      rw [applyOne_snd_eq]
      obtain ⟨entries, heq⟩ := ih (t.applyAtAll settings m
        (t.pointsBefore settings.actualClassAttributes m (first ++ later))).2 (index + 1)
      refine ⟨(t.applyOne settings index m (first ++ later)).1 ++ entries, ?_⟩
      have hindex : index + 1 + first.length = index + (first.length + 1) := by omega
      rw [heq, hindex, stage, List.length_cons, List.append_assoc]

/-- The next stage is that after the modification at which a run has come. -/
lemma stage_append_singleton (t : SyntaxTree) (settings : TransformSettings)
    (first : List Modification) (m : Modification) (pending : List Modification) (index : Nat) :
    t.stage settings pending (first ++ [m])
      = ((t.stage settings (m :: pending) first).applyOne settings index m pending).2 := by
  induction first generalizing t with
  | nil => rw [List.nil_append, stage, stage, stage, List.nil_append, applyOne_snd_eq]
  | cons m' first ih =>
      rw [List.cons_append, stage, stage, List.append_assoc, List.singleton_append, ih]

/-- What a module is before a stage, it is at the stage. -/
theorem keeps_stage (h : t.Shaped) (settings : TransformSettings)
    (later first : List Modification) :
    Keeps t (t.stage settings later first) := by
  induction first generalizing t with
  | nil => exact .refl h
  | cons m first ih =>
      rw [stage]
      have hpoints : ∀ point ∈ t.pointsBefore settings.actualClassAttributes m (first ++ later),
          t.Holds point := fun _ => holds_of_mem_pointsBefore
      have hfirst := keeps_applyAtAll h settings m hpoints
      exact hfirst.trans (ih hfirst.shaped)

/-- Modifications that find what they want only retouch the module up to any stage. -/
theorem retouched_stage (h : t.Shaped) (settings : TransformSettings)
    (hfinds : ∀ tag, t.Located tag → ∀ m ∈ t.seen tag (first ++ later), t.Finds settings m tag)
    (hwears : ∀ tag, t.Located tag → ∀ m ∈ t.seen tag (first ++ later), t.Wears m tag) :
    (t.stage settings later first).Shaped ∧ Retouched t (t.stage settings later first) := by
  induction first generalizing t with
  | nil => exact ⟨h, .refl t⟩
  | cons m first ih =>
      have hround := rounds_applyOne h settings 0 m (first ++ later)
      obtain ⟨hr, hfinds', hwears'⟩ :=
        retouched_applyOne h settings 0 m (first ++ later) hfinds hwears
      obtain ⟨hshaped, hrest⟩ := ih hround.shaped hfinds' hwears'
      rw [applyOne_snd_eq] at hr hround hshaped hrest
      rw [stage]
      exact ⟨hshaped, hr.trans hrest h.toLinked hround.shaped.toLinked⟩

/-! ### The second run -/

lemma keeps_importIfNeeded (h : t.Shaped) (settings : TransformSettings) (needsImport : Bool) :
    Keeps t (t.importIfNeeded settings needsImport).2 := by
  cases needsImport with
  | false => exact .refl h
  | true => exact keeps_requireImport h settings

/-- A pipeline on a settled module that has the import visits, at each stage, what it would visit at
once. -/
lemma Settled.visits_stageOfRestyle (hs : t.Settled settings (first ++ m :: pending)) (h : t.Shaped)
    {needsImport : Bool} (himport : needsImport = true →
      (t.importOf? settings.actualAnimationLibrary).isSome = true) :
    (t.stageOfRestyle settings needsImport first (m :: pending)).Visits settings m pending tag
      ↔ t.Visits settings m pending tag := by
  obtain ⟨hshaped, hr⟩ := retouched_stage h settings hs.finds hs.wears
  rw [stageOfRestyle, importIfNeeded_of_importOf? himport, visits_iff, visits_iff,
    hr.located_iff h.toLinked hshaped.toLinked]
  refine and_congr_right fun ht => ?_
  rw [hr.sees_eq h.toDocument hshaped.toDocument ht]

/-- What becomes of a module in a pipeline: up to a modification, at its points, and behind it. -/
lemma Shaped.rounds_stageOfRestyle (h : t.Shaped) (settings : TransformSettings)
    (needsImport : Bool) (first : List Modification) (m : Modification)
    (pending : List Modification) :
    let before := t.stageOfRestyle settings needsImport first (m :: pending)
    let after := t.stageOfRestyle settings needsImport (first ++ [m]) pending
    before.Shaped ∧ Rounds before after settings m (before.tagsSeeing m pending)
      ∧ Run after (t.restyle settings needsImport (first ++ m :: pending)).2 settings pending := by
  have hread := (keeps_importIfNeeded h settings needsImport).shaped
  dsimp only [stageOfRestyle]
  rw [SyntaxTree.restyle]
  dsimp only
  generalize (t.importIfNeeded settings needsImport).2 = u at hread
  obtain ⟨entries, heq⟩ := u.applyEach_append settings 0 first (m :: pending)
  rw [heq, applyEach, stage_append_singleton u settings first m pending (0 + first.length)]
  dsimp only
  have hbefore := (keeps_stage hread settings (m :: pending) first).shaped
  have hround := rounds_applyOne hbefore settings (0 + first.length) m pending
  exact ⟨hbefore, hround, run_applyEach hround.shaped settings _ pending⟩

/-- When a pipeline is run again on a module, a modification visits, besides tags that it made
itself the first time, exactly those tags that it visited the first time and that do not look like
wrappers of a pending modification once the first run is over. -/
theorem ofConcrete_visits_again (source : List Char) {tree : Syntax.Cst} (htree : tree.Grammatical)
    (settings : TransformSettings) (needsImport : Bool) (first : List Modification)
    (m : Modification) (pending : List Modification) (tag : Tag) :
    let t := ofConcrete source tree
    let once := (t.restyle settings needsImport (first ++ m :: pending)).2
    let before := t.stageOfRestyle settings needsImport first (m :: pending)
    let after := t.stageOfRestyle settings needsImport (first ++ [m]) pending
    (once.stageOfRestyle settings needsImport first (m :: pending)).Visits settings m pending tag
        ∧ ¬ (after.Located tag ∧ ¬ before.Located tag)
      ↔ before.Visits settings m pending tag ∧ pending.any (once.isMadeBy tag.element) = false := by
  intro t once before after
  obtain ⟨hbefore, hround, hrun⟩ :=
    (shaped_ofConcrete source htree).rounds_stageOfRestyle settings needsImport first m pending
  obtain ⟨hshaped, hsettled, -, himport⟩ := (shaped_ofConcrete source htree).restyle settings
    needsImport (first ++ m :: pending)
  have hgrows := hround.grows.trans hrun.grows
  rw [hsettled.visits_stageOfRestyle hshaped himport, visits_iff, visits_iff]
  refine ⟨fun ⟨⟨ht, hsees⟩, hold⟩ => ?_, fun ⟨⟨ht, hsees⟩, hunmade⟩ => ?_⟩
  · -- no pending modification made the tag, so that it was there after this one
    have hunmade := (sees_iff.mp hsees).2
    have hbefore' : before.Located tag := by
      by_contra hnot
      exact hold ⟨(hrun.unmade tag ht hunmade).1, hnot⟩
    exact ⟨⟨hbefore', hgrows.sees hbefore.toDocument hshaped.toDocument hbefore' hsees⟩, hunmade⟩
  · exact ⟨⟨hgrows.located hbefore.toLinked ht,
      sees_iff.mpr ⟨(sees_iff.mp hsees).1, hunmade⟩⟩, fun hmade => hmade.2 ht⟩

/-- A modification that puts wrappers with names that contain its target visits them the second
time, besides what it visited the first time. -/
theorem visits_again_wrappedElement :
    let t := ofConcrete "<w><x/></w>".toList Restyled.wrappedElement
    let m : Modification := ⟨"x", .wrapElement, "xx"⟩
    let once := (t.restyle {} false [m]).2
    let inner : Tag := ⟨7, 7, "x", some ⟨1, 4⟩⟩
    Restyled.wrappedElement.Grammatical ∧ once.render = "<w><xx><x/></xx></w>"
      ∧ t.Visits {} m [] inner ∧ once.Visits {} m [] ⟨16, 15, "xx", none⟩
      ∧ once.Visits {} m [] inner := by
  intro t m once inner
  have htree : Restyled.wrappedElement.Grammatical := by decide +kernel
  have hvisits : t.Visits {} m [] inner := by decide +kernel
  have hagain := ofConcrete_visits_again "<w><x/></w>".toList htree {} false [] m [] inner
  simp only [stageOfRestyle_nil, List.nil_append] at hagain
  exact ⟨htree, by decide +kernel, hvisits, by decide +kernel,
    (hagain.mpr ⟨hvisits, List.any_nil⟩).1⟩

/-- An element that a modification visits the first time comes to look like the wrapper that a
pending one would put around the wrapper of another one, so that it is not visited the second
time. -/
theorem not_visits_again_wrappedElement :
    let t := ofConcrete "<w><x/></w>".toList Restyled.wrappedElement
    let m : Modification := ⟨"w", .addProp, "data-a=1"⟩
    let pending : List Modification := [⟨"y", .wrapElement, "w"⟩, ⟨"x", .wrapElement, "yy"⟩]
    let once := (t.restyle {} false (m :: pending)).2
    let outer : Tag := ⟨3, 2, "w", some ⟨1, 1⟩⟩
    Restyled.wrappedElement.Grammatical
      ∧ once.render = "<w data-a=\"1\"><yy><x/></yy></w>"
      ∧ t.Visits {} m pending outer ∧ ¬ once.Visits {} m pending outer := by
  intro t m pending once outer
  exact ⟨by decide +kernel, by decide +kernel, by decide +kernel, by decide +kernel⟩

end Restyle.SyntaxTree
