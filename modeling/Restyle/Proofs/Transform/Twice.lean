import Restyle.Proofs.Change.Sticky
import Restyle.Proofs.Search.Grammar
import Restyle.Proofs.Transform.Settled

/-!
Pipelines that are run twice.

* `HoldsSticky`: some attribute that an assignment can be about is sticky;
* `Shaped.restyle_again`: the second time nothing is made, and no string gets another text;
* `Shaped.render_restyle_iff`: pipelines leave the text of a module the second time, exactly if it
  holds no sticky string.
-/

namespace Restyle.SyntaxTree

variable {t : SyntaxTree}

/-! ### Sticky attributes -/

/-- An attribute that an assignment can be about is sticky. -/
def HoldsSticky (t : SyntaxTree) : Prop :=
  ∃ target, ∃ tag ∈ t.tagsNamed target, ∃ name a literal s, isMarkupName name = true
    ∧ t.attribute? tag.node name = some a ∧ t.stringValue? a = some (literal, s) ∧ Sticky s

/-- A module is calm if it holds no sticky attribute. -/
lemma calmAll_of_not_holdsSticky (h : ¬ t.HoldsSticky) : t.CalmAll := by
  intro target tag htag name p s hname hp hs
  rw [find?_properties, Option.map_eq_some_iff] at hp
  obtain ⟨a, ha, rfl⟩ := hp
  obtain ⟨⟨literal, s'⟩, hv, rfl⟩ := Option.map_eq_some_iff.mp hs
  exact ⟨(quoted_of_quotationOf? (stringValue?_spec hv).2.2.2).1, fun hsticky =>
    h ⟨target, tag, htag, name, a, literal, s', hname, ha, hv, hsticky⟩⟩

/-! ### Running a pipeline twice -/

/-- Settings under which one attribute holds classes and none is added. -/
def provokingSettings (name : String) : TransformSettings :=
  { classAttributes := [name], synthesizeMissingProps := some false }

/-- A tag sees all modifications that wrap nothing, if its name contains their target. -/
lemma seen_eq_self {tag : Tag} {target : String} {ms : List Modification}
    (htag : tag ∈ t.tagsNamed target) (htarget : ∀ m ∈ ms, m.target = target)
    (hms : ∀ m ∈ ms, m.action ≠ .wrapElement) : t.seen tag ms = ms := by
  induction ms with
  | nil => rfl
  | cons m pending ih =>
      obtain ⟨hneedle, -, hname⟩ := mem_tagsNamed.mp htag
      have hmade : pending.any (t.isMadeBy tag.element) = false :=
        List.any_eq_false.mpr fun m' hm' => by
          simp [isMadeBy, hms m' (List.mem_cons_of_mem _ hm')]
      have hsees : t.sees tag m pending = true := by
        rw [sees_iff, htarget m List.mem_cons_self]
        exact ⟨⟨hneedle, hname⟩, hmade⟩
      rw [seen_cons, if_pos hsees, ih (fun m' hm' => htarget m' (List.mem_cons_of_mem _ hm'))
        fun m' hm' => hms m' (List.mem_cons_of_mem _ hm')]

/-- What modifications that wrap nothing make of the attributes of a tag, the first time and the
second. -/
lemma Shaped.properties_applyEach (h : t.Shaped) (settings : TransformSettings) {tag : Tag}
    {target : String} {ms : List Modification} (htag : tag ∈ t.tagsNamed target)
    (htarget : ∀ m ∈ ms, m.target = target) (hms : ∀ m ∈ ms, m.action ≠ .wrapElement) :
    let once := (t.applyEach settings 0 ms).2
    let revised := reviseAll settings.actualClassAttributes (t.adds settings tag.node) ms
    once.Located tag ∧ once.properties tag.node = revised (t.properties tag.node)
      ∧ (once.applyEach settings 0 ms).2.properties tag.node
        = revised (once.properties tag.node) := by
  dsimp only
  have hrun := run_applyEach h settings 0 ms
  set once := (t.applyEach settings 0 ms).2
  obtain ⟨hneedle, ht, hname⟩ := mem_tagsNamed.mp htag
  have hto := hrun.grows.located h.toLinked ht
  -- All the modifications name the tag, and none of them wraps.
  have hseen : once.seen tag ms = ms :=
    seen_eq_self (mem_tagsNamed.mpr ⟨hneedle, hto, hname⟩) htarget hms
  have hunmade : ms.any (once.isMadeBy tag.element) = false :=
    List.any_eq_false.mpr fun m hm => by simp [isMadeBy, hms m hm]
  have honce := (hrun.unmade tag hto hunmade).2
  have hagain := (retouched_applyEach hrun.shaped settings 0 ms hrun.settled.finds
    hrun.settled.wears).2.2 tag hto
  rw [hseen] at honce hagain
  rw [hrun.grows.adds_eq h.toLinked ht] at hagain
  exact ⟨hto, honce, hagain⟩

/-- A sticky string is left in other quotes the second time. -/
lemma Shaped.render_restyle_ne (h : t.Shaped) {tag : Tag} {target name v : String}
    {a literal : NodeId} (htag : tag ∈ t.tagsNamed target) (hname : isMarkupName name = true)
    (ha : t.attribute? tag.node name = some a)
    (hv : t.stringValue? a = some (literal, '\'', v)) (hs : Sticky ('\'', v)) :
    ((t.restyle (provokingSettings name) false (provoking target name v)).2.restyle
        (provokingSettings name) false (provoking target name v)).2.render
      ≠ (t.restyle (provokingSettings name) false (provoking target name v)).2.render := by
  have htarget : ∀ m ∈ provoking target name v, m.target = target := by simp [provoking]
  have hplain : ∀ m ∈ provoking target name v, m.action ≠ .wrapElement := by simp [provoking]
  have hclasses : (provokingSettings name).actualClassAttributes = [name] := rfl
  have hadds : t.adds (provokingSettings name) tag.node = false := rfl
  have hne : reviseAll [name] false (provoking target name v)
        (reviseAll [name] false (provoking target name v) (t.properties tag.node))
      ≠ reviseAll [name] false (provoking target name v) (t.properties tag.node) :=
    reviseAll_provoking hname (by rw [find?_properties, ha, Option.map_some])
      (by rw [propertyOf, hv]; rfl) hs
  generalize provoking target name v = ms at *
  generalize provokingSettings name = settings at *
  obtain ⟨hshaped, hsettled, -, himport⟩ := h.restyle settings false ms
  obtain ⟨hto, honce, hagain⟩ := h.properties_applyEach settings htag htarget hplain
  rw [hclasses, hadds] at honce hagain
  intro heq
  -- The second run only exchanges quotes, so the text tells whether the properties are the same.
  have hrequoted := (hsettled.restyle hshaped himport).2.2
  have hsame := (hrequoted.render_eq_iff hshaped).mp heq tag hto
  rw [← honce, ← hagain] at hne
  exact hne hsame

/-- A pipeline that is run again makes nothing and gives no string another text. -/
theorem Shaped.restyle_again (h : t.Shaped) (settings : TransformSettings) (needsImport : Bool)
    (ms : List Modification) :
    let once := (t.restyle settings needsImport ms).2
    let again := once.restyle settings needsImport ms
    again.1.importOutcome ≠ some .inserted ∧ again.2.size = once.size ∧ Requoted once again.2 := by
  obtain ⟨hshaped, hsettled, -, himport⟩ := h.restyle settings needsImport ms
  obtain ⟨hsize, hout, hrequoted⟩ := hsettled.restyle hshaped himport
  exact ⟨hout, hsize, hrequoted⟩

/-- Pipelines that are run again leave the text, exactly if the module held nothing sticky. -/
theorem Shaped.render_restyle_iff (h : t.Shaped) :
    (∀ settings needsImport ms,
      let once := (t.restyle settings needsImport ms).2
      (once.restyle settings needsImport ms).2.render = once.render) ↔ ¬ t.HoldsSticky := by
  refine ⟨fun hall => ?_, fun hno settings needsImport ms => ?_⟩
  · rintro ⟨target, tag, htag, name, a, literal, ⟨q, v⟩, hname, ha, hv, hs⟩
    obtain rfl : q = '\'' := hs.1
    exact h.render_restyle_ne htag hname ha hv hs (hall _ _ _)
  · obtain ⟨hshaped, hsettled, hfirm, himport⟩ := h.restyle settings needsImport ms
    exact (hsettled.render_restyle_iff hshaped himport).mpr
      (hfirm (calmAll_of_not_holdsSticky hno))

/-- A pipeline that is run twice on a module that was read inserts no second import and makes no
node the second time, wrappers included; and whatever the pipeline, the text stays as it is the
second time, exactly if no attribute was sticky. -/
theorem ofConcrete_restyle_twice (source : List Char) {tree : Syntax.Cst}
    (htree : tree.Grammatical) :
    (∀ settings needsImport ms,
      let once := ((ofConcrete source tree).restyle settings needsImport ms).2
      let again := once.restyle settings needsImport ms
      again.1.importOutcome ≠ some .inserted ∧ again.2.size = once.size ∧ Requoted once again.2)
      ∧ ((∀ settings needsImport ms,
        let once := ((ofConcrete source tree).restyle settings needsImport ms).2
        (once.restyle settings needsImport ms).2.render = once.render)
        ↔ ¬ (ofConcrete source tree).HoldsSticky) :=
  ⟨(shaped_ofConcrete source htree).restyle_again,
    (shaped_ofConcrete source htree).render_restyle_iff⟩

/-- The concrete tree of a module whose only tag has a sticky attribute. -/
def stickyTag : Syntax.Cst :=
  .node (.named .program) none 0 11
    [.node (.named .selfClosingElement) none 0 11
      [.node (.token "<") none 0 1 [], .node (.named .identifier) (some .name) 1 2 [],
        .node (.named .attribute) (some .attribute) 3 9
          [.node (.named .propertyName) none 3 4 [], .node (.token "=") none 4 5 [],
            .node (.named .string) none 5 9 []],
        .node (.token "/>") none 9 11 []]]

/-- A sticky attribute is found, and some pipeline puts it into other quotes the second time. -/
theorem restyle_twice_stickyTag :
    stickyTag.Grammatical ∧ (ofConcrete "<a x='&''/>".toList stickyTag).HoldsSticky
      ∧ ¬ ∀ settings needsImport ms,
        let once := ((ofConcrete "<a x='&''/>".toList stickyTag).restyle settings needsImport ms).2
        (once.restyle settings needsImport ms).2.render = once.render := by
  have hsticky : (ofConcrete "<a x='&''/>".toList stickyTag).HoldsSticky :=
    ⟨"a", ⟨1, 1, "a", some ⟨1, 1⟩⟩, by decide +kernel, "x", 4, 7, ('\'', "&'"), by decide +kernel,
      by decide +kernel, by decide +kernel, rfl, by decide +kernel, by decide +kernel⟩
  exact ⟨by decide +kernel, hsticky,
    fun hall => (ofConcrete_restyle_twice _ (by decide +kernel)).2.mp hall hsticky⟩

/-- Two assignments to a sticky attribute: the first one finds it as it is and the second one leaves
it in its quotes, but when both are made again it ends up in others. -/
theorem render_restyle_stickyTag :
    let ms : List Modification := [⟨"a", .addProp, "x=&'"⟩, ⟨"a", .addProp, "x=b"⟩]
    let once := ((ofConcrete "<a x='&''/>".toList stickyTag).restyle {} false ms).2
    once.render = "<a x='b'/>" ∧ (once.restyle {} false ms).2.render = "<a x=\"b\"/>" := by
  decide +kernel

end Restyle.SyntaxTree
