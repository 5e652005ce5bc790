import Restyle.Proofs.Change.Reached
import Restyle.Proofs.Transform.Reread

/-!
A modification that is applied at all of its points takes full effect.

* `Step.fulfils`: where a modification is applied or finds what it wants, the module is as it wants
  it;
* `Fulfils.of_spared`: and stays so while other tags are modified;
* `fulfils_applyAtAll`: so it is, in the end, at every point that was found before the first was
  modified;
* `Reached.fulfils_points`: the same of the points that a pipeline finds, all of which are still
  there.
-/

namespace Restyle.SyntaxTree

open ClassList (ofValue missing append)

variable {t t' : SyntaxTree} {settings : TransformSettings} {m : Modification} {tag : Tag}
  {point : Point} {r : Outcome × SyntaxTree}

/-! ### At one point -/

/-- Where a modification is applied or finds what it wants, the module is then as it wants it. -/
theorem Step.fulfils (hs : Step t m point r) (h : t.Shaped) (hp : t.Holds point)
    (ho : r.1 = .applied ∨ r.1 = .alreadyPresent) : r.2.Fulfils m point := by
  cases hs with
  | leftOut hleft =>
      dsimp only at ho
      rcases ho with rfl | rfl <;> cases hleft
  | present hthere => exact hthere
  -- What was missing has been written, so nothing is missing now.
  | @extended tag a literal quote classes hm hpoint hv hlacking =>
      subst hpoint
      have hquote := (quoted_of_quotationOf? (stringValue?_spec hv).2.2.2).1
      rw [Fulfils, hm]
      exact ⟨tag, a, literal, quote, _, rfl, stringValue?_overwrite h hp.2.2 hv hquote _,
        ClassList.missing_eq_nil_iff.mp (ClassList.missing_append_missing classes
          (fun c => ClassList.solid_of_mem_ofValue) hlacking)⟩
  | @assigned tag assigned a literal quote current hm htag hof ha hv hne =>
      have hattr := (mem_of_findAttribute? ha).2
      have hquote : (if assigned.value.toList.contains quote then '"' else quote) = '"'
          ∨ (if assigned.value.toList.contains quote then '"' else quote) = '\'' := by
        split
        · exact .inl rfl
        · exact (quoted_of_quotationOf? (stringValue?_spec hv).2.2.2).1
      rw [Fulfils, hm]
      refine ⟨tag, assigned, a, literal, _, htag, hof, ?_,
        stringValue?_overwrite h hattr hv hquote _⟩
      exact (attribute?_overwrite h hattr hv (hp.located htag).isTag _ _).trans ha
  -- There was no attribute of the name, so the new one is the one found.
  | @added tag assigned i t' hm htag hof hnone hend hins hg =>
      obtain ⟨ha, literal, hv⟩ := hg.attribute?_new h (hp.located htag).isTag hend hnone
      rw [Fulfils, hm]
      exact ⟨tag, assigned, t.size, literal, '"', htag, hof, ha, hv⟩
  | @wrapped tag p l r gap t' hm htag hw =>
      have ht := hp.located htag
      rw [Fulfils, hm]
      exact ⟨tag, htag, .inr (hw.isInside (h.element_spec ht.isTag ht.tagAt).2.2.1)⟩

/-- The string of an attribute that is spared holds the text that it held. -/
lemma Spared.exists_stringValue? {g a literal : NodeId} {q : Char} {v : String}
    (hs : Spared t t' g) (ha : a ∈ t.childrenThatAre g .attribute)
    (hv : t.stringValue? a = some (literal, q, v)) :
    ∃ literal', t'.stringValue? a = some (literal', q, v) := by
  have hstring := congrArg Property.string (hs.propertyOf_eq a ha)
  rw [propertyOf, propertyOf, hv] at hstring
  obtain ⟨⟨literal', s⟩, hv', hs'⟩ := Option.map_eq_some_iff.mp hstring
  dsimp only at hs'
  exact ⟨literal', hs' ▸ hv'⟩

/-- What is fulfilled at a point stays so while the module grows and the tag of the point is
spared. -/
theorem Fulfils.of_spared (hf : t.Fulfils m point) (hp : t.Holds point) (hl : t.Linked)
    (hl' : t'.Linked) (hg : Grows t t')
    (hs : ∀ tag, point.tag? = some tag → Spared t t' tag.node) : t'.Fulfils m point := by
  rw [Fulfils] at hf ⊢
  split at hf
  · obtain ⟨tag, a, literal, quote, classes, rfl, hv, hclasses⟩ := hf
    obtain ⟨literal', hv'⟩ :=
      (hs tag rfl).exists_stringValue? (mem_childrenThatAre.mpr hp.2) hv
    exact ⟨tag, a, literal', quote, classes, rfl, hv', hclasses⟩
  · obtain ⟨tag, assigned, a, literal, quote, htag, hof, ha, hv⟩ := hf
    have hspared := hs tag htag
    obtain ⟨literal', hv'⟩ :=
      hspared.exists_stringValue? (mem_childrenThatAre.mpr (mem_of_findAttribute? ha)) hv
    refine ⟨tag, assigned, a, literal', quote, htag, hof, ?_, hv'⟩
    rw [attribute?, hspared.findAttribute?_eq]
    exact ha
  · obtain ⟨tag, htag, hthere⟩ := hf
    exact ⟨tag, htag, hthere.imp_right (hg.isInside hl hl')⟩

/-! ### At all points -/

/-- A modification that is applied at one tag after the other has taken effect at all of them in the
end. -/
theorem fulfils_applyAtAll (h : t.Shaped) (settings : TransformSettings) (m : Modification)
    {tags : List Tag} (hnodup : (tags.map Tag.node).Nodup)
    (htags : ∀ tag ∈ tags, t.Located tag ∧ needle m.target ≠ ""
      ∧ nameContains tag.name (needle m.target) = true) {points : List Point}
    (hpoints : points = tags.map (t.pointAt settings.actualClassAttributes m.action)) :
    ∀ e ∈ points.zip (t.applyAtAll settings m points).1,
      e.2 = .applied ∨ e.2 = .alreadyPresent →
        (t.applyAtAll settings m points).2.Fulfils m e.1 := by
  induction tags generalizing t points with
  | nil =>
      subst hpoints
      exact fun e he => absurd he List.not_mem_nil
  | cons tag tags ih =>
      obtain ⟨ht, hneedle, hname⟩ := htags tag List.mem_cons_self
      rw [List.map_cons, List.nodup_cons] at hnodup
      rw [List.map_cons] at hpoints
      subst hpoints
      rw [applyAtAll]
      dsimp only
      set point := t.pointAt settings.actualClassAttributes m.action tag with hpoint
      have hp : t.Holds point := holds_pointAt ht _ _
      have hfulfils := (h.toDocument.step_applyAt settings m hp).fulfils h hp
      have hkeeps := (h.toDocument.step_applyAt settings m hp).keeps h hp
      have hstep := (application_applyAt h settings m ht).advances h ht hneedle hname
      rw [← hpoint] at hstep
      set u := (t.applyAt settings m point).2
      obtain ⟨-, hothers⟩ := hstep.others h.toLinked
        (fun tag' hmem => (htags tag' (List.mem_cons_of_mem _ hmem)).1) hnodup.1
      have htags' : ∀ tag' ∈ tags, u.Located tag' ∧ needle m.target ≠ ""
          ∧ nameContains tag'.name (needle m.target) = true := fun tag' hmem => by
        obtain ⟨ht', hnames⟩ := htags tag' (List.mem_cons_of_mem _ hmem)
        exact ⟨hkeeps.grows.located h.toLinked ht', hnames⟩
      -- what is done at the other tags leaves this one alone
      have hrest := rounds_applyAtAll hkeeps.shaped settings m hnodup.2 htags'
      rw [hothers] at hrest
      intro e he ho
      rcases List.mem_cons.mp he with rfl | hmem
      · have htu := hkeeps.grows.located h.toLinked ht
        refine (hfulfils ho).of_spared (hkeeps.holds point hp) hkeeps.shaped.toLinked
          hrest.shaped.toLinked hrest.grows fun tag' htag' => ?_
        rw [hpoint, tag?_pointAt, Option.some.injEq] at htag'
        exact htag' ▸ hrest.spared tag htu hnodup.1
      · exact ih hkeeps.shaped hnodup.2 htags' hothers.symm e hmem ho

/-- A modification that is applied at the points that it has in a module that was reached, all of
them found before the first is modified, has an answer for each. In the end all their tags are in
the module under the names that they had, and wherever it was applied or found what it wants, the
module is as it wants it. -/
theorem Reached.fulfils_points {source : List Char} {tree : Syntax.Cst} (h : Reached source tree t)
    (htree : tree.Grammatical) (settings : TransformSettings) (m : Modification)
    (pending : List Modification) :
    let points := t.pointsBefore settings.actualClassAttributes m pending
    let done := t.applyAtAll settings m points
    done.1.length = points.length ∧ ∀ e ∈ points.zip done.1,
      (∃ tag, e.1.tag? = some tag ∧ done.2.Located tag
        ∧ done.2.nameOfElement? tag.element = some tag.name)
      ∧ (e.2 = .applied ∨ e.2 = .alreadyPresent → done.2.Fulfils m e.1) := by
  intro points done
  have hshaped := h.shaped htree
  have heq : points
      = (t.tagsSeeing m pending).map (t.pointAt settings.actualClassAttributes m.action) :=
    pointsBefore_eq t _ m pending
  have hkeeps : Keeps t done.2 :=
    keeps_applyAtAll hshaped settings m fun point => holds_of_mem_pointsBefore
  refine ⟨length_applyAtAll t settings m points, fun e he => ⟨?_, fun ho => ?_⟩⟩
  -- Points are of tags located before the first of them was changed, and located tags stay so.
  · have hmem := (List.of_mem_zip he).1
    rw [heq] at hmem
    obtain ⟨tag, htag, hpoint⟩ := List.mem_map.mp hmem
    have ht := hkeeps.grows.located hshaped.toLinked (mem_tagsSeeing.mp htag).1
    exact ⟨tag, by rw [← hpoint, tag?_pointAt], ht,
      (hkeeps.shaped.element_spec ht.isTag ht.tagAt).2.2.2.2⟩
  · refine fulfils_applyAtAll hshaped settings m (nodup_tagsSeeing hshaped.toLinked m pending)
      (fun tag hmem => ?_) heq e he ho
    obtain ⟨ht, hsees⟩ := mem_tagsSeeing.mp hmem
    exact ⟨ht, (sees_iff.mp hsees).1⟩

/-- Of two elements, one in the other, only the outer one gets a wrapper: the inner one is then
inside it. -/
theorem fulfils_wrappedElement :
    let t := ofConcrete "<a><a/></a>".toList Restyled.wrappedElement
    let m : Modification := ⟨"a", .wrapElement, "w"⟩
    let points := t.pointsBefore (TransformSettings.actualClassAttributes {}) m []
    let done := t.applyAtAll {} m points
    Restyled.wrappedElement.Grammatical ∧ done.1 = [.applied, .alreadyPresent]
      ∧ done.2.render = "<w><a><a/></a></w>" ∧ ∀ e ∈ points.zip done.1, done.2.Fulfils m e.1 := by
  intro t m points done
  have htree : Restyled.wrappedElement.Grammatical := by decide +kernel
  have houtcomes : done.1 = [.applied, .alreadyPresent] := by decide +kernel
  refine ⟨htree, houtcomes, by decide +kernel, fun e he => ?_⟩
  have hmem := (List.of_mem_zip he).2
  rw [houtcomes] at hmem
  exact ((Reached.fulfils_points .read htree {} m []).2 e he).2 (by simpa using hmem)

end Restyle.SyntaxTree
