import Restyle.Proofs.Transform.Revisit

/-!
What a report says of a transform: everything that was asked for, in order, and nothing else.

* `Report.Entry.Answers`: an entry tells of a modification at a point of a module;
* `answers_applyAtAll`: applying a modification at points gives an answer for each, in order;
* `filter_index_applyEach`, `pairwise_index_applyEach`: the entries of a modification are those of
  its own round, and those of the next one follow them;
* `Report.tally_eq`, `Report.tally_total`, `Report.isLacking_iff`: the four counts are of all
  entries, each of its own outcomes, and the last one tells the verdict;
* `Restyled.ofSourceWith_reports`: all of it, for every component that is transformed.
-/

namespace Restyle

/-- What an entry says of a modification at a point of a module: the element that was met there, and
that there was one. -/
structure Report.Entry.Answers (e : Report.Entry) (u : SyntaxTree) (index : Nat) (m : Modification)
    (point : Point) : Prop where
  index_eq : e.index = index
  action_eq : e.action = m.action
  target_eq : e.target = m.target
  element_eq : ∃ tag, point.tag? = some tag ∧ u.Located tag ∧ e.element = some tag.name
    ∧ e.position = tag.position
  outcome_ne : e.outcome ≠ .noTargetMatched

namespace SyntaxTree

variable {t u : SyntaxTree} {settings : TransformSettings} {m : Modification}
  {first later pending ms : List Modification} {index : Nat} {e : Report.Entry}

/-! ### Answers at points -/

/-- Adding classes never answers that no target matched. -/
lemma addClass_ne_unmatched (t : SyntaxTree) (id : NodeId) (value : String) :
    (t.addClass id value).1 ≠ .noTargetMatched := by
  rw [addClass]
  split
  · simp
  · split
    · simp
    · split <;> simp

/-- Setting a property never answers that no target matched. -/
lemma addProp_ne_unmatched (t : SyntaxTree) (tag : NodeId) (value : String) (synthesize : Bool) :
    (t.addProp tag value synthesize).1 ≠ .noTargetMatched := by
  rw [addProp]
  split
  · simp
  · split
    · rw [changeValue]
      split
      · simp
      · split <;> simp
    · split
      · rw [insertAttribute]
        split <;> simp
      · simp

/-- Wrapping never answers that no target matched. -/
lemma wrapElement_ne_unmatched (t : SyntaxTree) (tag : Tag) (wrapper : String) :
    (t.wrapElement tag wrapper).1 ≠ .noTargetMatched := by
  rw [wrapElement]
  dsimp only
  split
  · simp
  · split
    · simp
    · split
      · simp
      · split <;> simp

/-- A modification that is applied at a point has something to apply to. -/
lemma applyAt_ne_unmatched (t : SyntaxTree) (settings : TransformSettings) (m : Modification)
    (point : Point) : (t.applyAt settings m point).1 ≠ .noTargetMatched := by
  unfold applyAt
  split
  · simp
  · exact t.addClass_ne_unmatched _ _
  · simp
  · exact t.addProp_ne_unmatched _ _ _
  · exact t.addProp_ne_unmatched _ _ _
  · exact t.wrapElement_ne_unmatched _ _
  · exact t.wrapElement_ne_unmatched _ _

/-- There is an answer for each point, in order, whatever becomes of the module meanwhile. -/
theorem answers_applyAtAll (t : SyntaxTree) (settings : TransformSettings) (index : Nat)
    (m : Modification) {points : List Point}
    (hpoints : ∀ point ∈ points, ∃ tag, point.tag? = some tag ∧ u.Located tag) :
    List.Forall₂ (fun point (e : Report.Entry) => e.Answers u index m point) points
      (points.zipWith (Report.Entry.matched index m) (t.applyAtAll settings m points).1) := by
  induction points generalizing t with
  | nil => exact .nil
  | cons point points ih =>
      obtain ⟨tag, htag, ht⟩ := hpoints point List.mem_cons_self
      rw [applyAtAll]
      refine .cons ?_ (ih _ fun point' hmem => hpoints point' (List.mem_cons_of_mem _ hmem))
      refine ⟨rfl, rfl, rfl, ⟨tag, htag, ht, ?_, ?_⟩, t.applyAt_ne_unmatched settings m point⟩
      · rw [Report.Entry.matched, htag, Option.map_some]
      · rw [Report.Entry.matched, htag, Option.bind_some]

/-- The points of a modification are at tags of the module. -/
lemma exists_tag_of_mem_pointsBefore {classAttributes : List String} {point : Point}
    (hp : point ∈ t.pointsBefore classAttributes m pending) :
    ∃ tag, point.tag? = some tag ∧ t.Located tag := by
  rw [pointsBefore_eq, List.mem_map] at hp
  obtain ⟨tag, hmem, rfl⟩ := hp
  exact ⟨tag, tag?_pointAt t _ _ tag, (mem_tagsSeeing.mp hmem).1⟩

/-- The points of a modification are in the order of the module. -/
lemma pointsBefore_sublist (t : SyntaxTree) (classAttributes : List String) (m : Modification)
    (pending : List Modification) :
    (((t.pointsBefore classAttributes m pending).filterMap Point.tag?).map Tag.node).Sublist
      (t.descendants root) := by
  have htags : ((t.tagsSeeing m pending).map (t.pointAt classAttributes m.action)).filterMap
      Point.tag? = t.tagsSeeing m pending := by
    rw [List.filterMap_map]
    refine (List.filterMap_congr fun tag _ => ?_).trans List.filterMap_some
    rw [Function.comp_apply, tag?_pointAt]
  rw [pointsBefore_eq, htags]
  exact t.tagsSeeing_sublist m pending

/-! ### The round of a modification -/

lemma applyOne_fst_of_nil (h : t.pointsBefore settings.actualClassAttributes m pending = []) :
    (t.applyOne settings index m pending).1 = [Report.Entry.unmatched index m] := by
  rw [applyOne, h]

/-- A modification makes an entry for each of its points, in their order. -/
lemma applyOne_fst_of_ne_nil (h : t.pointsBefore settings.actualClassAttributes m pending ≠ []) :
    (t.applyOne settings index m pending).1
      = (t.pointsBefore settings.actualClassAttributes m pending).zipWith
          (Report.Entry.matched index m)
          (t.applyAtAll settings m
            (t.pointsBefore settings.actualClassAttributes m pending)).1 := by
  rw [applyOne]
  generalize t.pointsBefore settings.actualClassAttributes m pending = points at h
  cases points with
  | nil => exact absurd rfl h
  | cons point points => rfl

/-- The entries of a round with points answer for them. -/
lemma answers_applyOne (h : t.pointsBefore settings.actualClassAttributes m pending ≠ []) :
    List.Forall₂ (fun point (e : Report.Entry) => e.Answers t index m point)
      (t.pointsBefore settings.actualClassAttributes m pending)
      (t.applyOne settings index m pending).1 := by
  rw [applyOne_fst_of_ne_nil h]
  exact answers_applyAtAll t settings index m fun point => exists_tag_of_mem_pointsBefore

/-- The entries of a modification have its index. -/
lemma index_of_mem_applyOne (he : e ∈ (t.applyOne settings index m pending).1) :
    e.index = index := by
  by_cases hnil : t.pointsBefore settings.actualClassAttributes m pending = []
  · rw [applyOne_fst_of_nil hnil, List.mem_singleton] at he
    rw [he]
    rfl
  · rw [applyOne_fst_of_ne_nil hnil] at he
    rw [← List.map_uncurry_zip_eq_zipWith, List.mem_map] at he
    obtain ⟨-, -, rfl⟩ := he
    rfl

/-- Every modification makes an entry. -/
lemma applyOne_fst_ne_nil (t : SyntaxTree) (settings : TransformSettings) (index : Nat)
    (m : Modification) (pending : List Modification) :
    (t.applyOne settings index m pending).1 ≠ [] := by
  by_cases hnil : t.pointsBefore settings.actualClassAttributes m pending = []
  · rw [applyOne_fst_of_nil hnil]
    exact List.cons_ne_nil _ _
  · intro hempty
    have hanswers : List.Forall₂ _ _ (t.applyOne settings index m pending).1 :=
      answers_applyOne hnil
    rw [hempty] at hanswers
    exact hnil (List.length_eq_zero_iff.mp hanswers.length_eq)

/-! ### The entries of a run -/

/-- The entries have the indices of the modifications. -/
lemma index_of_mem_applyEach (he : e ∈ (t.applyEach settings index ms).1) :
    index ≤ e.index ∧ e.index < index + ms.length := by
  induction ms generalizing t index with
  | nil => cases he
  | cons m pending ih =>
      rw [applyEach] at he
      rw [List.length_cons]
      rcases List.mem_append.mp he with he | he
      · rw [index_of_mem_applyOne he]
        omega
      · have := ih he
        omega

/-- The entries of a run are in the order of its modifications. -/
theorem pairwise_index_applyEach (t : SyntaxTree) (settings : TransformSettings) (index : Nat)
    (ms : List Modification) :
    (t.applyEach settings index ms).1.Pairwise fun e e' => e.index ≤ e'.index := by
  induction ms generalizing t index with
  | nil => exact .nil
  | cons m pending ih =>
      rw [applyEach]
      dsimp only
      refine List.pairwise_append.mpr ⟨List.pairwise_of_forall_mem_list fun e he e' he' => ?_,
        ih _ _, fun e he e' he' => ?_⟩
      · rw [index_of_mem_applyOne he, index_of_mem_applyOne he']
      · rw [index_of_mem_applyOne he]
        exact (Nat.le_succ index).trans (index_of_mem_applyEach he').1

/-- The entries of a modification are those of its round, at the stage that those before it led
to. -/
theorem filter_index_applyEach (t : SyntaxTree) (settings : TransformSettings) (index : Nat)
    (first : List Modification) (m : Modification) (later : List Modification) :
    ((t.applyEach settings index (first ++ m :: later)).1.filter
        fun e => e.index = index + first.length)
      = ((t.stage settings (m :: later) first).applyOne settings
        (index + first.length) m later).1 := by
  -- By induction on the modifications in front, whose entries all have smaller indices.
  induction first generalizing t index with
  | nil =>
      rw [List.nil_append, applyEach, stage, List.filter_append]
      refine (congrArg₂ _ (List.filter_eq_self.mpr fun e he => ?_)
        (List.filter_eq_nil_iff.mpr fun e he => ?_)).trans (List.append_nil _)
      · exact decide_eq_true (index_of_mem_applyOne he)
      · rw [decide_eq_true_eq, List.length_nil]
        have := (index_of_mem_applyEach he).1
        omega
  | cons m' first ih =>
      have hindex : index + (m' :: first).length = index + 1 + first.length := by
        rw [List.length_cons]
        omega
      rw [List.cons_append, applyEach, stage, List.filter_append,
        ← applyOne_snd_eq t settings index,
        hindex]
      refine (congrArg₂ _ (List.filter_eq_nil_iff.mpr fun e he => ?_) (ih _ _)).trans
        (List.nil_append _)
      rw [decide_eq_true_eq, index_of_mem_applyOne he]
      omega

/-- Every modification of a run has an entry. -/
lemma exists_index_applyEach_iff (t : SyntaxTree) (settings : TransformSettings)
    (ms : List Modification) (i : Nat) :
    (∃ e ∈ (t.applyEach settings 0 ms).1, e.index = i) ↔ i < ms.length := by
  constructor
  · rintro ⟨e, he, rfl⟩
    exact Nat.zero_add ms.length ▸ (index_of_mem_applyEach he).2
  · intro hi
    have hsplit : ms.take i ++ ms[i] :: ms.drop (i + 1) = ms := by
      rw [List.getElem_cons_drop, List.take_append_drop]
    have hlength : (ms.take i).length = i := List.length_take_of_le hi.le
    have hround := filter_index_applyEach t settings 0 (ms.take i) ms[i] (ms.drop (i + 1))
    rw [hsplit, Nat.zero_add, hlength] at hround
    obtain ⟨e, he⟩ := List.exists_mem_of_ne_nil _ (applyOne_fst_ne_nil
      (t.stage settings (ms[i] :: ms.drop (i + 1)) (ms.take i)) settings i ms[i] (ms.drop (i + 1)))
    rw [← hround, List.mem_filter, decide_eq_true_eq] at he
    exact ⟨e, he⟩

end SyntaxTree

/-! ### Counts -/

namespace Report

lemma isUnsupported_eq (o : Outcome) :
    o.isUnsupported = decide (o ∉ [Outcome.applied, .alreadyPresent, .noTargetMatched]) := by
  cases o <;> rfl

/-- How many entries have an outcome that passes a test. -/
def count (r : Report) (test : Outcome → Bool) : Nat :=
  r.entries.countP fun e => test e.outcome

/-- An outcome goes into one of the four counts. -/
lemma Tally.add_eq (s : Tally) (o : Outcome) :
    s.add o = ⟨s.applied + if o = .applied then 1 else 0,
      s.alreadyPresent + if o = .alreadyPresent then 1 else 0,
      s.unmatched + if o = .noTargetMatched then 1 else 0,
      s.unsupported + if o.isUnsupported then 1 else 0⟩ := by
  cases o <;> rfl

/-- Adding entries to a tally raises each count by how many of its outcomes there are. -/
lemma foldl_add (s : Tally) (entries : List Entry) :
    entries.foldl (fun s e => s.add e.outcome) s
      = ⟨s.applied + entries.countP fun e => e.outcome = .applied,
        s.alreadyPresent + entries.countP fun e => e.outcome = .alreadyPresent,
        s.unmatched + entries.countP fun e => e.outcome = .noTargetMatched,
        s.unsupported + entries.countP fun e => e.outcome.isUnsupported⟩ := by
  induction entries generalizing s with
  | nil => rfl
  | cons e entries ih =>
      rw [List.foldl_cons, ih, Tally.add_eq]
      simp only [List.countP_cons, decide_eq_true_eq, Tally.mk.injEq]
      omega

/-- The four counts are of the entries with these outcomes. What has no count of its own is exactly
what is not supported. -/
theorem tally_eq (r : Report) :
    r.tally =
      ⟨r.count (· = .applied), r.count (· = .alreadyPresent), r.count (· = .noTargetMatched),
      r.count Outcome.isUnsupported⟩ := by
  rw [tally, foldl_add]
  simp only [count, Nat.zero_add]

/-- Each entry is counted once. -/
theorem tally_total (r : Report) :
    r.tally.applied + r.tally.alreadyPresent + r.tally.unmatched + r.tally.unsupported
      = r.entries.length := by
  rw [tally_eq]
  dsimp only [count]
  induction r.entries with
  | nil => rfl
  | cons e entries ih =>
      rw [List.countP_cons, List.countP_cons, List.countP_cons, List.countP_cons, List.length_cons,
        ← ih]
      have hone : (if decide (e.outcome = .applied) then 1 else 0)
          + (if decide (e.outcome = .alreadyPresent) then 1 else 0)
          + (if decide (e.outcome = .noTargetMatched) then 1 else 0)
          + (if e.outcome.isUnsupported then 1 else 0) = 1 := by
        cases e.outcome <;> rfl
      omega

/-- What was left out is what had nothing to apply to and what is not supported. -/
theorem length_leftOut (r : Report) :
    r.leftOut.length = r.tally.unmatched + r.tally.unsupported := by
  rw [leftOut, ← List.countP_eq_length_filter, tally_eq]
  dsimp only [count]
  induction r.entries with
  | nil => rfl
  | cons e entries ih =>
      rw [List.countP_cons, List.countP_cons, List.countP_cons, ih]
      have hsplit : (if e.outcome.isLeftOut then 1 else 0)
          = (if decide (e.outcome = .noTargetMatched) then 1 else 0)
            + (if e.outcome.isUnsupported then 1 else 0) := by
        cases e.outcome <;> rfl
      omega

/-- Something is lacking exactly if something was counted as not supported. -/
theorem isLacking_iff (r : Report) : r.isLacking = true ↔ 0 < r.tally.unsupported := by
  rw [isLacking, List.any_eq_true, tally_eq]
  exact List.countP_pos_iff.symm

lemma verdict_eq (r : Report) :
    r.verdict = if 0 < r.tally.unsupported then .partiallyApplied else .emitted := by
  rw [verdict]
  exact if_congr r.isLacking_iff rfl rfl

end Report

/-! ### Components -/

namespace Restyled

open SyntaxTree (ofConcrete root)

/-- An answer comes from restyling the tree that was read. -/
lemma exists_of_ofSourceWith {read : List Char → Except ParseError Syntax.Cst} {source : String}
    {bundle : Bundle} {settings : TransformSettings} {o : Restyled}
    (ho : ofSourceWith read source bundle settings = .ok o) :
    ∃ tree, read source.toList = .ok tree
      ∧ o.report = ((ofConcrete source.toList tree).restyle settings bundle.needsMotion
        bundle.modifications).1
      ∧ o.verdict = o.report.verdict := by
  rw [ofSourceWith] at ho
  cases hread : read source.toList with
  | error e =>
      rw [hread] at ho
      cases ho
  | ok tree =>
      rw [hread] at ho
      cases ho
      exact ⟨tree, rfl, rfl, rfl⟩

/-- The report of a component that is transformed, whatever reads it. Its entries are in the order
of the modifications, all of which have some. A modification without points has one entry, which
says so, and any other has an entry for each of its points, in the order of the module that it
found. Each entry is counted once, with its own outcome, and the verdict is whether any was counted
as not supported. -/
theorem ofSourceWith_reports {read : List Char → Except ParseError Syntax.Cst} {source : String}
    {bundle : Bundle} {settings : TransformSettings} {o : Restyled}
    (ho : ofSourceWith read source bundle settings = .ok o) :
    (o.report.entries.Pairwise fun e e' => e.index ≤ e'.index)
      ∧ (∀ i, (∃ e ∈ o.report.entries, e.index = i) ↔ i < bundle.modifications.length)
      ∧ (∃ tree, read source.toList = .ok tree ∧ ∀ first m later,
        bundle.modifications = first ++ m :: later →
        let u := (ofConcrete source.toList tree).stageOfRestyle settings bundle.needsMotion first
          (m :: later)
        let points := u.pointsBefore settings.actualClassAttributes m later
        ((points.filterMap Point.tag?).map Tag.node).Sublist (u.descendants root)
          ∧ (points = [] → ∃ e, o.report.entriesOf first.length = [e]
            ∧ e.outcome = .noTargetMatched ∧ e.element = none)
          ∧ (points ≠ [] → List.Forall₂ (fun point e => e.Answers u first.length m point) points
            (o.report.entriesOf first.length)))
      ∧ o.report.tally.applied + o.report.tally.alreadyPresent + o.report.tally.unmatched
          + o.report.tally.unsupported = o.report.entries.length
      ∧ o.report.tally.applied = (o.report.entries.countP fun e => e.outcome = .applied)
      ∧ o.report.tally.alreadyPresent
          = (o.report.entries.countP fun e => e.outcome = .alreadyPresent)
      ∧ o.report.tally.unmatched = (o.report.entries.countP fun e => e.outcome = .noTargetMatched)
      ∧ o.report.tally.unsupported = (o.report.entries.countP fun e =>
          e.outcome ∉ [.applied, .alreadyPresent, .noTargetMatched])
      ∧ o.report.leftOut.length = o.report.tally.unmatched + o.report.tally.unsupported
      ∧ o.verdict = if 0 < o.report.tally.unsupported then .partiallyApplied else .emitted := by
  obtain ⟨tree, hread, hreport, hverdict⟩ := exists_of_ofSourceWith ho
  have hentries : o.report.entries
      = (((ofConcrete source.toList tree).importIfNeeded settings bundle.needsMotion).2.applyEach
        settings 0 bundle.modifications).1 := by
    rw [hreport]
    rfl
  have htally := o.report.tally_eq
  refine ⟨?_, fun i => ?_, ⟨tree, hread, fun first m later hsplit => ?_⟩, o.report.tally_total,
    congrArg Report.Tally.applied htally, congrArg Report.Tally.alreadyPresent htally,
    congrArg Report.Tally.unmatched htally, (congrArg Report.Tally.unsupported htally).trans ?_,
    o.report.length_leftOut, hverdict.trans o.report.verdict_eq⟩
  · rw [hentries]
    exact SyntaxTree.pairwise_index_applyEach _ settings 0 _
  · rw [hentries]
    exact SyntaxTree.exists_index_applyEach_iff _ settings _ i
  · intro u points
    -- The entries with this index are those made when its turn came.
    have hround : o.report.entriesOf first.length
        = (u.applyOne settings first.length m later).1 := by
      have := SyntaxTree.filter_index_applyEach ((ofConcrete source.toList tree).importIfNeeded
        settings bundle.needsMotion).2 settings 0 first m later
      rw [← hsplit, ← hentries, Nat.zero_add] at this
      exact this
    rw [hround]
    refine ⟨u.pointsBefore_sublist _ m later, fun hnil => ?_, fun hne => ?_⟩
    · exact ⟨_, SyntaxTree.applyOne_fst_of_nil hnil, rfl, rfl⟩
    · exact SyntaxTree.answers_applyOne hne
  · exact List.countP_congr fun e _ => by rw [Report.isUnsupported_eq]

/-- An element gets a wrapper, and there is none that a property could go to. -/
theorem reports_soleElement :
    let wrap : Modification := ⟨"a", .wrapElement, "w"⟩
    let assign : Modification := ⟨"b", .addProp, "x=1"⟩
    let bundle : Bundle := ⟨.empty, [], [], [wrap, assign]⟩
    ∃ o, ofSourceWith readElement "<a/>" bundle {} = .ok o
      ∧ (∃ e, o.report.entriesOf 0 = [e] ∧ e.element = some "a" ∧ e.outcome ≠ .noTargetMatched)
      ∧ (∃ e, o.report.entriesOf 1 = [e] ∧ e.outcome = .noTargetMatched ∧ e.element = none)
      ∧ ∀ i, (∃ e ∈ o.report.entries, e.index = i) ↔ i < 2 := by
  intro wrap assign bundle
  have htree : readElement "<a/>".toList = .ok soleElement := rfl
  obtain ⟨o, ho, -⟩ := ofSourceWith_eq htree bundle {}
  obtain ⟨-, hindex, ⟨tree, htree', hrounds⟩, -⟩ := ofSourceWith_reports ho
  obtain rfl : soleElement = tree := Except.ok.inj (htree.symm.trans htree')
  obtain ⟨-, -, hwrap⟩ := hrounds [] wrap [assign] rfl
  obtain ⟨-, hassign, -⟩ := hrounds [wrap] assign [] rfl
  have hpoint : ((ofConcrete "<a/>".toList soleElement).stageOfRestyle {} bundle.needsMotion []
      [wrap, assign]).pointsBefore ({} : TransformSettings).actualClassAttributes wrap [assign]
        = [.openingTag ⟨2, 2, "a", some ⟨1, 1⟩⟩] := by decide +kernel
  rw [hpoint] at hwrap
  obtain ⟨e, rest, hanswers, hrest, hentries⟩ :=
    List.forall₂_cons_left_iff.mp (hwrap (List.cons_ne_nil _ _))
  -- The first modification has one point, the tag of `a`; the second one has none.
  obtain ⟨tag, htag, -, helement, -⟩ := hanswers.element_eq
  cases htag
  rw [List.forall₂_nil_left_iff.mp hrest] at hentries
  exact ⟨o, ho, ⟨e, hentries, helement, hanswers.outcome_ne⟩, hassign (by decide +kernel), hindex⟩

end Restyled

end Restyle
