import Restyle.Proofs.Change.Reached
import Restyle.Transform.Component

/-!
What a report says of the text: nothing was applied exactly where nothing changed.

* `applyAtAll_eq_self`, `applyOne_eq_self`, `applyEach_eq_self`: a module at which nothing was
  applied is as it was;
* `restyle_eq_self`: so is one that a pipeline ran on, unless it inserted the import;
* `Reached.tells_untouched`: every answer on a module tells whether its text changes, and a
  component of which nothing is reported comes out as it went in.
-/

namespace Restyle.SyntaxTree

variable {t : SyntaxTree} {settings : TransformSettings} {m : Modification} {points : List Point}

/-! ### Runs that apply nothing -/

/-- A modification that was applied at none of its points left the tree as it was. -/
lemma applyAtAll_eq_self (h : t.Document) (hpoints : ∀ point ∈ points, t.Holds point)
    (hnone : ∀ o ∈ (t.applyAtAll settings m points).1, o ≠ .applied) :
    (t.applyAtAll settings m points).2 = t := by
  induction points with
  | nil => rfl
  | cons point points ih =>
      rw [applyAtAll] at hnone ⊢
      dsimp only at hnone ⊢
      have htells := h.tells_applyAt settings m (hpoints point List.mem_cons_self)
      have hsame := htells.2 (hnone _ List.mem_cons_self)
      rw [hsame] at hnone ⊢
      exact ih (fun point' hmem => hpoints point' (List.mem_cons_of_mem _ hmem))
        fun o ho => hnone o (List.mem_cons_of_mem _ ho)

/-- The entries tell the outcomes. -/
lemma map_outcome_zipWith (index : Nat) (m : Modification) {points : List Point}
    {outcomes : List Outcome} (hlength : outcomes.length = points.length) :
    (points.zipWith (Report.Entry.matched index m) outcomes).map Report.Entry.outcome
      = outcomes := by
  induction points generalizing outcomes with
  | nil =>
      rw [List.length_eq_zero_iff.mp hlength]
      rfl
  | cons point points ih =>
      obtain ⟨o, outcomes, rfl⟩ := List.exists_cons_of_length_eq_add_one hlength
      rw [List.zipWith_cons_cons, List.map_cons, ih (Nat.succ_inj.mp hlength)]
      rfl

/-- A modification that is applied nowhere leaves the tree as it is. -/
lemma applyOne_eq_self (h : t.Document) {index : Nat} {pending : List Modification}
    (hnone : ∀ e ∈ (t.applyOne settings index m pending).1, e.outcome ≠ .applied) :
    (t.applyOne settings index m pending).2 = t := by
  rw [applyOne] at hnone ⊢
  split at hnone
  · rfl
  · dsimp only at hnone ⊢
    refine applyAtAll_eq_self h (fun point => holds_of_mem_pointsBefore) fun o ho => ?_
    rw [← map_outcome_zipWith index m (length_applyAtAll t settings m _)] at ho
    obtain ⟨e, he, rfl⟩ := List.mem_map.mp ho
    exact hnone e he

/-- Modifications that are applied nowhere leave the tree as it is. -/
lemma applyEach_eq_self (h : t.Document) {index : Nat} {ms : List Modification}
    (hnone : ∀ e ∈ (t.applyEach settings index ms).1, e.outcome ≠ .applied) :
    (t.applyEach settings index ms).2 = t := by
  induction ms generalizing index with
  | nil => rfl
  | cons m pending ih =>
      rw [applyEach] at hnone ⊢
      dsimp only at hnone ⊢
      have hsame := applyOne_eq_self h fun e he => hnone e (List.mem_append_left _ he)
      rw [hsame] at hnone ⊢
      exact ih fun e he => hnone e (List.mem_append_right _ he)

/-- A pipeline that reports no change left the tree as it was. -/
theorem restyle_eq_self (h : t.Document) {needsImport : Bool} {ms : List Modification}
    (hnone : ∀ e ∈ (t.restyle settings needsImport ms).1.entries, e.outcome ≠ .applied)
    (himport : (t.restyle settings needsImport ms).1.importOutcome ≠ some .inserted) :
    (t.restyle settings needsImport ms).2 = t := by
  have hsame : (t.importIfNeeded settings needsImport).2 = t := by
    rw [restyle] at himport
    dsimp only at himport
    rw [importIfNeeded] at himport ⊢
    split
    · next hneeded =>
        rw [if_pos hneeded] at himport
        rcases requireImport_cases h settings with ⟨heq, -⟩ | ⟨hins, -⟩
        · rw [heq]
        · exact absurd (congrArg some hins) himport
    · rfl
  rw [restyle] at hnone ⊢
  dsimp only at hnone ⊢
  rw [hsame] at hnone ⊢
  exact applyEach_eq_self h hnone

/-! ### Answers that tell -/

/-- A component that is transformed was read as some tree, on which the pipeline ran. -/
lemma exists_of_ofSource {text : String} {bundle : Bundle} {o : Restyled}
    (ho : Restyled.ofSource text bundle settings = .ok o) :
    ∃ tree run, (ofConcrete text.toList tree).restyle settings bundle.needsMotion
        bundle.modifications = run ∧ o.text = run.2.render ∧ o.report = run.1 := by
  rw [Restyled.ofSource, SyntaxTree.ofSource] at ho
  cases hread : Syntax.readModule text.toList with
  | error e =>
      rw [hread] at ho
      cases ho
  | ok tree =>
      rw [hread] at ho
      cases ho
      exact ⟨tree, _, rfl, rfl, rfl⟩

/-- Whatever is applied at a point of a module that was reached, the answer tells whether the text
changes, and unless it was applied the tree is as before. So it is at points that were found before
the modification was applied at others. A component of which the report says that nothing was
applied and no import was inserted comes out as it went in. -/
theorem Reached.tells_untouched {source : List Char} {tree : Syntax.Cst} (h : Reached source tree t)
    (settings : TransformSettings) (m : Modification) :
    (∀ point, t.Holds point → t.Tells (t.applyAt settings m point))
      ∧ (tree.Grammatical → ∀ earlier : List Point, (∀ point ∈ earlier, t.Holds point) →
        ∀ point, t.Holds point → let u := (t.applyAtAll settings m earlier).2
          u.Tells (u.applyAt settings m point))
      ∧ ∀ text bundle o, Restyled.ofSource text bundle settings = .ok o →
        (∀ e ∈ o.report.entries, e.outcome ≠ .applied) →
        o.report.importOutcome ≠ some .inserted → o.text = text := by
  refine ⟨fun point hp => h.document.tells_applyAt settings m hp,
    fun htree earlier hearlier point hp => ?_, fun text bundle o ho hnone himport => ?_⟩
  · have hkeeps := keeps_applyAtAll (h.shaped htree) settings m hearlier
    exact hkeeps.shaped.toDocument.tells_applyAt settings m (hkeeps.holds point hp)
  · obtain ⟨tree, run, rfl, htext, hreport⟩ := exists_of_ofSource ho
    rw [hreport] at hnone himport
    rw [htext, restyle_eq_self (document_ofConcrete _ tree) hnone himport, render_ofConcrete,
      String.ofList_toList]

/-- The only tag of a module, before and after it got a wrapper. -/
theorem tells_soleTag :
    let t := ofConcrete "<a x='b'/>".toList soleTag
    let m : Modification := ⟨"a", .wrapElement, "w"⟩
    let point : Point := .openingTag ⟨1, 1, "a", some ⟨1, 1⟩⟩
    soleTag.Grammatical ∧ t.Holds point ∧ (t.applyAt {} m point).1 = .applied
      ∧ t.Tells (t.applyAt {} m point)
      ∧ ((t.applyAtAll {} m [point]).2.applyAt {} m point).1 = .alreadyPresent
      ∧ (t.applyAtAll {} m [point]).2.Tells ((t.applyAtAll {} m [point]).2.applyAt {} m point) := by
  intro t m point
  have htree : soleTag.Grammatical := by decide +kernel
  have hp : t.Holds point :=
    holds_of_mem_points (by decide +kernel : point ∈ t.points ["className"] m)
  have htells := Reached.tells_untouched (.read : Reached _ soleTag t) {} m
  exact ⟨htree, hp, by decide +kernel, htells.1 point hp, by decide +kernel,
    htells.2.1 htree [point] (fun _ hmem => List.mem_singleton.mp hmem ▸ hp) point hp⟩

end Restyle.SyntaxTree
