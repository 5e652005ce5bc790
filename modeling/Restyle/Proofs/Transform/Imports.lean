import Restyle.Proofs.Transform.Revisit

/-!
How many imports from the library of motions a module has, when pipelines are run on it.

* `Grafted.importsFrom_length`: a new import adds one to those that are read, and changes none of
  them;
* `Amends.importsFrom_eq`, `importsFrom_stage`: modifications leave the imports of a module;
* `Document.length_importsFrom_requireImport`: a module that must have an import has one afterwards,
  or as many as before;
* `ofConcrete_importsFrom`: so no number of pipelines for any bundles leads to a second one.
-/

namespace Restyle.SyntaxTree

variable {t t' : SyntaxTree} {settings : TransformSettings} {library : String}

/-! ### Imports as a list -/

/-- Whether a statement is an import from `library`. -/
def isImportFrom (t : SyntaxTree) (library : String) (id : NodeId) : Bool :=
  t.kind id = .importStatement && t.importSource? id = some library

lemma importsFrom_eq_filter (t : SyntaxTree) (library : String) :
    t.importsFrom library = (t.children root).filter (t.isImportFrom library) := by
  rw [importsFrom, childrenThatAre, List.filter_filter]
  exact List.filter_congr fun id _ => Bool.and_comm _ _

lemma isImportFrom_eq_false {id : NodeId} (hk : t.kind id ≠ .importStatement) :
    t.isImportFrom library id = false := by
  rw [isImportFrom, decide_eq_false hk, Bool.false_and]

/-- An import is there exactly if there is a number of them. -/
lemma importOf?_isSome_iff_length :
    (t.importOf? library).isSome = true ↔ 0 < (t.importsFrom library).length := by
  rw [importOf?, List.isSome_head?, List.length_pos_iff]

/-! ### A new import -/

namespace Grafted

variable {row : List Node} {l r r' : List Slot} {gap : String}

/-- An import that was there stays one from its library. -/
lemma importSource?_old (hg : Grafted t t' row root l r r' gap) (h : t.Document) {id : NodeId}
    (hid : id ∈ t.children root) : t'.importSource? id = t.importSource? id := by
  have hne := h.ne_root_of_mem hid
  have hchildren := hg.children_old (h.lt_of_mem hid) hne
  have hrole : ∀ c ∈ t.children id, t'.role c = t.role c := fun c hc => hg.role_old (h.lt_of_mem hc)
  have hsource : t'.childIn? id .source = t.childIn? id .source := by
    rw [childIn?, childIn?, hchildren]
    exact List.find?_congr fun c hc => by rw [hrole c hc]
  rw [importSource?, importSource?, hsource]
  cases hs : t.childIn? id .source with
  | none => rfl
  | some source =>
      have hmem := (childIn?_spec hs).1
      have hlt := h.lt_of_mem hmem
      have happart : ¬ t.Under source root := fun hunder =>
        Under.not_parent h.toLinked (h.parent_of_mem hid)
          ((Under.of_mem h.toLinked hmem).trans hunder)
      rw [Option.bind_some, Option.bind_some, quotation?, quotation?, hg.kind_old hlt,
        hg.onlyAt.text_eq h.toWellFormed hg.wellFormed hlt happart]

lemma isImportFrom_old (hg : Grafted t t' row root l r r' gap) (h : t.Document) (library : String)
    {id : NodeId} (hid : id ∈ t.children root) :
    t'.isImportFrom library id = t.isImportFrom library id := by
  rw [isImportFrom, isImportFrom, hg.kind_old (h.lt_of_mem hid), hg.importSource?_old h hid]

/-- A new import is one more. -/
theorem importsFrom_length {binding : String}
    (hg : Grafted t t' (importRow t.size binding library) root l r r' gap) (h : t.Document)
    (hs : Seam l r r' gap) :
    (t'.importsFrom library).length = (t.importsFrom library).length + 1 := by
  obtain ⟨hold, hchildren⟩ := hg.children_place h.root_lt hs.map_child
  have hsame : ∀ id ∈ l.map Slot.child ++ r.map Slot.child,
      t'.isImportFrom library id = t.isImportFrom library id := fun id hid =>
    hg.isImportFrom_old h library (hold ▸ hid)
  have hnew : t'.isImportFrom library t.size = true := by
    rw [isImportFrom, hg.importSource?_new.1, hg.importSource?_new.2]
    simp
  rw [importsFrom_eq_filter, importsFrom_eq_filter, hold, hchildren, List.filter_append,
    List.filter_cons_of_pos hnew, List.filter_append,
    List.filter_congr fun id hid => hsame id (List.mem_append_left _ hid),
    List.filter_congr fun id hid => hsame id (List.mem_append_right _ hid),
    List.length_append, List.length_cons, List.length_append, Nat.add_assoc]

end Grafted

/-- A module that must have an import has one afterwards, or as many as before. -/
theorem Document.length_importsFrom_requireImport (h : t.Document) (settings : TransformSettings) :
    ((t.requireImport settings).2.importsFrom settings.actualAnimationLibrary).length
      = max 1 (t.importsFrom settings.actualAnimationLibrary).length := by
  rcases requireImport_cases h settings with ⟨heq, hthere⟩ | ⟨hout, l, r, r', gap, hs, hg⟩
  · rw [heq]
    exact (max_eq_right (importOf?_isSome_iff_length.mp hthere)).symm
  · rw [hg.importsFrom_length h hs]
    have hnone : (t.importsFrom settings.actualAnimationLibrary).length = 0 := by
      by_contra hne
      rw [requireImport_of_isSome
        (importOf?_isSome_iff_length.mpr (Nat.pos_of_ne_zero hne))] at hout
      cases hout
    omega

/-- An import is inserted exactly if the module has none from the library. -/
theorem requireImport_inserted_iff (t : SyntaxTree) (settings : TransformSettings) :
    (t.requireImport settings).1 = .inserted
      ↔ ¬ ∃ id ∈ t.children root, t.kind id = .importStatement
        ∧ t.importSource? id = some settings.actualAnimationLibrary := by
  rw [← importOf?_isSome_iff, requireImport]
  dsimp only
  split
  · next hthere =>
      refine ⟨fun hout => ?_, fun hnot => absurd hthere hnot⟩
      cases hout
  · next hnot => exact ⟨fun _ => hnot, fun _ => rfl⟩

/-! ### Modifications -/

namespace Amends

variable {place : NodeId} {heir : NodeId → NodeId}

/-- The heir of a statement imports from what the statement imported from. -/
lemma isImportFrom_heir (ha : Amends t t' place heir) (h : t.Shaped) (library : String)
    {id : NodeId} (hid : id < t.size) :
    t'.isImportFrom library (heir id) = t.isImportFrom library id := by
  by_cases hk : t.kind id = .importStatement
  · rw [ha.heir_of_not_element (by rw [hk]; rfl), isImportFrom, isImportFrom, ha.kind_eq id hid,
      ha.importSource?_eq h hid hk]
  · rw [isImportFrom_eq_false hk]
    refine isImportFrom_eq_false ?_
    by_cases hheir : heir id = id
    · rwa [hheir, ha.kind_eq id hid]
    · rw [(ha.moved id hheir).kind_new]
      decide

/-- An edit that adds no import leaves the imports. -/
theorem importsFrom_eq (ha : Amends t t' place heir) (h : t.Shaped)
    (hnew : t'.kind t.size ≠ .importStatement) (library : String) :
    t'.importsFrom library = t.importsFrom library := by
  have hsame : ∀ id ∈ t.children root,
      (t'.isImportFrom library ∘ heir) id = t.isImportFrom library id := fun id hid =>
    ha.isImportFrom_heir h library (h.lt_of_mem hid)
  rw [importsFrom_eq_filter, importsFrom_eq_filter]
  cases ha.children root h.root_lt with
  | kept heq =>
      rw [heq, List.filter_map, List.filter_congr hsame]
      -- imports are their own heirs
      refine (List.map_congr_left fun id hid => ?_).trans (List.map_id _)
      rw [List.mem_filter, isImportFrom, Bool.and_eq_true, decide_eq_true_eq] at hid
      exact ha.heir_of_not_element (by rw [hid.2.1]; rfl)
  | cut hstring =>
      rw [h.kind_root] at hstring
      cases hstring
  | joined _ hid _ hl hl' =>
      have hkeep : ∀ id ∈ t.children root,
          t'.isImportFrom library id = t.isImportFrom library id := fun id hmem => by
        rw [← hsame id hmem, Function.comp_apply, hid]
      rw [hl] at hkeep ⊢
      rw [hl', List.filter_append, List.filter_cons_of_neg
        (by rw [isImportFrom_eq_false hnew]; exact Bool.false_ne_true), List.filter_append,
        List.filter_congr fun id hmem => hkeep id (List.mem_append_left _ hmem),
        List.filter_congr fun id hmem => hkeep id (List.mem_append_right _ hmem)]

end Amends

/-- No modification changes the imports. -/
theorem Step.importsFrom_eq {m : Modification} {point : Point} {r : Outcome × SyntaxTree}
    (hs : Step t m point r) (h : t.Shaped) (hp : t.Holds point) (library : String) :
    r.2.importsFrom library = t.importsFrom library := by
  -- One case for each step; what it adds is no import.
  cases hs with
  | leftOut _ => rfl
  | present _ => rfl
  | extended hm hpoint hv hlacking =>
      subst hpoint
      refine (h.amends_overwrite hp.2.2 hv _).importsFrom_eq h ?_ library
      rw [kind_of_size_le (by rw [size_overwrite])]
      decide
  | assigned hm htag hof ha hv hne =>
      refine (h.amends_overwrite (mem_of_findAttribute? ha).2 hv _).importsFrom_eq h ?_ library
      rw [kind_of_size_le (by rw [size_overwrite])]
      decide
  | added hm htag hof ha hend hins hg =>
      refine (hg.amends_attribute h (hp.located htag).isTag hend).importsFrom_eq h ?_ library
      have hattr := congrArg Node.kind hg.node_top
      exact fun hk => nomatch hattr.symm.trans hk
  | wrapped hm htag hw =>
      have ht := hp.located htag
      obtain ⟨-, -, helement, hunder, -⟩ := h.element_spec ht.isTag ht.tagAt
      have hamends := hw.amends h (ht.element_mem h.toLinked h.kind_root) helement
        fun hq => hq.not_under_tag ht.isTag hunder
      refine hamends.importsFrom_eq h ?_ library
      rw [hw.kind_outer]
      decide

/-- Applying a modification adds no import. -/
lemma importsFrom_applyAtAll (h : t.Shaped) (settings : TransformSettings) (m : Modification)
    {points : List Point} (hpoints : ∀ point ∈ points, t.Holds point) (library : String) :
    (t.applyAtAll settings m points).2.importsFrom library = t.importsFrom library := by
  induction points generalizing t with
  | nil => rfl
  | cons point points ih =>
      rw [applyAtAll]
      dsimp only
      have hp := hpoints point List.mem_cons_self
      have hstep := h.toDocument.step_applyAt settings m hp
      have hkeeps := hstep.keeps h hp
      rw [ih hkeeps.shaped fun point' hmem =>
        hkeeps.holds point' (hpoints point' (List.mem_cons_of_mem _ hmem)),
        hstep.importsFrom_eq h hp]

/-- A run leaves the imports, at each of its stages. -/
theorem importsFrom_stage (h : t.Shaped) (settings : TransformSettings)
    (later first : List Modification) (library : String) :
    (t.stage settings later first).importsFrom library = t.importsFrom library := by
  induction first generalizing t with
  | nil => rfl
  | cons m first ih =>
      have hpoints : ∀ point ∈ t.pointsBefore settings.actualClassAttributes m (first ++ later),
          t.Holds point := fun _ => holds_of_mem_pointsBefore
      rw [stage, ih (keeps_applyAtAll h settings m hpoints).shaped,
        importsFrom_applyAtAll h settings m hpoints]

/-! ### Pipelines -/

/-- A pipeline leads to its last stage. -/
lemma restyle_snd (t : SyntaxTree) (settings : TransformSettings) (needsImport : Bool)
    (ms : List Modification) :
    (t.restyle settings needsImport ms).2 = t.stageOfRestyle settings needsImport ms [] := by
  obtain ⟨entries, heq⟩ :=
    (t.importIfNeeded settings needsImport).2.applyEach_append settings 0 ms []
  rw [List.append_nil] at heq
  rw [SyntaxTree.restyle, stageOfRestyle]
  dsimp only
  rw [heq, applyEach]

/-- A pipeline that needs the import leaves as many as there are, but at least one, and any other
leaves as many as there are. -/
theorem Shaped.length_importsFrom_stageOfRestyle (h : t.Shaped) (settings : TransformSettings)
    (needsImport : Bool) (first later : List Modification) :
    ((t.stageOfRestyle settings needsImport first later).importsFrom
        settings.actualAnimationLibrary).length
      = if needsImport then max 1 (t.importsFrom settings.actualAnimationLibrary).length
        else (t.importsFrom settings.actualAnimationLibrary).length := by
  rw [stageOfRestyle, importsFrom_stage (keeps_importIfNeeded h settings needsImport).shaped,
    importIfNeeded]
  cases needsImport with
  | false => rfl
  | true => exact h.toDocument.length_importsFrom_requireImport settings

/-- The module after the pipelines for some bundles, one after the other. -/
def restyleAll (t : SyntaxTree) (settings : TransformSettings) (bundles : List Bundle) :
    SyntaxTree :=
  bundles.foldl (fun t b => (t.restyle settings b.needsMotion b.modifications).2) t

lemma restyleAll_cons (t : SyntaxTree) (settings : TransformSettings) (b : Bundle)
    (bundles : List Bundle) :
    t.restyleAll settings (b :: bundles)
      = (t.restyle settings b.needsMotion b.modifications).2.restyleAll settings bundles := rfl

/-- Pipelines leave as many imports as there are, but at least one if any of them needs it. -/
theorem Shaped.restyleAll (h : t.Shaped) (settings : TransformSettings) (bundles : List Bundle) :
    (t.restyleAll settings bundles).Shaped
      ∧ ((t.restyleAll settings bundles).importsFrom settings.actualAnimationLibrary).length
        = if bundles.any Bundle.needsMotion then
            max 1 (t.importsFrom settings.actualAnimationLibrary).length
          else (t.importsFrom settings.actualAnimationLibrary).length := by
  induction bundles generalizing t with
  | nil => exact ⟨h, rfl⟩
  -- By induction on the runs: the first one that needs the import makes the bound, and no later
  -- one passes it.
  | cons b bundles ih =>
      have hlength := h.length_importsFrom_stageOfRestyle settings b.needsMotion b.modifications []
      rw [← restyle_snd] at hlength
      obtain ⟨hshaped, heq⟩ := ih (h.restyle settings b.needsMotion b.modifications).1
      rw [restyleAll_cons]
      refine ⟨hshaped, heq.trans ?_⟩
      rw [hlength, List.any_cons]
      cases b.needsMotion with
      | false => rfl
      | true =>
          rw [if_pos rfl, Bool.true_or, if_pos rfl]
          split
          · rw [← max_assoc, max_self]
          · rfl

/-- No import is ever there twice: it is inserted exactly if the module has none from the library,
and no sequence of pipelines leads at any stage to more than the module had, or one. -/
theorem ofConcrete_importsFrom (source : List Char) (tree : Syntax.Cst)
    (settings : TransformSettings) :
    let t := ofConcrete source tree
    let library := settings.actualAnimationLibrary
    let before := (t.importsFrom library).length
    ((t.requireImport settings).1 = .inserted
        ↔ ¬ ∃ id ∈ t.children root, t.kind id = .importStatement
          ∧ t.importSource? id = some library)
      ∧ ((t.requireImport settings).2.importsFrom library).length = max 1 before
      ∧ (tree.Grammatical → ∀ bundles : List Bundle,
        ((t.restyleAll settings bundles).importsFrom library).length
            = (if bundles.any Bundle.needsMotion then max 1 before else before)
          ∧ ∀ (bundle : Bundle) (first later : List Modification),
            bundle.modifications = first ++ later →
            (((t.restyleAll settings bundles).stageOfRestyle settings bundle.needsMotion first
              later).importsFrom library).length ≤ max 1 before) := by
  intro t library before
  refine ⟨t.requireImport_inserted_iff settings,
    (document_ofConcrete source tree).length_importsFrom_requireImport settings,
    fun htree bundles => ?_⟩
  obtain ⟨hshaped, hlength⟩ := (shaped_ofConcrete source htree).restyleAll settings bundles
  refine ⟨hlength, fun bundle first later _ => ?_⟩
  -- Before the run the bound holds; within it the import is required once.
  have hle : ((t.restyleAll settings bundles).importsFrom library).length ≤ max 1 before := by
    rw [hlength]
    split
    · exact le_rfl
    · exact le_max_right 1 before
  rw [hshaped.length_importsFrom_stageOfRestyle settings bundle.needsMotion first later]
  split
  · exact max_le (le_max_left 1 before) hle
  · exact hle

/-- A module without imports gets one for its motions, however often the pipeline is run. -/
theorem importsFrom_soleElement :
    let t := ofConcrete "<a/>".toList Restyled.soleElement
    let lift : Animation := ⟨"lift", .motionConfig, .motion [], .hover⟩
    let bundle : Bundle := ⟨.empty, [lift, lift], [], [⟨"a", .wrapElement, "w"⟩]⟩
    Restyled.soleElement.Grammatical ∧ (t.requireImport {}).1 = .inserted
      ∧ ((t.restyleAll {} [bundle, bundle, bundle]).importsFrom "framer-motion").length = 1 := by
  intro t lift bundle
  have htree : Restyled.soleElement.Grammatical := by decide +kernel
  have hnone : (t.importsFrom "framer-motion").length = 0 := by decide +kernel
  obtain ⟨hinserted, -, hruns⟩ := ofConcrete_importsFrom "<a/>".toList Restyled.soleElement {}
  refine ⟨htree, hinserted.mpr fun hthere => ?_, ?_⟩
  · exact absurd hnone (importOf?_isSome_iff_length.mp (importOf?_isSome_iff.mpr hthere)).ne'
  · exact (hruns htree [bundle, bundle, bundle]).1.trans (by decide +kernel)

end Restyle.SyntaxTree
