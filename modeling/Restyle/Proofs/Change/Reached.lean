import Restyle.Proofs.Change.Step
import Restyle.Proofs.Search.Grammar

/-!
The trees that a module goes through, when each modification is applied where it was found.

* `Keeps`: a module stays in shape and grows, and its points stay points of it;
* `Step.keeps`, `keeps_applyAtAll`: applying a modification at points that were found together, one
  after the other, keeps the module;
* `Reached`: the trees that a tree that was read goes through;
* `Reached.document`, `Reached.shaped`: all of them are documents, and in shape if what was read
  obeys the grammar.
-/

namespace Restyle.SyntaxTree

variable {t t' t'' : SyntaxTree} {settings : TransformSettings} {m : Modification}
  {point : Point} {points : List Point} {r : Outcome × SyntaxTree}

/-! ### What changes keep -/

/-- A module that another one came from: it is in shape, and what was found in the other is
there. -/
structure Keeps (t t' : SyntaxTree) : Prop where
  shaped : t'.Shaped
  grows : Grows t t'
  holds : ∀ point, t.Holds point → t'.Holds point

/-- A tree keeps its own tags. -/
theorem Keeps.refl (h : t.Shaped) : Keeps t t :=
  ⟨h, .refl t, fun _ => id⟩

/-- Keeping goes through a tree between. -/
theorem Keeps.trans (h : Keeps t t') (h' : Keeps t' t'') : Keeps t t'' :=
  ⟨h'.shaped, h.grows.trans h'.grows, fun point hp => h'.holds point (h.holds point hp)⟩

/-- The points of a module stay points of it. -/
lemma Amends.holds {place : NodeId} {heir : NodeId → NodeId} (ha : Amends t t' place heir)
    (h : t.Shaped) (hp : t.Holds point) : t'.Holds point := by
  cases point with
  | moduleTop => trivial
  | openingTag tag => exact (ha.grows h).located h.toLinked hp
  | classAttribute tag a =>
      obtain ⟨ht, hmem, hattr⟩ := hp
      have hstays : heir a = a := ha.heir_of_not_element (by rw [hattr]; rfl)
      have hstring : t.kind tag.node ≠ .stringLiteral := fun heq => by
        have htag := ht.isTag
        rw [heq] at htag
        cases htag
      refine ⟨(ha.grows h).located h.toLinked ht, hstays ▸ ha.heir_mem hmem hstring, ?_⟩
      rw [ha.kind_eq a (h.lt_of_mem hmem), hattr]

lemma Amends.keeps {place : NodeId} {heir : NodeId → NodeId} (ha : Amends t t' place heir)
    (h : t.Shaped) (h' : t'.Shaped) : Keeps t t' :=
  ⟨h', ha.grows h, fun _ => ha.holds h⟩

/-- What a modification does at a point keeps the module. -/
theorem Step.keeps (hs : Step t m point r) (h : t.Shaped) (hp : t.Holds point) : Keeps t r.2 := by
  have hl := h.toLinked
  cases hs with
  | leftOut _ => exact .refl h
  | present _ => exact .refl h
  | extended hm hpoint hv hlacking =>
      subst hpoint
      exact (h.amends_overwrite hp.2.2 hv _).keeps h (h.overwrite hp.2.2 hv _)
  | assigned hm htag hof ha hv hne =>
      have hattr := (mem_of_findAttribute? ha).2
      exact (h.amends_overwrite hattr hv _).keeps h (h.overwrite hattr hv _)
  | added hm htag hof ha hend hins hg =>
      have hisTag := (hp.located htag).isTag
      exact (hg.amends_attribute h hisTag hend).keeps h (.grafted_attribute hg h hisTag hend)
  | wrapped hm htag hw =>
      have ht := hp.located htag
      obtain ⟨-, -, helement, hunder, -⟩ := h.element_spec ht.isTag ht.tagAt
      have hmem := ht.element_mem hl h.kind_root
      have hquiet := fun hq : t.Quiet _ => hq.not_under_tag ht.isTag hunder
      exact (hw.amends h hmem helement hquiet).keeps h (.wrapped hw h hmem helement hquiet)

/-- There is an answer for each point. -/
lemma length_applyAtAll (t : SyntaxTree) (settings : TransformSettings) (m : Modification)
    (points : List Point) : (t.applyAtAll settings m points).1.length = points.length := by
  induction points generalizing t with
  | nil => rfl
  | cons point points ih =>
      rw [applyAtAll]
      dsimp only
      rw [List.length_cons, List.length_cons, ih]

/-- Applying a modification at points that were found together keeps the module. -/
theorem keeps_applyAtAll (h : t.Shaped) (settings : TransformSettings) (m : Modification)
    (hpoints : ∀ point ∈ points, t.Holds point) :
    Keeps t (t.applyAtAll settings m points).2 := by
  induction points generalizing t with
  | nil => exact .refl h
  | cons point points ih =>
      rw [applyAtAll]
      dsimp only
      have hp := hpoints point List.mem_cons_self
      have hfirst := (h.toDocument.step_applyAt settings m hp).keeps h hp
      exact hfirst.trans (ih hfirst.shaped fun point' hmem =>
        hfirst.holds point' (hpoints point' (List.mem_cons_of_mem _ hmem)))

/-- Requiring the import keeps the tags. -/
lemma keeps_requireImport (h : t.Shaped) (settings : TransformSettings) :
    Keeps t (t.requireImport settings).2 := by
  rcases requireImport_cases h.toDocument settings with ⟨heq, -⟩ | ⟨-, l, r, r', gap, hs, hg⟩
  · rw [heq]
    exact .refl h
  · exact (hg.amends_import h hs).keeps h (.grafted_import hg h hs)

/-! ### Trees that are reached -/

/-- The trees that imports and modifications lead to from a tree that was read, where a modification
is applied, one after the other, at points that were all found before. -/
inductive Reached (source : List Char) (tree : Syntax.Cst) : SyntaxTree → Prop where
  | read : Reached source tree (ofConcrete source tree)
  | requireImport {t : SyntaxTree} (settings : TransformSettings) : Reached source tree t →
      Reached source tree (t.requireImport settings).2
  | applyAtAll {t : SyntaxTree} (settings : TransformSettings) (m : Modification)
      {points : List Point} : Reached source tree t → (∀ point ∈ points, t.Holds point) →
      Reached source tree (t.applyAtAll settings m points).2

namespace Reached

variable {source : List Char} {tree : Syntax.Cst}

lemma document_applyAtAll (h : t.Document) (settings : TransformSettings) (m : Modification)
    (points : List Point) : (t.applyAtAll settings m points).2.Document := by
  induction points generalizing t with
  | nil => exact h
  | cons point points ih => exact ih (h.applyAt settings m point)

/-- Every tree reached is a document. -/
theorem document (h : Reached source tree t) : t.Document := by
  induction h with
  | read => exact document_ofConcrete source tree
  | requireImport settings _ ih => exact ih.requireImport settings
  | applyAtAll settings m _ _ ih => exact document_applyAtAll ih settings m _

/-- A tree that is reached from one that obeys the grammar is in shape. -/
theorem shaped (h : Reached source tree t) (htree : tree.Grammatical) : t.Shaped := by
  induction h with
  | read => exact shaped_ofConcrete source htree
  | requireImport settings _ ih => exact (keeps_requireImport ih settings).shaped
  | applyAtAll settings m _ hpoints ih => exact (keeps_applyAtAll ih settings m hpoints).shaped

end Reached

end Restyle.SyntaxTree
