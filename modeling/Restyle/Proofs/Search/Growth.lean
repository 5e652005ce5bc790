import Restyle.Proofs.Search.Amend
import Restyle.Search.Import

/-!
Modules that only grow: what searches find in one is found after any number of changes.

* `Grows`: tags, names and chains of sole elements stay, though chains may get longer;
* `Amends.grows`: every edit lets a module grow;
* `Grows.isInside`, `Grows.isMadeBy`: so what is inside a wrapper stays inside it, and what was made
  by a modification stays so;
* `Grows.located`, `Grows.located_of_lt`: the tags of a module are those after it that are not new.
-/

namespace Restyle.SyntaxTree

variable {t t' t'' : SyntaxTree}

/-- What searches find in one tree is found in another one. -/
structure Grows (t t' : SyntaxTree) : Prop where
  size_le : t.size ≤ t'.size
  kind_eq : ∀ x < t.size, t'.kind x = t.kind x
  tagAt?_eq : ∀ g < t.size, (t.kind g).isTag = true → t'.tagAt? g = t.tagAt? g
  nameOfElement?_eq : ∀ e < t.size, t'.nameOfElement? e = t.nameOfElement? e
  attributesEnd?_isSome : ∀ g < t.size, (t.kind g).isTag = true →
    (t'.attributesEnd? g).isSome = (t.attributesEnd? g).isSome
  chain : ∀ {p c : NodeId}, t.Chain p c → t'.Chain p c
  mem : ∀ g ∈ t.descendants root, (t.kind g).isTag = true → g ∈ t'.descendants root
  old_of_mem : ∀ g < t.size, (t.kind g).isTag = true → g ∈ t'.descendants root →
    g ∈ t.descendants root
  importOf? : ∀ library, (t.importOf? library).isSome = true →
    (t'.importOf? library).isSome = true

namespace Grows

/-- A tree grows by nothing. -/
theorem refl (t : SyntaxTree) : Grows t t :=
  ⟨le_rfl, fun _ _ => rfl, fun _ _ _ => rfl, fun _ _ => rfl, fun _ _ _ => rfl, fun h => h,
    fun _ h _ => h, fun _ _ _ h => h, fun _ h => h⟩

/-- Growing twice is growing. -/
theorem trans (h : Grows t t') (h' : Grows t' t'') : Grows t t'' where
  size_le := h.size_le.trans h'.size_le
  kind_eq := fun x hx => (h'.kind_eq x (hx.trans_le h.size_le)).trans (h.kind_eq x hx)
  tagAt?_eq := fun g hg hk =>
    (h'.tagAt?_eq g (hg.trans_le h.size_le) (h.kind_eq g hg ▸ hk)).trans (h.tagAt?_eq g hg hk)
  nameOfElement?_eq := fun e he =>
    (h'.nameOfElement?_eq e (he.trans_le h.size_le)).trans (h.nameOfElement?_eq e he)
  attributesEnd?_isSome := fun g hg hk =>
    (h'.attributesEnd?_isSome g (hg.trans_le h.size_le) (h.kind_eq g hg ▸ hk)).trans
      (h.attributesEnd?_isSome g hg hk)
  chain := fun hc => h'.chain (h.chain hc)
  mem := fun g hg hk => h'.mem g (h.mem g hg hk) (h.kind_eq g (lt_size_of_isTag hk) ▸ hk)
  old_of_mem := fun g hg hk hmem =>
    h.old_of_mem g hg hk (h'.old_of_mem g (hg.trans_le h.size_le) (h.kind_eq g hg ▸ hk) hmem)
  importOf? := fun library hi => h'.importOf? library (h.importOf? library hi)

/-- What is inside a wrapper stays inside it. -/
theorem isInside (h : Grows t t') (hl : t.Linked) (hl' : t'.Linked) {id : NodeId}
    {wrapper : String} (hi : t.isInside id wrapper = true) : t'.isInside id wrapper = true := by
  obtain ⟨p, hchain, hname⟩ := (hl.isInside_iff id wrapper).mp hi
  have hp : p < t.size := by
    obtain ⟨c, hc, -⟩ := Relation.TransGen.head'_iff.mp hchain
    exact lt_size_of_mem (onlyElement?_mem hc)
  exact (hl'.isInside_iff id wrapper).mpr ⟨p, h.chain hchain,
    (h.nameOfElement?_eq p hp).trans hname⟩

/-- What was made by a modification stays so. -/
theorem isMadeBy (h : Grows t t') (hl : t.Linked) (hl' : t'.Linked) {id : NodeId}
    (hid : id < t.size) {m : Modification} (hm : t.isMadeBy id m = true) :
    t'.isMadeBy id m = true := by
  rw [SyntaxTree.isMadeBy, Bool.and_eq_true] at hm ⊢
  obtain ⟨hneedle, hname, c, hchain, hc⟩ := (hl.wraps_iff hid _ _).mp hm.2
  have hlt : c < t.size := by
    obtain ⟨p, -, hp⟩ := Relation.TransGen.tail'_iff.mp hchain
    exact hl.lt_of_mem (onlyElement?_mem hp)
  refine ⟨hm.1, (hl'.wraps_iff (hid.trans_le h.size_le) _ _).mpr
    ⟨hneedle, ?_, c, h.chain hchain, ?_⟩⟩
  · rw [h.nameOfElement?_eq id hid, hname]
  · rw [h.nameOfElement?_eq c hlt]
    exact hc

/-- A wrapper made by one of some modifications is still made by one of them. -/
lemma any_isMadeBy (h : Grows t t') (hl : t.Linked) (hl' : t'.Linked) {id : NodeId}
    (hid : id < t.size) {ms : List Modification} (hm : ms.any (t.isMadeBy id) = true) :
    ms.any (t'.isMadeBy id) = true := by
  rw [List.any_eq_true] at hm ⊢
  obtain ⟨m, hmem, hm⟩ := hm
  exact ⟨m, hmem, h.isMadeBy hl hl' hid hm⟩

/-- The tags of a module stay. -/
theorem located (h : Grows t t') (hl : t.Linked) {tag : Tag} (ht : t.Located tag) :
    t'.Located tag := by
  have hlt := lt_size_of_mem_descendants hl hl.root_lt ht.mem
  exact ⟨h.mem tag.node ht.mem ht.isTag, h.kind_eq tag.node hlt ▸ ht.isTag,
    (h.tagAt?_eq tag.node hlt ht.isTag).trans ht.tagAt⟩

/-- A tag that is not new was there before. -/
theorem located_of_lt (h : Grows t t') {tag : Tag} (ht : t'.Located tag)
    (hlt : tag.node < t.size) : t.Located tag := by
  have hk := h.kind_eq tag.node hlt ▸ ht.isTag
  exact ⟨h.old_of_mem tag.node hlt hk ht.mem, hk,
    (h.tagAt?_eq tag.node hlt hk).symm.trans ht.tagAt⟩

end Grows

/-! ### Edits -/

/-- An import is found just when a statement of the module has that source. -/
lemma importOf?_isSome_iff {library : String} :
    (t.importOf? library).isSome = true
      ↔ ∃ id ∈ t.children root, t.kind id = .importStatement
        ∧ t.importSource? id = some library := by
  have hmem : ∀ id, id ∈ t.importsFrom library ↔ id ∈ t.children root
      ∧ t.kind id = .importStatement ∧ t.importSource? id = some library := fun id => by
    simp only [importsFrom, childrenThatAre, List.mem_filter, decide_eq_true_eq, and_assoc]
  rw [importOf?, List.isSome_head?]
  constructor
  · intro hne
    obtain ⟨id, hid⟩ := List.exists_mem_of_ne_nil _ hne
    exact ⟨id, (hmem id).mp hid⟩
  · rintro ⟨id, hid⟩
    exact List.ne_nil_of_mem ((hmem id).mpr hid)

namespace Amends

variable {place : NodeId} {heir : NodeId → NodeId}

/-- The source of an import stays as it is. -/
lemma importSource?_eq (ha : Amends t t' place heir) (h : t.Shaped) {id : NodeId}
    (hid : id < t.size) (hk : t.kind id = .importStatement) :
    t'.importSource? id = t.importSource? id := by
  rw [importSource?, importSource?, ha.childIn?_eq h hid (by rw [hk]; decide) (by decide)]
  cases hsource : t.childIn? id .source with
  | none => rfl
  | some source =>
      obtain ⟨hmem, -⟩ := childIn?_spec hsource
      have hparent := h.parent_of_mem hmem
      have hlt := h.lt_of_mem hmem
      rw [Option.map_some, Option.bind_some, Option.bind_some]
      congr 1
      -- A string at the source is steady and keeps its text; anything else is no string afterwards
      -- either.
      by_cases hstring : t.kind source = .stringLiteral
      · have hquiet := (h.regular source).quiet_string hstring
        have hsteady : t.Steady source := ⟨hquiet, h.ne_root_of_parent hparent, fun a ha hattr => by
          rw [hparent, Option.some.injEq] at ha
          rw [← ha, hk] at hattr
          cases hattr⟩
        rw [ha.heir_of_quiet hquiet, quotation?, quotation?, ha.kind_eq source hlt,
          ha.text_eq h hlt hsteady]
      · have hstring' : t'.kind (heir source) ≠ .stringLiteral := by
          by_cases hheir : heir source = source
          · rwa [hheir, ha.kind_eq source hlt]
          · rw [(ha.moved source hheir).kind_new]
            decide
        rw [quotation?, quotation?, if_neg hstring, if_neg hstring']

/-- An import that is there stays there. -/
lemma importOf?_isSome (ha : Amends t t' place heir) (h : t.Shaped) {library : String}
    (hi : (t.importOf? library).isSome = true) : (t'.importOf? library).isSome = true := by
  rw [importOf?_isSome_iff] at hi ⊢
  obtain ⟨id, hmem, hk, hs⟩ := hi
  have hlt := h.lt_of_mem hmem
  have hheir := ha.heir_mem hmem (by rw [h.kind_root]; decide)
  rw [ha.heir_of_not_element (by rw [hk]; rfl)] at hheir
  exact ⟨id, hheir, (ha.kind_eq id hlt).trans hk, (ha.importSource?_eq h hlt hk).trans hs⟩

/-- Every edit lets a module grow. -/
theorem grows (ha : Amends t t' place heir) (h : t.Shaped) : Grows t t' where
  size_le := ha.size_le
  kind_eq := ha.kind_eq
  tagAt?_eq := fun _ hg hk => ha.tagAt?_eq h hg hk
  nameOfElement?_eq := fun _ he => ha.nameOfElement?_eq h he
  attributesEnd?_isSome := fun _ hg hk => ha.attributesEnd?_isSome h hg hk
  chain := fun hc => ha.chain h hc
  mem := fun _ hg hk => ha.mem_descendants h hg fun hq => hq.not_under_tag hk .refl
  old_of_mem := fun _ hg _ hmem => ha.old_of_mem h hmem hg
  importOf? := fun _ hi => ha.importOf?_isSome h hi

/-- After an edit that adds no node, nothing is found that was not found before. -/
theorem grows_back (ha : Amends t t' place id) (h : t.Shaped) (hsize : t'.size = t.size) :
    Grows t' t where
  size_le := Nat.le_of_eq hsize
  kind_eq := fun x hx => (ha.kind_eq x (hsize ▸ hx)).symm
  tagAt?_eq := fun g hg hk =>
    (ha.tagAt?_eq h (hsize ▸ hg) (ha.kind_eq g (hsize ▸ hg) ▸ hk)).symm
  nameOfElement?_eq := fun e he => (ha.nameOfElement?_eq h (hsize ▸ he)).symm
  attributesEnd?_isSome := fun g hg hk =>
    (ha.attributesEnd?_isSome h (hsize ▸ hg) (ha.kind_eq g (hsize ▸ hg) ▸ hk)).symm
  chain := fun hc => by
    refine Relation.TransGen.mono (fun p c hpc => ?_) _ _ hc
    have hp := lt_size_of_mem (onlyElement?_mem hpc)
    rwa [ha.onlyElement?_eq h (hsize ▸ hp), Option.map_id] at hpc
  mem := fun g hg hk => by
    have hlt := lt_size_of_mem_descendants ha.document.toLinked ha.document.root_lt hg
    exact ha.old_of_mem h hg (hsize ▸ hlt)
  old_of_mem := fun g hg hk hmem =>
    ha.mem_descendants h hmem fun hq => hq.not_under_tag (ha.kind_eq g (hsize ▸ hg) ▸ hk) .refl
  importOf? := fun library hi => by
    rw [importOf?_isSome_iff] at hi ⊢
    obtain ⟨c, hmem, hk, hs⟩ := hi
    -- a statement that joined the module would be a new node
    have hc : c ∈ t.children root := by
      cases ha.children root h.root_lt with
      | kept heq => rwa [heq, List.map_id] at hmem
      | cut hstring =>
          rw [h.kind_root] at hstring
          cases hstring
      | joined _ _ _ _ hl' =>
          have hnew : t.size ∈ t'.children root := by
            rw [hl']
            exact List.mem_append_right _ List.mem_cons_self
          exact absurd (ha.document.lt_of_mem hnew) (by rw [hsize]; exact Nat.lt_irrefl _)
    have hlt := h.lt_of_mem hc
    rw [ha.kind_eq c hlt] at hk
    exact ⟨c, hc, hk, (ha.importSource?_eq h hlt hk).symm.trans hs⟩

end Amends

end Restyle.SyntaxTree
