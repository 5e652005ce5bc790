import Restyle.Proofs.Change.Retouch
import Restyle.Proofs.Transform.Run

/-!
Modules that modifications find as they want them to be.

* `Settled`: what each tag sees finds its property, its classes and its wrapper;
* `retouched_applyEach`: a run on such a module only retouches it;
* `Run.settled`, `Run.firm`: a run leaves a settled module, and one in which the strings are as
  another run would leave them, if no string in it was sticky before;
* `Shaped.restyle`, `Settled.restyle`, `Settled.render_restyle_iff`: the same of a pipeline.
-/

namespace Restyle.SyntaxTree

variable {t t' : SyntaxTree} {settings : TransformSettings} {m : Modification}

/-! ### What tags see in a module that was retouched -/

namespace Retouched

variable {tag : Tag}

lemma isMadeBy_eq (hr : Retouched t t') (hl : t.Linked) (hl' : t'.Linked) {e : NodeId}
    (he : e < t.size) (m : Modification) : t'.isMadeBy e m = t.isMadeBy e m := by
  rw [Bool.eq_iff_iff]
  exact ⟨hr.back.isMadeBy hl' hl (hr.size_eq ▸ he), hr.grows.isMadeBy hl hl' he⟩

/-- A retouched tag is seen by the same modification. -/
lemma sees_eq (hr : Retouched t t') (h : t.Document) (h' : t'.Document) (ht : t.Located tag)
    (m : Modification) (pending : List Modification) :
    t'.sees tag m pending = t.sees tag m pending := by
  have hmade : t'.isMadeBy tag.element = t.isMadeBy tag.element :=
    funext fun m => hr.isMadeBy_eq h.toLinked h'.toLinked (ht.element_lt h) m
  rw [sees, sees, hmade]

lemma seen_eq (hr : Retouched t t') (h : t.Document) (h' : t'.Document) (ht : t.Located tag)
    (ms : List Modification) : t'.seen tag ms = t.seen tag ms := by
  induction ms with
  | nil => rfl
  | cons m pending ih => rw [seen_cons, seen_cons, ih, hr.sees_eq h h' ht]

lemma wears (hr : Retouched t t') (hl : t.Linked) (hl' : t'.Linked) (hw : t.Wears m tag) :
    t'.Wears m tag := fun haction hdotted =>
  (hw haction hdotted).imp_right (hr.grows.isInside hl hl')

/-- A retouched tag finds the properties it found, as long as the names are the same. -/
lemma finds (hr : Retouched t t') (hl : t.Linked) (ht : t.Located tag)
    (hnames : (t'.properties tag.node).map Property.name
      = (t.properties tag.node).map Property.name) (hf : t.Finds settings m tag) :
    t'.Finds settings m tag := fun a ha hadds => by
  rw [hnames]
  rw [hr.grows.adds_eq hl ht] at hadds
  exact hf a ha hadds

end Retouched

/-! ### Runs that only retouch -/

/-- A modification that finds what it wants at some tags only retouches the module. -/
lemma retouched_applyAtAll (h : t.Shaped) (settings : TransformSettings) (m : Modification)
    {tags : List Tag} (hnodup : (tags.map Tag.node).Nodup)
    (htags : ∀ tag ∈ tags, t.Located tag ∧ needle m.target ≠ ""
      ∧ nameContains tag.name (needle m.target) = true)
    (hfinds : ∀ tag ∈ tags, t.Finds settings m tag) (hwears : ∀ tag ∈ tags, t.Wears m tag) :
    Retouched t (t.applyAtAll settings m
      (tags.map (t.pointAt settings.actualClassAttributes m.action))).2 := by
  -- By induction on the tags: the first one is retouched, which spares all the others.
  induction tags generalizing t with
  | nil => exact .refl t
  | cons tag tags ih =>
      obtain ⟨ht, hneedle, hname⟩ := htags tag List.mem_cons_self
      rw [List.map_cons, List.nodup_cons] at hnodup
      rw [List.map_cons, applyAtAll]
      have happ := application_applyAt h settings m ht
      have hstep := happ.advances h ht hneedle hname
      have hr := happ.retouched h ht (hfinds tag List.mem_cons_self)
        (hwears tag List.mem_cons_self)
      set u := (t.applyAt settings m (t.pointAt settings.actualClassAttributes m.action tag)).2
      have hl := h.toLinked
      have hlu := hstep.shaped.toLinked
      obtain ⟨hspared, hpoints⟩ := hstep.others hl
        (fun tag' hmem => (htags tag' (List.mem_cons_of_mem _ hmem)).1) hnodup.1
      have hrest := ih hstep.shaped hnodup.2 (fun tag' hmem => by
          obtain ⟨ht', hnames⟩ := htags tag' (List.mem_cons_of_mem _ hmem)
          exact ⟨hstep.grows.located hl ht', hnames⟩)
        (fun tag' hmem => by
          have ht' := (htags tag' (List.mem_cons_of_mem _ hmem)).1
          exact hr.finds hl ht' (by rw [(hspared tag' hmem).properties_eq])
            (hfinds tag' (List.mem_cons_of_mem _ hmem)))
        fun tag' hmem => hr.wears hl hlu (hwears tag' (List.mem_cons_of_mem _ hmem))
      rw [hpoints] at hrest
      exact hr.trans hrest hl hlu

/-- A modification that finds what it wants at all tags that see it only retouches the module, and
those that are pending then find what they found before. -/
lemma retouched_applyOne (h : t.Shaped) (settings : TransformSettings) (index : Nat)
    (m : Modification) (pending : List Modification)
    (hfinds : ∀ tag, t.Located tag → ∀ m' ∈ t.seen tag (m :: pending), t.Finds settings m' tag)
    (hwears : ∀ tag, t.Located tag → ∀ m' ∈ t.seen tag (m :: pending), t.Wears m' tag) :
    let u := (t.applyOne settings index m pending).2
    Retouched t u
      ∧ (∀ tag, u.Located tag → ∀ m' ∈ u.seen tag pending, u.Finds settings m' tag)
      ∧ ∀ tag, u.Located tag → ∀ m' ∈ u.seen tag pending, u.Wears m' tag := by
  intro u
  have hround : Rounds t u settings m (t.tagsSeeing m pending) :=
    rounds_applyOne h settings index m pending
  have hl := h.toLinked
  have hlu := hround.shaped.toLinked
  have hseen : ∀ tag ∈ t.tagsSeeing m pending, t.Located tag
      ∧ m ∈ t.seen tag (m :: pending) := fun tag hmem => by
    obtain ⟨ht, hsees⟩ := mem_tagsSeeing.mp hmem
    rw [seen_cons, if_pos hsees]
    exact ⟨ht, List.mem_cons_self⟩
  have hr : Retouched t u := by
    rw [show u = _ from applyOne_snd t settings index m pending]
    refine retouched_applyAtAll h settings m (nodup_tagsSeeing hl m pending)
      (fun tag hmem => ?_) (fun tag hmem => ?_) fun tag hmem => ?_
    · obtain ⟨ht, hsees⟩ := mem_tagsSeeing.mp hmem
      exact ⟨ht, (sees_iff.mp hsees).1⟩
    · obtain ⟨ht, hmem⟩ := hseen tag hmem
      exact hfinds tag ht m hmem
    · obtain ⟨ht, hmem⟩ := hseen tag hmem
      exact hwears tag ht m hmem
  -- what is pending sees no more tags than it did, and these have the attributes that they had
  have hlater : ∀ tag, t.Located tag → ∀ m' ∈ u.seen tag pending,
      m' ∈ t.seen tag (m :: pending) := fun tag ht m' hmem => by
    rw [hr.seen_eq h.toDocument hround.shaped.toDocument ht pending] at hmem
    rw [seen_cons]
    split
    · exact List.mem_cons_of_mem _ hmem
    · exact hmem
  have hnames : ∀ tag, t.Located tag → (u.properties tag.node).map Property.name
      = (t.properties tag.node).map Property.name := fun tag ht => by
    rw [hround.properties_cases ht]
    split
    · next hsees =>
        refine @map_name_reviseAll_eq _ _ [m] _ fun m' hm' a ha hadds => ?_
        rw [List.mem_singleton.mp hm'] at ha ⊢
        exact hfinds tag ht m (hseen tag (mem_tagsSeeing.mpr ⟨ht, hsees⟩)).2 a ha hadds
    · rfl
  refine ⟨hr, fun tag htu m' hmem => ?_, fun tag htu m' hmem => ?_⟩
  · have ht := hr.back.located hlu htu
    exact hr.finds hl ht (hnames tag ht) (hfinds tag ht m' (hlater tag ht m' hmem))
  · have ht := hr.back.located hlu htu
    exact hr.wears hl hlu (hwears tag ht m' (hlater tag ht m' hmem))

/-- Modifications that find what they want only retouch the module, and a tag then holds what those
that it sees make of what it held. -/
theorem retouched_applyEach (h : t.Shaped) (settings : TransformSettings) (index : Nat)
    (ms : List Modification)
    (hfinds : ∀ tag, t.Located tag → ∀ m ∈ t.seen tag ms, t.Finds settings m tag)
    (hwears : ∀ tag, t.Located tag → ∀ m ∈ t.seen tag ms, t.Wears m tag) :
    (t.applyEach settings index ms).2.Shaped ∧ Retouched t (t.applyEach settings index ms).2
      ∧ ∀ tag, t.Located tag → (t.applyEach settings index ms).2.properties tag.node
        = reviseAll settings.actualClassAttributes (t.adds settings tag.node) (t.seen tag ms)
          (t.properties tag.node) := by
  -- By induction on the modifications: a round that finds and wears everything leaves the next one
  -- to do the same.
  induction ms generalizing t index with
  | nil => exact ⟨h, .refl t, fun _ _ => rfl⟩
  | cons m pending ih =>
      rw [applyEach]
      dsimp only
      have hround := rounds_applyOne h settings index m pending
      obtain ⟨hr, hfinds', hwears'⟩ := retouched_applyOne h settings index m pending hfinds hwears
      set u := (t.applyOne settings index m pending).2
      obtain ⟨hshaped, hrest, hprops⟩ := ih hround.shaped (index + 1) hfinds' hwears'
      refine ⟨hshaped, hr.trans hrest h.toLinked hround.shaped.toLinked, fun tag ht => ?_⟩
      rw [hprops tag (hr.grows.located h.toLinked ht),
        hr.seen_eq h.toDocument hround.shaped.toDocument ht pending,
        hr.grows.adds_eq h.toLinked ht, hround.properties_cases ht, seen_cons]
      split <;> rfl

/-! ### Settled modules -/

/-- A module in which modifications find what they want, and leave the inner texts of all
strings. -/
structure Settled (t : SyntaxTree) (settings : TransformSettings) (ms : List Modification) :
    Prop where
  finds : ∀ tag, t.Located tag → ∀ m ∈ t.seen tag ms, t.Finds settings m tag
  wears : ∀ tag, t.Located tag → ∀ m ∈ t.seen tag ms, t.Wears m tag
  inner_eq : ∀ tag, t.Located tag →
    (reviseAll settings.actualClassAttributes (t.adds settings tag.node) (t.seen tag ms)
      (t.properties tag.node)).map Property.inner = (t.properties tag.node).map Property.inner

/-- Modifications leave what the tags of the module hold. -/
def Firm (t : SyntaxTree) (settings : TransformSettings) (ms : List Modification) : Prop :=
  ∀ tag, t.Located tag →
    reviseAll settings.actualClassAttributes (t.adds settings tag.node) (t.seen tag ms)
      (t.properties tag.node) = t.properties tag.node

/-- A run leaves a settled module. -/
theorem Run.settled {ms : List Modification} (hr : Run t t' settings ms) :
    t'.Settled settings ms where
  finds := fun tag ht m hm a ha hadds => by
    obtain ⟨ps, -, heq⟩ := hr.held tag ht
    rw [heq]
    exact exists_picked hm ha hadds
  wears := hr.wrapped
  inner_eq := fun tag ht => by
    obtain ⟨ps, -, heq⟩ := hr.held tag ht
    rw [heq, map_inner_reviseAll_reviseAll]

/-- A run on a module without sticky strings leaves a firm one. -/
theorem Run.firm {ms : List Modification} (hr : Run t t' settings ms) (hcalm : t.CalmAll) :
    t'.Firm settings ms := fun tag ht => by
  obtain ⟨ps, hps, heq⟩ := hr.held tag ht
  by_cases hseen : t'.seen tag ms = []
  · rw [hseen, reviseAll_nil]
  · rw [heq, reviseAll_reviseAll (hps hcalm hseen)]

/-! ### Imports -/

/-- The new statement is an import from the library. -/
lemma Grafted.importSource?_new {binding library gap : String} {l r r' : List Slot}
    (hg : Grafted t t' (importRow t.size binding library) root l r r' gap) :
    t'.kind t.size = .importStatement ∧ t'.importSource? t.size = some library := by
  have hrow : ∀ i piece, (importPieces binding library)[i]? = some piece →
      t'.node (t.size + (i + 1)) = { leaf t.size piece with
        changed := (t'.node (t.size + (i + 1))).changed } := fun i piece hpiece => by
    have hnode := hg.node_row (i + 1) (Nat.succ_ne_zero i)
    rw [importRow, List.getD_cons_succ, List.getD_eq_getElem?_getD, List.getElem?_map,
      hpiece] at hnode
    exact hnode
  have hchildren : t'.children t.size
      = [t.size + 1, t.size + 2, t.size + 3, t.size + 4, t.size + 5] := by
    rw [children, hg.node_top]
    rfl
  have hrole : ∀ i piece, (importPieces binding library)[i]? = some piece →
      t'.role (t.size + (i + 1)) = piece.role := fun i piece hpiece => by
    rw [role, hrow i piece hpiece]
    rfl
  -- Of the five pieces the fourth is the source.
  have hsource := hrow 3 _ rfl
  have hkind : t'.kind (t.size + 4) = .stringLiteral := by rw [kind, hsource]; rfl
  have htext : t'.text (t.size + 4) = quoted '"' library :=
    hg.wellFormed.text_of_literal (by rw [hsource]; rfl)
  have hchild : t'.childIn? t.size .source = some (t.size + 4) := by
    rw [childIn?, hchildren, List.find?_cons_of_neg (by simp [hrole 0 _ rfl]),
      List.find?_cons_of_neg (by simp [hrole 1 _ rfl]),
      List.find?_cons_of_neg (by simp [hrole 2 _ rfl]),
      List.find?_cons_of_pos (by simp [hrole 3 _ rfl])]
  refine ⟨?_, ?_⟩
  · rw [kind, hg.node_top]
    rfl
  · rw [importSource?, hchild, Option.bind_some, quotation?, if_pos hkind, htext,
      quotationOf?_quoted (.inl rfl)]
    rfl

/-- The new import is found. -/
lemma Grafted.importOf?_isSome {binding library gap : String} {l r r' : List Slot}
    (hg : Grafted t t' (importRow t.size binding library) root l r r' gap) (h : t.Document)
    (hs : Seam l r r' gap) : (t'.importOf? library).isSome = true := by
  refine importOf?_isSome_iff.mpr ⟨t.size, ?_, hg.importSource?_new⟩
  rw [(hg.children_place h.root_lt hs.map_child).2]
  exact List.mem_append_right _ List.mem_cons_self

/-- What becomes of a module that must have an import. -/
lemma Shaped.requireImport (h : t.Shaped) (settings : TransformSettings) :
    (t.requireImport settings).2.Shaped ∧ Grows t (t.requireImport settings).2
      ∧ (t.CalmAll → (t.requireImport settings).2.CalmAll)
      ∧ ((t.requireImport settings).2.importOf? settings.actualAnimationLibrary).isSome = true := by
  rcases requireImport_cases h.toDocument settings with ⟨heq, hthere⟩ | ⟨-, l, r, r', gap, hs, hg⟩
  · rw [heq]
    exact ⟨h, .refl t, id, hthere⟩
  · have hamends := hg.amends_import h hs
    have hgrows := hamends.grows h
    refine ⟨.grafted_import hg h hs, hgrows, fun hcalm target tag htag => ?_,
      hg.importOf?_isSome h.toDocument hs⟩
    obtain ⟨hneedle, ht, hname⟩ := mem_tagsNamed.mp htag
    -- The import has no tags, so every tag located afterwards was there before.
    have hlt : tag.node < t.size := by
      by_contra hge
      have htag := ht.isTag
      rcases Nat.eq_or_lt_of_le (Nat.not_lt.mp hge) with heq | hgt
      · rw [← heq, kind, hg.node_top] at htag
        cases htag
      · rw [(hg.kind_leaf hgt (importPieces_plain _ _)).2.1] at htag
        cases htag
    have ht' := hgrows.located_of_lt ht hlt
    rw [(hg.spared_import h hs hlt ht'.isTag).properties_eq]
    exact hcalm target tag (mem_tagsNamed.mpr ⟨hneedle, ht', hname⟩)

/-- A library that has its import gets no other one. -/
lemma requireImport_of_isSome
    (h : (t.importOf? settings.actualAnimationLibrary).isSome = true) :
    t.requireImport settings = (.alreadyPresent, t) := by
  rw [SyntaxTree.requireImport]
  dsimp only
  rw [if_pos h]

/-! ### The pipeline -/

/-- What a pipeline leaves: a module that the same pipeline finds as it wants it. -/
theorem Shaped.restyle (h : t.Shaped) (settings : TransformSettings) (needsImport : Bool)
    (ms : List Modification) :
    (t.restyle settings needsImport ms).2.Shaped
      ∧ (t.restyle settings needsImport ms).2.Settled settings ms
      ∧ (t.CalmAll → (t.restyle settings needsImport ms).2.Firm settings ms)
      ∧ (needsImport = true → ((t.restyle settings needsImport ms).2.importOf?
        settings.actualAnimationLibrary).isSome = true) := by
  cases needsImport with
  | false =>
      have hrun := run_applyEach h settings 0 ms
      exact ⟨hrun.shaped, hrun.settled, hrun.firm, fun hfalse => absurd hfalse Bool.false_ne_true⟩
  | true =>
      obtain ⟨hshaped, -, hcalm, hthere⟩ := h.requireImport settings
      have hrun := run_applyEach hshaped settings 0 ms
      exact ⟨hrun.shaped, hrun.settled, fun hc => hrun.firm (hcalm hc),
        fun _ => hrun.grows.importOf? _ hthere⟩

/-- A pipeline whose import is there adds none. -/
lemma importIfNeeded_of_importOf? {needsImport : Bool} (himport : needsImport = true →
      (t.importOf? settings.actualAnimationLibrary).isSome = true) :
    t.importIfNeeded settings needsImport
      = (if needsImport then some .alreadyPresent else none, t) := by
  cases needsImport with
  | false => rfl
  | true =>
      rw [importIfNeeded, if_pos rfl, requireImport_of_isSome (himport rfl)]
      rfl

/-- A pipeline whose import is there changes the module as its modifications do. -/
lemma restyle_of_importOf? {needsImport : Bool} (himport : needsImport = true →
      (t.importOf? settings.actualAnimationLibrary).isSome = true) (ms : List Modification) :
    (t.restyle settings needsImport ms).2 = (t.applyEach settings 0 ms).2
      ∧ (t.restyle settings needsImport ms).1.importOutcome ≠ some .inserted := by
  rw [SyntaxTree.restyle, importIfNeeded_of_importOf? himport]
  refine ⟨rfl, ?_⟩
  dsimp only
  cases needsImport with
  | false =>
      rw [if_neg Bool.false_ne_true]
      exact Option.some_ne_none _ |>.symm
  | true =>
      rw [if_pos rfl]
      decide

/-- A pipeline that finds a settled module makes nothing, and only puts strings into other
quotes. -/
theorem Settled.restyle {ms : List Modification} (hs : t.Settled settings ms) (h : t.Shaped)
    {needsImport : Bool} (himport : needsImport = true →
      (t.importOf? settings.actualAnimationLibrary).isSome = true) :
    (t.restyle settings needsImport ms).2.size = t.size
      ∧ (t.restyle settings needsImport ms).1.importOutcome ≠ some .inserted
      ∧ Requoted t (t.restyle settings needsImport ms).2 := by
  obtain ⟨heq, hout⟩ := restyle_of_importOf? himport ms
  obtain ⟨hshaped, hr, hprops⟩ := retouched_applyEach h settings 0 ms hs.finds hs.wears
  rw [heq]
  refine ⟨hr.size_eq, hout, hr, hshaped, fun tag ht => ?_, fun tag ht => ?_⟩
  · rw [hprops tag ht, map_name_reviseAll_eq (hs.finds tag ht)]
  · rw [hprops tag ht, hs.inner_eq tag ht]

/-- A pipeline leaves the text of a settled module exactly if the module is firm. -/
theorem Settled.render_restyle_iff {ms : List Modification} (hs : t.Settled settings ms)
    (h : t.Shaped) {needsImport : Bool} (himport : needsImport = true →
      (t.importOf? settings.actualAnimationLibrary).isSome = true) :
    (t.restyle settings needsImport ms).2.render = t.render ↔ t.Firm settings ms := by
  rw [(hs.restyle h himport).2.2.render_eq_iff h, (restyle_of_importOf? himport ms).1]
  have hprops := (retouched_applyEach h settings 0 ms hs.finds hs.wears).2.2
  exact forall₂_congr fun tag ht => by rw [hprops tag ht]

end Restyle.SyntaxTree
