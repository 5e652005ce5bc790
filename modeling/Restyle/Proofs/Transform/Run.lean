import Restyle.Proofs.Change.Advance
import Restyle.Proofs.Change.Step
import Restyle.Transform.Pipeline

/-!
What a run of modifications does to a module.

* `sees`, `seen`: which of some modifications a tag is a point of, when others are pending;
* `Rounds`, `rounds_applyOne`: one modification, at all of its points;
* `Run`, `run_applyEach`: all modifications. A tag that was made by none of them was there before
  and saw those that it sees afterwards, and every tag holds what those that it sees made of it.
-/

namespace Restyle.SyntaxTree

variable {t t' : SyntaxTree} {settings : TransformSettings} {m : Modification}

/-! ### What tags see -/

/-- Whether a tag is a point of a modification, while others are pending. -/
def sees (t : SyntaxTree) (tag : Tag) (m : Modification) (pending : List Modification) : Bool :=
  !(needle m.target).isEmpty && nameContains tag.name (needle m.target)
    && !pending.any (t.isMadeBy tag.element)

/-- The modifications that a tag is a point of, each while those behind it are pending. -/
def seen (t : SyntaxTree) (tag : Tag) : List Modification → List Modification
  | [] => []
  | m :: pending => if t.sees tag m pending then m :: seen t tag pending else seen t tag pending

/-- The tags at which a modification applies, while others are pending. -/
def tagsSeeing (t : SyntaxTree) (m : Modification) (pending : List Modification) : List Tag :=
  (t.tagsNamed m.target).filter fun tag => !pending.any (t.isMadeBy tag.element)

/-- A tag is seen by its name, unless a later modification made its element. -/
lemma sees_iff {tag : Tag} {pending : List Modification} :
    t.sees tag m pending = true
      ↔ (needle m.target ≠ "" ∧ nameContains tag.name (needle m.target) = true)
        ∧ pending.any (t.isMadeBy tag.element) = false := by
  rw [sees, Bool.and_eq_true, Bool.and_eq_true, Bool.not_eq_true', Bool.not_eq_true',
    ← Bool.not_eq_true, String.isEmpty_iff]

lemma mem_tagsSeeing {tag : Tag} {pending : List Modification} :
    tag ∈ t.tagsSeeing m pending ↔ t.Located tag ∧ t.sees tag m pending = true := by
  rw [tagsSeeing, List.mem_filter, mem_tagsNamed, sees_iff, Bool.not_eq_true']
  exact ⟨fun ⟨⟨hneedle, ht, hname⟩, hmade⟩ => ⟨ht, ⟨hneedle, hname⟩, hmade⟩,
    fun ⟨ht, ⟨hneedle, hname⟩, hmade⟩ => ⟨⟨hneedle, ht, hname⟩, hmade⟩⟩

/-- The points of a modification are those at the tags that see it. -/
lemma pointsBefore_eq (t : SyntaxTree) (classAttributes : List String) (m : Modification)
    (pending : List Modification) :
    t.pointsBefore classAttributes m pending
      = (t.tagsSeeing m pending).map (t.pointAt classAttributes m.action) := by
  have hfilter : ∀ tag ∈ t.tagsNamed m.target,
      ((fun point : Point => point.tag?.all fun tag => !pending.any (t.isMadeBy tag.element))
        ∘ t.pointAt classAttributes m.action) tag = !pending.any (t.isMadeBy tag.element) :=
    fun tag _ => by rw [Function.comp_apply, tag?_pointAt, Option.all_some]
  rw [pointsBefore, points, List.filter_map, List.filter_congr hfilter, tagsSeeing]

lemma map_filterMap_sublist {α β : Type} {f : α → Option β} {g : β → α}
    (h : ∀ a b, f a = some b → g b = a) (l : List α) :
    ((l.filterMap f).map g).Sublist l := by
  induction l with
  | nil => exact .slnil
  | cons a l ih =>
      cases hf : f a with
      | none =>
          rw [List.filterMap_cons_none hf]
          exact .cons a ih
      | some b =>
          rw [List.filterMap_cons_some hf, List.map_cons, h a b hf]
          exact .cons_cons a ih

/-- Tags are found in the order of the module. -/
lemma tagsSeeing_sublist (t : SyntaxTree) (m : Modification) (pending : List Modification) :
    ((t.tagsSeeing m pending).map Tag.node).Sublist (t.descendants root) := by
  have hnamed : ((t.tagsNamed m.target).map Tag.node).Sublist (t.descendants root) := by
    rw [tagsNamed]
    split
    · exact List.nil_sublist _
    · refine (map_filterMap_sublist ?_ _).trans List.filter_sublist
      intro id tag htag
      obtain ⟨hat, -⟩ := Option.filter_eq_some_iff.mp htag
      obtain ⟨name, element, -, -, rfl⟩ := tagAt?_eq_some.mp hat
      rfl
  exact (List.filter_sublist.map _).trans hnamed

/-- No tag is found twice. -/
lemma nodup_tagsSeeing (hl : t.Linked) (m : Modification) (pending : List Modification) :
    ((t.tagsSeeing m pending).map Tag.node).Nodup :=
  (descendants_nodup hl hl.root_lt).sublist (t.tagsSeeing_sublist m pending)

lemma Located.eq_of_node {tag tag' : Tag} (ht : t.Located tag) (ht' : t.Located tag')
    (h : tag.node = tag'.node) : tag = tag' := by
  have := ht.tagAt
  rw [h, ht'.tagAt, Option.some.injEq] at this
  exact this.symm

/-! ### One modification -/

/-- What becomes of a module when a modification is applied at some of its tags. -/
structure Rounds (t t' : SyntaxTree) (settings : TransformSettings) (m : Modification)
    (tags : List Tag) : Prop where
  shaped : t'.Shaped
  grows : Grows t t'
  spared : ∀ tag, t.Located tag → tag.node ∉ tags.map Tag.node → Spared t t' tag.node
  properties_eq : ∀ tag ∈ tags, t'.properties tag.node
    = revise settings.actualClassAttributes (t.adds settings tag.node) m (t.properties tag.node)
  wrapped : m.action = .wrapElement → isDottedName (Text.trim m.value) = true → ∀ tag ∈ tags,
    tag.name = Text.trim m.value ∨ t'.isInside tag.element (Text.trim m.value) = true
  fresh : ∀ tag, t'.Located tag → t.size ≤ tag.node →
    t'.isMadeBy tag.element m = true ∧ t'.properties tag.node = []

lemma Located.element_lt (h : t.Document) {tag : Tag} (ht : t.Located tag) :
    tag.element < t.size :=
  lt_size_of_mem_descendants h.toLinked h.root_lt (ht.element_mem h.toLinked h.kind_root)

lemma Grows.adds_eq (hg : Grows t t') {tag : Tag} (hl : t.Linked) (ht : t.Located tag) :
    t'.adds settings tag.node = t.adds settings tag.node := by
  rw [adds, adds, hg.attributesEnd?_isSome tag.node (ht.lt_size hl) ht.isTag]

/-- A modification is applied at one tag after the other. -/
theorem rounds_applyAtAll (h : t.Shaped) (settings : TransformSettings) (m : Modification)
    {tags : List Tag} (hnodup : (tags.map Tag.node).Nodup)
    (htags : ∀ tag ∈ tags, t.Located tag ∧ needle m.target ≠ ""
      ∧ nameContains tag.name (needle m.target) = true) :
    Rounds t (t.applyAtAll settings m
      (tags.map (t.pointAt settings.actualClassAttributes m.action))).2 settings m tags := by
  induction tags generalizing t with
  | nil =>
      refine ⟨h, .refl t, fun tag _ _ => .refl t tag.node,
        fun _ hmem => absurd hmem List.not_mem_nil,
        fun _ _ _ hmem => absurd hmem List.not_mem_nil, fun tag ht hge => ?_⟩
      exact absurd (ht.lt_size h.toLinked) (Nat.not_lt.mpr hge)
  | cons tag tags ih =>
      obtain ⟨ht, hneedle, hname⟩ := htags tag List.mem_cons_self
      rw [List.map_cons, List.nodup_cons] at hnodup
      rw [List.map_cons, applyAtAll]
      have hstep := (application_applyAt h settings m ht).advances h ht hneedle hname
      set u := (t.applyAt settings m (t.pointAt settings.actualClassAttributes m.action tag)).2
      have hl := h.toLinked
      obtain ⟨hspared, hpoints⟩ := hstep.others hl
        (fun tag' hmem => (htags tag' (List.mem_cons_of_mem _ hmem)).1) hnodup.1
      have hrest := ih hstep.shaped hnodup.2 fun tag' hmem => by
        obtain ⟨ht', hnames⟩ := htags tag' (List.mem_cons_of_mem _ hmem)
        exact ⟨hstep.grows.located hl ht', hnames⟩
      rw [hpoints] at hrest
      set v := (u.applyAtAll settings m
        (tags.map (t.pointAt settings.actualClassAttributes m.action))).2
      have htu := hstep.grows.located hl ht
      -- each part holds of the first tag by the step, which the rest spares, and of all others by
      -- the rest
      refine ⟨hrest.shaped, hstep.grows.trans hrest.grows, fun tag' ht' hmem => ?_,
        fun tag' hmem => ?_, fun haction hdotted tag' hmem => ?_, fun tag' ht' hge => ?_⟩
      · rw [List.map_cons, List.mem_cons, not_or] at hmem
        exact (hstep.spared tag'.node (ht'.lt_size hl) ht'.isTag hmem.1).trans
          (hrest.spared tag' (hstep.grows.located hl ht') hmem.2)
      · rcases List.mem_cons.mp hmem with rfl | hmem
        · rw [(hrest.spared tag' htu hnodup.1).properties_eq, hstep.properties_eq]
        · have ht' := (htags tag' (List.mem_cons_of_mem _ hmem)).1
          rw [hrest.properties_eq tag' hmem, (hspared tag' hmem).properties_eq,
            hstep.grows.adds_eq hl ht']
      · rcases List.mem_cons.mp hmem with rfl | hmem
        · exact (hstep.wrapped haction hdotted).imp_right
            (hrest.grows.isInside hstep.shaped.toLinked hrest.shaped.toLinked)
        · exact hrest.wrapped haction hdotted tag' hmem
      · rcases Nat.lt_or_ge tag'.node u.size with hlt | hge'
        · have ht'u := hrest.grows.located_of_lt ht' hlt
          obtain ⟨hmade, hempty⟩ := hstep.fresh tag' ht'u hge
          refine ⟨hrest.grows.isMadeBy hstep.shaped.toLinked hrest.shaped.toLinked
            (ht'u.element_lt hstep.shaped.toDocument) hmade, ?_⟩
          rw [(hrest.spared tag' ht'u fun hmem => ?_).properties_eq, hempty]
          obtain ⟨tag'', hmem, heq⟩ := List.mem_map.mp hmem
          have hlt := (htags tag'' (List.mem_cons_of_mem _ hmem)).1.lt_size hl
          exact absurd (heq ▸ hlt) (Nat.not_lt.mpr hge)
        · exact hrest.fresh tag' ht' hge'

/-- A modification is applied at the points of the tags that it sees. -/
lemma applyOne_snd (t : SyntaxTree) (settings : TransformSettings) (index : Nat)
    (m : Modification) (pending : List Modification) :
    (t.applyOne settings index m pending).2 = (t.applyAtAll settings m
      ((t.tagsSeeing m pending).map (t.pointAt settings.actualClassAttributes m.action))).2 := by
  rw [applyOne, pointsBefore_eq]
  cases (t.tagsSeeing m pending).map (t.pointAt settings.actualClassAttributes m.action) with
  | nil => rfl
  | cons point points => rfl

/-- A modification is applied at all tags that see it. -/
theorem rounds_applyOne (h : t.Shaped) (settings : TransformSettings) (index : Nat)
    (m : Modification) (pending : List Modification) :
    Rounds t (t.applyOne settings index m pending).2 settings m (t.tagsSeeing m pending) := by
  rw [applyOne_snd]
  refine rounds_applyAtAll h settings m (nodup_tagsSeeing h.toLinked m pending) fun tag hmem => ?_
  obtain ⟨ht, hsees⟩ := mem_tagsSeeing.mp hmem
  exact ⟨ht, (sees_iff.mp hsees).1⟩

/-- A round revises the properties of the tags seen and no others. -/
lemma Rounds.properties_cases {pending : List Modification}
    (hr : Rounds t t' settings m (t.tagsSeeing m pending)) {tag : Tag} (ht : t.Located tag) :
    t'.properties tag.node = if t.sees tag m pending then
        revise settings.actualClassAttributes (t.adds settings tag.node) m (t.properties tag.node)
      else t.properties tag.node := by
  split
  · next hsees => exact hr.properties_eq tag (mem_tagsSeeing.mpr ⟨ht, hsees⟩)
  · next hsees =>
      refine (hr.spared tag ht fun hmem => hsees ?_).properties_eq
      obtain ⟨tag', hmem, heq⟩ := List.mem_map.mp hmem
      obtain ⟨ht', hsees'⟩ := mem_tagsSeeing.mp hmem
      rwa [ht'.eq_of_node ht heq] at hsees'

/-! ### All modifications -/

/-- No attribute that an assignment can pick is sticky in the module. -/
def CalmAll (t : SyntaxTree) : Prop :=
  ∀ target, ∀ tag ∈ t.tagsNamed target, Calm (t.properties tag.node)

/-- A round keeps all strings calm. -/
lemma Rounds.calmAll {pending : List Modification}
    (hr : Rounds t t' settings m (t.tagsSeeing m pending)) (h : t.CalmAll) : t'.CalmAll := by
  intro target tag htag
  obtain ⟨hneedle, ht', hname⟩ := mem_tagsNamed.mp htag
  rcases Nat.lt_or_ge tag.node t.size with hlt | hge
  · have ht := hr.grows.located_of_lt ht' hlt
    have hcalm := h target tag (mem_tagsNamed.mpr ⟨hneedle, ht, hname⟩)
    rw [hr.properties_cases ht]
    split
    · exact hcalm.revise m
    · exact hcalm
  · rw [(hr.fresh tag ht' hge).2]
    exact calm_nil

/-- What becomes of a module in a run of modifications. -/
structure Run (t t' : SyntaxTree) (settings : TransformSettings) (ms : List Modification) :
    Prop where
  shaped : t'.Shaped
  grows : Grows t t'
  /-- A tag that none of the modifications made was there before. -/
  unmade : ∀ tag, t'.Located tag → ms.any (t'.isMadeBy tag.element) = false →
    t.Located tag ∧ t'.properties tag.node
      = reviseAll settings.actualClassAttributes (t.adds settings tag.node) (t'.seen tag ms)
        (t.properties tag.node)
  /-- A tag holds what those that it sees made of it. -/
  held : ∀ tag, t'.Located tag → ∃ ps, (t.CalmAll → t'.seen tag ms ≠ [] → Calm ps)
    ∧ t'.properties tag.node
      = reviseAll settings.actualClassAttributes (t'.adds settings tag.node) (t'.seen tag ms) ps
  wrapped : ∀ tag, t'.Located tag → ∀ m ∈ t'.seen tag ms, m.action = .wrapElement →
    isDottedName (Text.trim m.value) = true →
      tag.name = Text.trim m.value ∨ t'.isInside tag.element (Text.trim m.value) = true

lemma seen_cons (t : SyntaxTree) (tag : Tag) (m : Modification) (pending : List Modification) :
    t.seen tag (m :: pending)
      = if t.sees tag m pending then m :: t.seen tag pending else t.seen tag pending := rfl

/-- What a tag sees after a run, it saw before it. -/
lemma Grows.sees (hg : Grows t t') (h : t.Document) (h' : t'.Document) {tag : Tag}
    (ht : t.Located tag) {pending : List Modification} (hs : t'.sees tag m pending = true) :
    t.sees tag m pending = true := by
  obtain ⟨hname, hmade⟩ := sees_iff.mp hs
  refine sees_iff.mpr ⟨hname, Bool.eq_false_of_not_eq_true fun hany => ?_⟩
  rw [hg.any_isMadeBy h.toLinked h'.toLinked (ht.element_lt h) hany] at hmade
  cases hmade

/-! ### One modification and the others behind it -/

section Cons

variable {u v : SyntaxTree} {pending : List Modification} {tag : Tag}
  (hround : Rounds t u settings m (t.tagsSeeing m pending)) (hrest : Run u v settings pending)

include hround hrest

/-- A tag that is new after the first modification was made by it, and is so afterwards. -/
lemma Run.isMadeBy_of_fresh (htu : u.Located tag) (hge : t.size ≤ tag.node) :
    v.isMadeBy tag.element m = true :=
  hrest.grows.isMadeBy hround.shaped.toLinked hrest.shaped.toLinked
    (htu.element_lt hround.shaped.toDocument) (hround.fresh tag htu hge).1

/-- A tag that is no new one and sees the first modification in the end saw it at the start. -/
lemma Run.sees_of_lt (h : t.Shaped) (htu : u.Located tag) (hlt : tag.node < t.size)
    (hsees : v.sees tag m pending = true) : t.Located tag ∧ t.sees tag m pending = true := by
  have ht := hround.grows.located_of_lt htu hlt
  exact ⟨ht, (hround.grows.trans hrest.grows).sees h.toDocument hrest.shaped.toDocument ht hsees⟩

/-- A tag of no wrapper was there before, and was revised by those that see it. -/
lemma Run.unmade_cons (h : t.Shaped) (htv : v.Located tag)
    (hunmade : (m :: pending).any (v.isMadeBy tag.element) = false) :
    t.Located tag ∧ v.properties tag.node
      = reviseAll settings.actualClassAttributes (t.adds settings tag.node)
        (v.seen tag (m :: pending)) (t.properties tag.node) := by
  rw [List.any_cons, Bool.or_eq_false_iff] at hunmade
  obtain ⟨htu, heq⟩ := hrest.unmade tag htv hunmade.2
  have hlt : tag.node < t.size := by
    by_contra hge
    rw [hrest.isMadeBy_of_fresh hround htu (Nat.not_lt.mp hge)] at hunmade
    cases hunmade.1
  have ht := hround.grows.located_of_lt htu hlt
  have hsees : v.sees tag m pending = t.sees tag m pending := by
    rw [Bool.eq_iff_iff]
    refine ⟨fun hs => (hrest.sees_of_lt hround h htu hlt hs).2, fun hs => ?_⟩
    exact sees_iff.mpr ⟨(sees_iff.mp hs).1, hunmade.2⟩
  refine ⟨ht, ?_⟩
  rw [heq, hround.grows.adds_eq h.toLinked ht, hround.properties_cases ht, seen_cons, hsees]
  split <;> rfl

/-- The properties of a tag are what the modifications seeing it made of some properties, calm if
all were. -/
lemma Run.held_cons (h : t.Shaped) (htv : v.Located tag) :
    ∃ ps, (t.CalmAll → v.seen tag (m :: pending) ≠ [] → Calm ps)
      ∧ v.properties tag.node
        = reviseAll settings.actualClassAttributes (v.adds settings tag.node)
          (v.seen tag (m :: pending)) ps := by
  rw [seen_cons]
  split
  · next hsees =>
      obtain ⟨htu, heq⟩ := hrest.unmade tag htv (sees_iff.mp hsees).2
      have hadds := @Grows.adds_eq _ _ settings hrest.grows _ hround.shaped.toLinked htu
      rcases Nat.lt_or_ge tag.node t.size with hlt | hge
      · obtain ⟨ht, hsees'⟩ := hrest.sees_of_lt hround h htu hlt hsees
        refine ⟨_, fun hcalm _ => hcalm m.target tag (mem_tagsNamed.mpr
          ⟨(sees_iff.mp hsees').1.1, ht, (sees_iff.mp hsees').1.2⟩), ?_⟩
        rw [reviseAll_cons, hadds, heq, hround.properties_cases ht, if_pos hsees',
          hround.grows.adds_eq h.toLinked ht]
      · -- a wrapper has no attributes
        obtain ⟨hmade, hempty⟩ := hround.fresh tag htu hge
        have haction : m.action = .wrapElement := by
          rw [isMadeBy, Bool.and_eq_true, decide_eq_true_eq] at hmade
          exact hmade.1
        refine ⟨[], fun _ _ => calm_nil, ?_⟩
        rw [reviseAll_cons, revise_of_wrap haction, hadds, heq, hempty]
  · obtain ⟨ps, hps, heq⟩ := hrest.held tag htv
    exact ⟨ps, fun hcalm => hps (hround.calmAll hcalm), heq⟩

/-- A tag that sees the first modification in the end is inside its wrapper, or is the tag of
one. -/
lemma Run.wrapped_head (h : t.Shaped) (htv : v.Located tag) (hsees : v.sees tag m pending = true)
    (haction : m.action = .wrapElement) (hdotted : isDottedName (Text.trim m.value) = true) :
    tag.name = Text.trim m.value ∨ v.isInside tag.element (Text.trim m.value) = true := by
  have hlv := hrest.shaped.toLinked
  obtain ⟨htu, -⟩ := hrest.unmade tag htv (sees_iff.mp hsees).2
  rcases Nat.lt_or_ge tag.node t.size with hlt | hge
  · have hseeing := mem_tagsSeeing.mpr (hrest.sees_of_lt hround h htu hlt hsees)
    exact (hround.wrapped haction hdotted tag hseeing).imp_right
      (hrest.grows.isInside hround.shaped.toLinked hlv)
  · have hmade := hrest.isMadeBy_of_fresh hround htu hge
    rw [isMadeBy, Bool.and_eq_true] at hmade
    have hname := ((hlv.wraps_iff (htv.element_lt hrest.shaped.toDocument) _ _).mp hmade.2).2.1
    rw [(hrest.shaped.element_spec htv.isTag htv.tagAt).2.2.2.2, Option.some.injEq] at hname
    exact .inl hname

/-- A modification at all of its points, and then a run of those behind it, are a run of all. -/
theorem Run.cons (h : t.Shaped) : Run t v settings (m :: pending) where
  shaped := hrest.shaped
  grows := hround.grows.trans hrest.grows
  unmade := fun _ htv hunmade => hrest.unmade_cons hround h htv hunmade
  held := fun _ htv => hrest.held_cons hround h htv
  wrapped := fun tag htv m' hmem => by
    rw [seen_cons] at hmem
    split at hmem
    · next hsees =>
        rcases List.mem_cons.mp hmem with rfl | hmem
        · exact hrest.wrapped_head hround h htv hsees
        · exact hrest.wrapped tag htv m' hmem
    · exact hrest.wrapped tag htv m' hmem

end Cons

/-- A run without modifications ends where it starts. -/
lemma Run.nil (h : t.Shaped) (settings : TransformSettings) : Run t t settings [] where
  shaped := h
  grows := .refl t
  unmade := fun _ ht _ => ⟨ht, rfl⟩
  held := fun _ _ => ⟨_, fun _ hne => absurd rfl hne, rfl⟩
  wrapped := fun _ _ _ hmem => absurd hmem List.not_mem_nil

/-- What becomes of a module when modifications are applied in order. -/
theorem run_applyEach (h : t.Shaped) (settings : TransformSettings) (index : Nat)
    (ms : List Modification) :
    Run t (t.applyEach settings index ms).2 settings ms := by
  induction ms generalizing t index with
  | nil => exact .nil h settings
  | cons m pending ih =>
      rw [applyEach]
      dsimp only
      have hround := rounds_applyOne h settings index m pending
      exact (ih hround.shaped (index + 1)).cons hround h

end Restyle.SyntaxTree
