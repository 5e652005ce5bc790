import Restyle.Proofs.Change.AtTag
import Restyle.Proofs.Search.TagOrder

/-!
Class lists and properties at different tags, in any order.

* `Realizes`: a tree in which some edits have been made, whatever the order;
* `Realizes.text_eq`: two trees in which the same edits have been made are written the same;
* `Realizes.cons`, `realizes_applyJobs`: a modification at a tag that has had no edit yet makes the
  one that it would have made at first;
* `applyJobs_perm`: so modifications at different tags can be applied in any order.
-/

namespace Restyle.SyntaxTree

variable {t u u' : SyntaxTree} {es es' : List Edit} {e : Edit}

/-! ### Trees in which edits have been made -/

/-- An edit of `t` has been made in `u`: the string has the text, or the tag has an attribute that
is new. -/
def Done (t u : SyntaxTree) : Edit → Prop
  | .keep => True
  | .rewrite literal text => (u.node literal).literal = some text
  | .attach tag i gap a => ∃ new, t.size ≤ new
    ∧ (u.node tag).slots = (t.node tag).slots.take i ++ ⟨gap, new⟩ :: (t.node tag).slots.drop i
    ∧ (u.node tag).ending = (t.node tag).ending
    ∧ u.text new = a.name ++ "=" ++ quoted '"' a.value

/-- Edits of `t` have been made in `u`, and nothing else. -/
structure Realizes (t : SyntaxTree) (es : List Edit) (u : SyntaxTree) : Prop where
  shaped : u.Shaped
  size_le : t.size ≤ u.size
  kind_eq : ∀ x < t.size, u.kind x = t.kind x
  parent_eq : ∀ x < t.size, u.parent x = t.parent x
  untouched : ∀ x < t.size, (∀ e ∈ es, e.place? ≠ some x) → t.Alike u x
  done : ∀ e ∈ es, t.Done u e

/-- No edits are realized by the tree itself. -/
theorem Realizes.nil (h : t.Shaped) : Realizes t [] t :=
  ⟨h, le_rfl, fun _ _ => rfl, fun _ _ => rfl, fun _ _ _ => ⟨rfl, rfl, rfl⟩,
    fun _ he => absurd he List.not_mem_nil⟩

/-- The same edits, made in two trees, leave the same text of every node that was there before. -/
theorem Realizes.text_eq (hr : Realizes t es u) (hr' : Realizes t es' u') (h : t.Linked)
    (hsame : ∀ e, e ∈ es ↔ e ∈ es') {x : NodeId} (hx : x < t.size) : u.text x = u'.text x := by
  have hwf := hr.shaped.toWellFormed
  have hwf' := hr'.shaped.toWellFormed
  -- up from the leaves: a node is written by its children, and at most one of the edits is made
  -- there
  induction x using h.inductBelow with
  | step x ih =>
      have hrow : ∀ slots : List Slot, slots ⊆ (t.node x).slots →
          u.rowText slots = u'.rowText slots := fun slots hsub =>
        rowText_congr fun slot hslot => by
          have hmem : slot.child ∈ t.children x := List.mem_map_of_mem (hsub hslot)
          exact ih slot.child hmem (h.lt_of_mem hmem)
      by_cases hplace : ∃ e ∈ es, e.place? = some x
      · obtain ⟨e, he, hplace⟩ := hplace
        have hdone := hr.done e he
        have hdone' := hr'.done e ((hsame e).mp he)
        cases e with
        | keep => cases hplace
        | rewrite literal text =>
            cases hplace
            rw [hwf.text_of_literal hdone, hwf'.text_of_literal hdone']
        | attach tag i gap a =>
            cases hplace
            obtain ⟨new, -, hslots, hending, htext⟩ := hdone
            obtain ⟨new', -, hslots', hending', htext'⟩ := hdone'
            rw [hwf.text_of_slots hslots, hwf'.text_of_slots hslots', htext, htext', hending,
              hending', hrow _ (List.take_subset _ _), hrow _ (List.drop_subset _ _)]
      · have hno : ∀ e ∈ es, e.place? ≠ some x := fun e he heq => hplace ⟨e, he, heq⟩
        obtain ⟨hslots, hliteral, hending⟩ := hr.untouched x hx hno
        obtain ⟨hslots', hliteral', hending'⟩ :=
          hr'.untouched x hx fun e he => hno e ((hsame e).mpr he)
        have hbelow : ∀ v : SyntaxTree,
            v.textBelow x = v.rowText (v.node x).slots ++ (v.node x).ending := fun _ => rfl
        rw [hwf.text_eq, hwf'.text_eq, hbelow, hbelow, hliteral, hliteral',
          hslots, hslots', hending,
          hending', hrow _ (List.Subset.refl _)]

/-! ### One more edit -/

lemma Alike.trans {x : NodeId} (h : t.Alike u x) (h' : u.Alike u' x) : t.Alike u' x :=
  ⟨h'.slots_eq.trans h.slots_eq, h'.literal_eq.trans h.literal_eq, h'.ending_eq.trans h.ending_eq⟩

/-- No old node has come to lie under a new one. -/
lemma Realizes.not_under (hr : Realizes t es u) (hl : t.Linked) {new x : NodeId} (hx : x < t.size)
    (hnew : t.size ≤ new) : ¬ u.Under new x := by
  intro hunder
  induction hunder with
  | refl => exact absurd hx (Nat.not_lt.mpr hnew)
  | step hp _ ih =>
      rw [hr.parent_eq _ hx] at hp
      exact ih (hl.parent_lt hp)

/-- What has been done stays so after an edit at another place. -/
lemma Done.of_onlyAt {place : NodeId} (hd : t.Done u e) (ho : OnlyAt u u' place) (h : u.WellFormed)
    (h' : u'.WellFormed) (hne : e.place? ≠ some place)
    (hnew : ∀ new, t.size ≤ new → ¬ u.Under new place) : t.Done u' e := by
  cases e with
  | keep => trivial
  | rewrite literal text =>
      have hlt : literal < u.size := by
        by_contra hge
        rw [Done, u.node_of_size_le (Nat.not_lt.mp hge)] at hd
        cases hd
      exact (ho literal hlt fun heq => hne (congrArg some heq)).literal_eq.trans hd
  | attach tag i gap a =>
      obtain ⟨new, hge, hslots, hending, htext⟩ := hd
      have hmem : new ∈ u.children tag := mem_children_iff.mpr ⟨gap, by rw [hslots]; simp⟩
      have halike := ho tag (lt_size_of_mem hmem) fun heq => hne (congrArg some heq)
      exact ⟨new, hge, halike.slots_eq.trans hslots, halike.ending_eq.trans hending,
        (ho.text_eq h h' (h.lt_of_mem hmem) (hnew new hge)).trans htext⟩

section Cons

variable {tag : NodeId} (hr : Realizes t es u) (h : t.Shaped) (hfits : Fits t tag e)
  (hu : Undisturbed t u tag) (htag : (t.kind tag).isTag = true)
  (hplace : ∀ place, e.place? = some place → ∀ e' ∈ es, e'.place? ≠ some place)
include hr h hfits hu htag hplace

/-- The edit is made. -/
lemma Realizes.done_run : t.Done (e.run u) e := by
  cases hfits with
  | keep => trivial
  | @rewrite a literal q s text ha hv =>
      have hlt : literal < t.size := h.lt_of_mem (stringValue?_spec hv).1
      rw [Done, Edit.run, node_overwrite (hlt.trans_le hr.size_le), if_pos rfl]
  | @attach i a hend =>
      have hlt := lt_size_of_isTag htag
      have halike := hr.untouched tag hlt (hplace tag rfl)
      have hg := grafted_attach hr.shaped.toWellFormed (hu.end_eq.trans hend) a
      rw [hu.gap_eq] at hg
      have hnode := hg.node_old tag (hlt.trans_le hr.size_le)
      rw [if_pos rfl, halike.slots_eq] at hnode
      exact ⟨u.size, hr.size_le, congrArg Node.slots hnode,
        (congrArg Node.ending hnode).trans halike.ending_eq,
        (hg.text_top rfl rfl rfl).trans (piecesText_attribute a.name a.value)⟩

/-- An edit at a tag that is undisturbed is made beside those that have been made. -/
theorem Realizes.cons : Realizes t (e :: es) (e.run u) := by
  have hlt := lt_size_of_isTag htag
  have htag' : (u.kind tag).isTag = true := by rwa [hr.kind_eq tag hlt]
  have hfits' := hfits.of_undisturbed hu
  have hself := hr.done_run h hfits hu htag hplace
  rcases hfits'.amends hr.shaped htag' with rfl | ⟨place, hpl, ha⟩
  · exact { hr with
      untouched := fun x hx hno =>
        hr.untouched x hx fun e' he' => hno e' (List.mem_cons_of_mem _ he')
      done := List.forall_mem_cons.mpr ⟨hself, hr.done⟩ }
  · have hold : place < t.size := by
      cases hfits with
      | keep => cases hpl
      | rewrite text ha hv =>
          cases hpl
          exact h.lt_of_mem (stringValue?_spec hv).1
      | attach a hend =>
          cases hpl
          exact hlt
    have hshaped := hfits'.shaped hr.shaped htag'
    -- the edit touches its place only, and no edit before it has that place
    constructor
    case shaped => exact hshaped
    case size_le => exact hr.size_le.trans ha.size_le
    case kind_eq =>
      exact fun x hx => (ha.kind_eq x (hx.trans_le hr.size_le)).trans (hr.kind_eq x hx)
    case parent_eq =>
      exact fun x hx => (ha.parent_eq x (hx.trans_le hr.size_le) rfl).trans (hr.parent_eq x hx)
    case untouched =>
      intro x hx hno
      obtain ⟨hne, hno⟩ := List.forall_mem_cons.mp hno
      refine (hr.untouched x hx hno).trans (ha.onlyAt x (hx.trans_le hr.size_le) fun heq => ?_)
      exact hne (heq ▸ hpl)
    case done =>
      refine List.forall_mem_cons.mpr ⟨hself, fun e' he' => ?_⟩
      exact (hr.done e' he').of_onlyAt ha.onlyAt hr.shaped.toWellFormed hshaped.toWellFormed
        (hplace place hpl e' he') fun new hnew => hr.not_under h.toLinked hold hnew

end Cons

/-! ### Modifications at several tags -/

variable {jobs order : List (Modification × Point)}
  {job : Modification × Point}

/-- Applies modifications one after the other, each at a point. -/
def applyJobs (t : SyntaxTree) (settings : TransformSettings) :
    List (Modification × Point) → List Outcome × SyntaxTree
  | [] => ([], t)
  | job :: jobs =>
    let (outcome, t) := t.applyAt settings job.1 job.2
    let (outcomes, t) := applyJobs t settings jobs
    (outcome :: outcomes, t)

/-- Jobs of one modification are its application at all their points. -/
lemma applyJobs_map (t : SyntaxTree) (settings : TransformSettings) (m : Modification)
    (points : List Point) :
    t.applyJobs settings (points.map fun point => (m, point)) = t.applyAtAll settings m points := by
  induction points generalizing t with
  | nil => rfl
  | cons point points ih => simp only [List.map_cons, applyJobs, applyAtAll, ih]

/-- A modification adds classes or a property, and its point is one of the module, at that tag. -/
structure Addresses (t : SyntaxTree) (job : Modification × Point) (tag : Tag) : Prop where
  action : job.1.action ≠ .wrapElement
  holds : t.Holds job.2
  tag_eq : job.2.tag? = some tag

/-- The tags of some points. -/
def tagNodes (jobs : List (Modification × Point)) : List (Option NodeId) :=
  jobs.map fun job => job.2.tag?.map Tag.node

/-- What a modification would come to if it were the first. -/
lemma exists_edit (t : SyntaxTree) (settings : TransformSettings) (job : Modification × Point) :
    ∃ e, ∀ tag, t.Addresses job tag →
      t.ComesTo tag.node (·.applyAt settings job.1 job.2) (t.applyAt settings job.1 job.2).1 e := by
  by_cases htag : ∃ tag, t.Addresses job tag
  · obtain ⟨tag, htag⟩ := htag
    obtain ⟨o, e, hcomes⟩ := exists_edit_applyAt settings htag.action htag.holds htag.tag_eq
    refine ⟨e, fun tag' htag' => ?_⟩
    obtain rfl := Option.some.inj (htag.tag_eq.symm.trans htag'.tag_eq)
    have ho : (t.applyAt settings job.1 job.2).1 = o :=
      congrArg Prod.fst (hcomes.change_eq t (.refl t tag.node))
    rwa [ho]
  · exact ⟨.keep, fun tag h => absurd ⟨tag, h⟩ htag⟩

/-- Modifications at tags that differ, and that have had no edit yet, make the edits that each of
them would make at first. -/
theorem realizes_applyJobs (h : t.Shaped) (settings : TransformSettings)
    {edit : Modification × Point → Edit}
    (hedit : ∀ job tag, t.Addresses job tag → t.ComesTo tag.node (·.applyAt settings job.1 job.2)
      (t.applyAt settings job.1 job.2).1 (edit job))
    (hjobs : ∀ job ∈ jobs, ∃ tag, t.Addresses job tag) (hnodup : (tagNodes jobs).Nodup)
    (hr : Realizes t es u)
    (hun : ∀ job ∈ jobs, ∀ tag, t.Addresses job tag → Undisturbed t u tag.node)
    (hes : ∀ job ∈ jobs, ∀ place, (edit job).place? = some place →
      ∀ e ∈ es, e.place? ≠ some place) :
    (u.applyJobs settings jobs).1 = jobs.map (fun job => (t.applyAt settings job.1 job.2).1)
      ∧ ∃ es', Realizes t es' (u.applyJobs settings jobs).2
        ∧ ∀ e, e ∈ es' ↔ e ∈ es ∨ ∃ job ∈ jobs, edit job = e := by
  induction jobs generalizing u es with
  | nil => exact ⟨rfl, es, hr, fun e => by simp⟩
  | cons job jobs ih =>
      obtain ⟨tag, htag⟩ := hjobs job List.mem_cons_self
      have hu := hun job List.mem_cons_self tag htag
      obtain ⟨hfits, hchange⟩ := hedit job tag htag
      have hisTag := (htag.holds.located htag.tag_eq).isTag
      have hisTag' : (u.kind tag.node).isTag = true := by
        rwa [hr.kind_eq _ (lt_size_of_isTag hisTag)]
      obtain ⟨hfresh, hnodup⟩ := List.nodup_cons.mp hnodup
      -- no modification to come is at the same tag
      have hne : ∀ job' ∈ jobs, ∀ tag', t.Addresses job' tag' → tag'.node ≠ tag.node :=
        fun job' hjob' tag' htag' heq => hfresh (List.mem_map.mpr ⟨job', hjob', by
          dsimp only
          rw [htag'.tag_eq, htag.tag_eq, Option.map_some, Option.map_some, heq]⟩)
      have hstep := hr.cons h hfits hu hisTag (hes job List.mem_cons_self)
      obtain ⟨hout, es', hr', hmem⟩ :=
        ih (fun job' hjob' => hjobs job' (List.mem_cons_of_mem _ hjob'))
        hnodup hstep
        (fun job' hjob' tag' htag' => by
          have hg := (htag'.holds.located htag'.tag_eq).isTag
          have hu' := hun job' (List.mem_cons_of_mem _ hjob') tag' htag'
          refine hu'.trans ((hfits.of_undisturbed hu).undisturbed hr.shaped hisTag' ?_
            (hne job' hjob' tag' htag'))
          rwa [hr.kind_eq _ (lt_size_of_isTag hg)])
        (fun job' hjob' place hplace => by
          obtain ⟨tag', htag'⟩ := hjobs job' (List.mem_cons_of_mem _ hjob')
          have hg := (htag'.holds.located htag'.tag_eq).isTag
          refine List.forall_mem_cons.mpr
            ⟨?_, hes job' (List.mem_cons_of_mem _ hjob') place hplace⟩
          exact (hedit job' tag' htag').fits.place?_ne h hfits (hne job' hjob' tag' htag').symm hg
            hisTag hplace)
      rw [applyJobs, hchange u hu]
      refine ⟨congrArg _ hout, es', hr', fun e => ?_⟩
      rw [hmem e, List.mem_cons, List.exists_mem_cons_iff, eq_comm (a := e)]
      tauto

/-- Class lists and properties at different tags leave the same text in whatever order they are
applied, and each has the answer that it would have had as the first. -/
theorem applyJobs_perm (h : t.Shaped) (settings : TransformSettings)
    (hjobs : ∀ job ∈ jobs, ∃ tag, t.Addresses job tag)
    (hnodup : (tagNodes jobs).Nodup) (hperm : order.Perm jobs) :
    (t.applyJobs settings order).1 = order.map (fun job => (t.applyAt settings job.1 job.2).1)
      ∧ (t.applyJobs settings order).2.render = (t.applyJobs settings jobs).2.render := by
  choose edit hedit using t.exists_edit settings
  have hrun : ∀ {row : List (Modification × Point)}, row.Perm jobs → _ := fun {row} hrow =>
    realizes_applyJobs h settings hedit
      (fun job hjob => hjobs job (hrow.mem_iff.mp hjob))
      ((hrow.map _).nodup_iff.mpr hnodup) (.nil h) (fun job _ tag _ => .refl t tag.node)
      (fun _ _ _ _ _ he => absurd he List.not_mem_nil)
  obtain ⟨hout, es, hr, hmem⟩ := hrun hperm
  obtain ⟨-, es', hr', hmem'⟩ := hrun (List.Perm.refl jobs)
  refine ⟨hout, hr.text_eq hr' h.toLinked (fun e => ?_) h.root_lt⟩
  rw [hmem e, hmem' e]
  simp only [hperm.mem_iff]

/-! ### Points of one modification -/

/-- The points of a pass name each tag once. -/
lemma tagNodes_pointsBefore (h : t.Document) (classAttributes : List String) (m : Modification)
    (pending : List Modification) :
    (tagNodes ((t.pointsBefore classAttributes m pending).map fun point => (m, point))).Nodup := by
  have hpoints : (t.points classAttributes m).map (fun point => point.tag?.map Tag.node)
      = ((t.tagsNamed m.target).map Tag.node).map some := by
    rw [points, List.map_map, List.map_map]
    refine List.map_congr_left fun tag _ => ?_
    rw [Function.comp_apply, tag?_pointAt]
    rfl
  have hnodup : ((t.points classAttributes m).map fun point => point.tag?.map Tag.node).Nodup := by
    rw [hpoints]
    exact (h.findsTags m.target).nodup.map (Option.some_injective _)
  rw [tagNodes, List.map_map]
  exact hnodup.sublist (List.filter_sublist.map _)

/-- Each point of a pass addresses a tag of the tree. -/
lemma addresses_pointsBefore {classAttributes : List String} {m : Modification}
    {pending : List Modification} (hm : m.action ≠ .wrapElement) {point : Point}
    (hp : point ∈ t.pointsBefore classAttributes m pending) :
    ∃ tag, t.Addresses (m, point) tag := by
  obtain ⟨tag, -, heq⟩ := exists_of_mem_points (List.mem_filter.mp hp).1
  exact ⟨tag, hm, holds_of_mem_pointsBefore hp, heq ▸ tag?_pointAt _ _ _ tag⟩

/-- In a module that was reached from one that obeys the grammar, two modifications that add classes
or properties at different tags leave the same text in either order, and have the same answers. The
points of one such modification can be visited in any order: the text is the same, and each point
has the answer that it would have had as the first. -/
theorem Reached.tags_commute {source : List Char} {tree : Syntax.Cst} (h : Reached source tree t)
    (htree : tree.Grammatical) (settings : TransformSettings) :
    (∀ (m₁ m₂ : Modification) (p₁ p₂ : Point) (tag₁ tag₂ : Tag),
      m₁.action ≠ .wrapElement → t.Holds p₁ → p₁.tag? = some tag₁ →
      m₂.action ≠ .wrapElement → t.Holds p₂ → p₂.tag? = some tag₂ → tag₁.node ≠ tag₂.node →
      let r₁ := t.applyAt settings m₁ p₁
      let r₂ := t.applyAt settings m₂ p₂
      let r₁₂ := r₁.2.applyAt settings m₂ p₂
      let r₂₁ := r₂.2.applyAt settings m₁ p₁
      r₁₂.2.render = r₂₁.2.render ∧ r₁.1 = r₂₁.1 ∧ r₁₂.1 = r₂.1)
    ∧ ∀ (m : Modification) (classAttributes : List String) (pending : List Modification)
      (visits : List Point), m.action ≠ .wrapElement →
      visits.Perm (t.pointsBefore classAttributes m pending) →
      (t.applyAtAll settings m visits).2.render
          = (t.applyAtAll settings m (t.pointsBefore classAttributes m pending)).2.render
        ∧ (t.applyAtAll settings m visits).1
          = visits.map fun point => (t.applyAt settings m point).1 := by
  have hs := h.shaped htree
  constructor
  · intro m₁ m₂ p₁ p₂ tag₁ tag₂ hm₁ hp₁ htag₁ hm₂ hp₂ htag₂ hne r₁ r₂ r₁₂ r₂₁
    have hjobs : ∀ job ∈ [(m₁, p₁), (m₂, p₂)], ∃ tag, t.Addresses job tag :=
      List.forall_mem_cons.mpr ⟨⟨tag₁, hm₁, hp₁, htag₁⟩,
        List.forall_mem_singleton.mpr ⟨tag₂, hm₂, hp₂, htag₂⟩⟩
    have hnodup : (tagNodes [(m₁, p₁), (m₂, p₂)]).Nodup := by
      simp [tagNodes, htag₁, htag₂, hne]
    obtain ⟨hout, -⟩ := applyJobs_perm hs settings hjobs hnodup (.refl _)
    -- The other order is a permutation of the same two jobs.
    obtain ⟨hout', hrender⟩ := applyJobs_perm hs settings hjobs hnodup
      (List.Perm.swap (m₁, p₁) (m₂, p₂) [])
    simp only [applyJobs, List.map_cons, List.map_nil, List.cons.injEq, and_true, true_and]
      at hout hout' hrender
    exact ⟨hrender.symm, hout'.symm, hout⟩
  · intro m classAttributes pending visits hm hperm
    obtain ⟨hout, hrender⟩ := applyJobs_perm hs settings
      (fun job hjob => by
        obtain ⟨point, hp, rfl⟩ := List.mem_map.mp hjob
        exact addresses_pointsBefore hm hp)
      (tagNodes_pointsBefore hs.toDocument classAttributes m pending)
      (hperm.map fun point => (m, point))
    rw [applyJobs_map, applyJobs_map] at hrender
    rw [applyJobs_map, List.map_map] at hout
    exact ⟨hrender, hout⟩

/-- The concrete tree of a tag with another one in an attribute, `<ab x={<b/>} class='c'/>`. -/
def nestedTags : Syntax.Cst :=
  .node (.named .program) none 0 24
    [.node (.named .selfClosingElement) none 0 24
      [.node (.token "<") none 0 1 [], .node (.named .identifier) (some .name) 1 3 [],
        .node (.named .attribute) (some .attribute) 4 12
          [.node (.named .propertyName) none 4 5 [], .node (.token "=") none 5 6 [],
            .node (.named .container) none 6 12
              [.node (.token "\x7b") none 6 7 [],
                .node (.named .selfClosingElement) none 7 11
                  [.node (.token "<") none 7 8 [], .node (.named .identifier) (some .name) 8 9 [],
                    .node (.token "/>") none 9 11 []],
                .node (.token "\x7d") none 11 12 []]],
        .node (.named .attribute) (some .attribute) 13 22
          [.node (.named .propertyName) none 13 18 [], .node (.token "=") none 18 19 [],
            .node (.named .string) none 19 22 []],
        .node (.token "/>") none 22 24 []]]

/-- A class of the outer tag and a property of the inner one; and a property of both, from the inner
one out. -/
theorem tags_commute_nestedTags :
    let t := ofConcrete "<ab x=\x7b<b/>\x7d class='c'/>".toList nestedTags
    let outer : Tag := ⟨1, 1, "ab", some ⟨1, 1⟩⟩
    let inner : Tag := ⟨9, 9, "b", some ⟨1, 8⟩⟩
    let addsClass : Modification := ⟨"ab", .addClass, "d"⟩
    let addsProp : Modification := ⟨"b", .addProp, "z=1"⟩
    let r₁ := t.applyAt {} addsClass (.classAttribute outer 14)
    let r₂ := t.applyAt {} addsProp (.openingTag inner)
    let r₁₂ := r₁.2.applyAt {} addsProp (.openingTag inner)
    let r₂₁ := r₂.2.applyAt {} addsClass (.classAttribute outer 14)
    let inOrder := t.pointsBefore [] addsProp []
    nestedTags.Grammatical
      ∧ r₁₂.2.render = "<ab x=\x7b<b z=\"1\"/>\x7d class='c d'/>"
      ∧ inOrder = [.openingTag outer, .openingTag inner]
      ∧ (r₁₂.2.render = r₂₁.2.render ∧ r₁.1 = r₂₁.1 ∧ r₁₂.1 = r₂.1)
      ∧ (t.applyAtAll {} addsProp inOrder.reverse).2.render
        = (t.applyAtAll {} addsProp inOrder).2.render
      ∧ (t.applyAtAll {} addsProp inOrder.reverse).1
        = inOrder.reverse.map fun point => (t.applyAt {} addsProp point).1 := by
  intro t outer inner addsClass addsProp r₁ r₂ r₁₂ r₂₁ inOrder
  have htree : nestedTags.Grammatical := by decide +kernel
  have houter : t.Located outer := ⟨by decide +kernel, by decide +kernel, by decide +kernel⟩
  have hinner : t.Located inner := ⟨by decide +kernel, by decide +kernel, by decide +kernel⟩
  have hclass : t.Holds (.classAttribute outer 14) :=
    ⟨houter, by decide +kernel, by decide +kernel⟩
  have ht : Reached "<ab x=\x7b<b/>\x7d class='c'/>".toList nestedTags t := .read
  obtain ⟨htwo, hvisits⟩ := Reached.tags_commute ht htree {}
  exact ⟨htree, by decide +kernel, by decide +kernel,
    htwo addsClass addsProp _ _ outer inner nofun hclass rfl nofun hinner rfl (by decide),
    hvisits addsProp [] [] inOrder.reverse nofun inOrder.reverse_perm⟩

end Restyle.SyntaxTree
