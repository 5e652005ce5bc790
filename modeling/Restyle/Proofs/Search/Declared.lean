import Restyle.Proofs.Search.Amend
import Restyle.Proofs.Search.Attribute
import Restyle.Search.VariantGroup

/-!
The groups that a module declares, after an edit of it.

* `Declarative`: a module in which the keys of objects hold no markup, and tags open with an angle
  bracket;
* `Declarative.angle_mem_text`: so a call of a function that holds a tag is no call of `cva`;
* `Additions`: what the new nodes of an edit are;
* `Amends.Fresh`: a new node that took nobody's place, under which everything is such a node;
* `Amends.groupsOfCall_eq`, `Amends.groupsBelow_eq`: each call declares what it declared, and so
  does what stands in the place of a node;
* `Amends.declarative`, `Amends.declaredGroups_eq`: the edit leaves the groups of the module.
-/

namespace Restyle.SyntaxTree

variable {t t' : SyntaxTree} {place : NodeId} {heir : NodeId → NodeId}

/-- The groups that the calls at and below a node declare, in document order. -/
def groupsBelow (t : SyntaxTree) (x : NodeId) : List String :=
  ((t.descendants x).filter t.isVariantCall).flatMap t.groupsOfCall

/-- The groups that a node declares if it is a call. -/
def groupsAt (t : SyntaxTree) (x : NodeId) : List String :=
  if t.isVariantCall x then t.groupsOfCall x else []

/-- The groups below a node are those at the nodes below it, in their order. -/
lemma groupsBelow_eq_flatMap (t : SyntaxTree) (x : NodeId) :
    t.groupsBelow x = (t.descendants x).flatMap t.groupsAt := by
  rw [groupsBelow]
  induction t.descendants x with
  | nil => rfl
  | cons d ds ih =>
      rw [List.flatMap_cons, groupsAt, ← ih]
      by_cases hd : t.isVariantCall d = true
      · rw [List.filter_cons_of_pos hd, List.flatMap_cons, if_pos hd]
      · rw [List.filter_cons_of_neg hd, if_neg hd, List.nil_append]

lemma Linked.groupsBelow_eq (h : t.Linked) {x : NodeId} (hx : x < t.size) :
    t.groupsBelow x = t.groupsAt x ++ (t.children x).flatMap t.groupsBelow := by
  rw [groupsBelow_eq_flatMap, h.descendants_eq hx, List.flatMap_cons, List.flatMap_assoc]
  simp only [← groupsBelow_eq_flatMap]

lemma groupsAt_of_ne_call {x : NodeId} (hx : t.kind x ≠ .call) : t.groupsAt x = [] := by
  rw [groupsAt, isVariantCall, decide_eq_false hx, Bool.false_and, if_neg Bool.false_ne_true]

/-- Where there is no call, no group is declared. -/
lemma groupsBelow_eq_nil {x : NodeId} (hx : ∀ d ∈ t.descendants x, t.kind d ≠ .call) :
    t.groupsBelow x = [] := by
  rw [groupsBelow_eq_flatMap, List.flatMap_eq_nil_iff]
  exact fun d hd => groupsAt_of_ne_call (hx d hd)

lemma valueUnder?_lt (h : t.Linked) {o v : NodeId} {key : String}
    (hv : t.valueUnder? o key = some v) : v < t.size := by
  obtain ⟨p, -, hv⟩ := Option.bind_eq_some_iff.mp hv
  exact h.lt_of_mem (childIn?_spec hv).1

/-! ### Declarations apart from markup -/

/-- What stands in a node of the module is written in it. -/
lemma WellFormed.text_infix (h : t.WellFormed) {x f : NodeId} (hx : x ∈ t.descendants root)
    (hf : t.Under f x) : (t.text x).toList <:+: (t.text f).toList := by
  induction hf with
  | refl => exact List.infix_rfl
  | @step x p hp _ ih =>
      refine List.IsInfix.trans ?_ (ih (parent_mem_descendants h.toLinked hx hp))
      obtain ⟨gap, hslot⟩ := mem_children_iff.mp (mem_children_of_parent h.toLinked hx hp)
      obtain ⟨l, r, hslots⟩ := List.append_of_mem hslot
      rw [h.text_of_slots hslots]
      simp only [String.toList_append]
      exact ⟨_, _, rfl⟩

/-- A module in which markup stays out of declarations: there is none in the keys of objects, and
what holds a tag has its angle bracket. -/
structure Declarative (t : SyntaxTree) : Prop extends Shaped t where
  key_quiet : ∀ p, t.kind p = .pair → ∀ c, t.childIn? p .key = some c → t.Quiet c
  string_bare : ∀ s, t.kind s = .stringLiteral → ∀ d, t.Under s d →
    t.kind d ≠ .call ∧ t.kind d ≠ .object
  element_bare : ∀ x, (t.kind x).isElement = true → ∀ c ∈ t.children x, t.kind c ≠ .object
  attribute_in_tag : ∀ a, t.kind a = .attribute →
    ∃ g, t.parent a = some g ∧ (t.kind g).isTag = true
  tag_mem : ∀ g, (t.kind g).isTag = true → g ∈ t.descendants root
  tag_opens : ∀ g, (t.kind g).isTag = true →
    ∃ c ∈ t.children g, t.kind c = .token ∧ t.text c = "<"

/-- What holds a tag is written with an angle bracket. -/
lemma Declarative.angle_mem_text (h : t.Declarative) {f : NodeId} (hf : ¬ t.Quiet f)
    (hattr : t.kind f ≠ .attribute) : '<' ∈ (t.text f).toList := by
  have htag : ∃ g, t.Under f g ∧ (t.kind g).isTag = true := by
    simp only [Quiet, not_forall, not_and_or, not_not] at hf
    obtain ⟨d, hd, htag | hd'⟩ := hf
    · exact ⟨d, hd, Bool.of_not_eq_false htag⟩
    · obtain ⟨g, hg, htag⟩ := h.attribute_in_tag d hd'
      cases hd with
      | refl => exact absurd hd' hattr
      | step hp hunder =>
          rw [hg, Option.some.injEq] at hp
          exact ⟨g, hp ▸ hunder, htag⟩
  obtain ⟨g, hunder, htag⟩ := htag
  obtain ⟨c, hc, -, htext⟩ := h.tag_opens g htag
  have hinfix := h.text_infix (child_mem_descendants h.toLinked (h.tag_mem g htag) hc)
    (hunder.trans (Under.of_mem h.toLinked hc))
  rw [htext] at hinfix
  exact hinfix.subset (List.mem_singleton_self _)

/-- A function that holds a tag is not called `cva`. -/
lemma Declarative.text_ne_cva (h : t.Declarative) {f : NodeId} (hf : ¬ t.Quiet f)
    (hattr : t.kind f ≠ .attribute) : t.text f ≠ "cva" := fun heq => by
  have hmem := h.angle_mem_text hf hattr
  rw [heq] at hmem
  exact absurd hmem (by decide)

lemma Declarative.objects_of_element (h : t.Declarative) {x : NodeId}
    (hx : (t.kind x).isElement = true) : t.childrenThatAre x .object = [] :=
  List.filter_eq_nil_iff.mpr fun c hc hobject =>
    h.element_bare x hx c hc (of_decide_eq_true hobject)

/-! ### New nodes -/

/-- What an edit adds: no calls and no objects, attributes in tags, and tags in the module. -/
structure Additions (t t' : SyntaxTree) : Prop where
  plain : ∀ x, t.size ≤ x → t'.kind x ≠ .call ∧ t'.kind x ≠ .object ∧ t'.kind x ≠ .pair
  attribute_in_tag : ∀ a, t.size ≤ a → t'.kind a = .attribute →
    ∃ g, t'.parent a = some g ∧ (t'.kind g).isTag = true
  tag_mem : ∀ g, t.size ≤ g → (t'.kind g).isTag = true → g ∈ t'.descendants root
  tag_opens : ∀ g, t.size ≤ g → (t'.kind g).isTag = true →
    ∃ c ∈ t'.children g, t'.kind c = .token ∧ t'.text c = "<"

lemma Additions.lt_size (h : Additions t t') {x : NodeId}
    (hk : t'.kind x = .object ∨ t'.kind x = .pair) : x < t.size := by
  by_contra hge
  have hplain := h.plain x (Nat.le_of_not_lt hge)
  exact hk.elim hplain.2.1 hplain.2.2

namespace Amends

/-- A new node that is nobody's heir. -/
structure Fresh (t : SyntaxTree) (heir : NodeId → NodeId) (x : NodeId) : Prop where
  size_le : t.size ≤ x
  not_heir : ∀ y, heir y = x → y = x

/-- An heir that moved in stands where the node before stood. -/
lemma parent_heir (ha : Amends t t' place heir) (h : t.Shaped) {y : NodeId} (hy : heir y ≠ y) :
    t'.parent (heir y) = some place := by
  have hm := ha.moved y hy
  have hmem := mem_children_of_parent h.toLinked hm.mem hm.parent_eq
  refine ha.document.parent_of_mem (ha.heir_mem hmem fun hk => hm.not_quiet ?_)
  exact ((h.regular place).quiet_string hk).of_under (.step hm.parent_eq .refl)

/-- An old node that comes to stand below a new one moved there. -/
lemma heir_of_parent (ha : Amends t t' place heir) (h : t.Shaped) {d q : NodeId}
    (hd : t'.parent d = some q) (hq : t.size ≤ q) (hlt : d < t.size) : heir d = q := by
  by_cases hheir : heir d = d
  · rw [ha.parent_eq d hlt hheir] at hd
    exact absurd (h.parent_lt hd) (Nat.not_lt.mpr hq)
  · rwa [ha.parent_moved hheir, Option.some.injEq] at hd

/-- Nobody's heir stands below a new node. -/
lemma not_heir_of_parent (ha : Amends t t' place heir) (h : t.Shaped) {d q : NodeId}
    (hd : t'.parent d = some q) (hq : t.size ≤ q) (y : NodeId) (hy : heir y = d) : y = d := by
  by_contra hne
  have hy' : heir y ≠ y := fun heq => hne (heq.symm.trans hy)
  have hplace := ha.parent_heir h hy'
  rw [hy, hd, Option.some.injEq] at hplace
  exact absurd (h.parent_lt (ha.moved y hy').parent_eq) (Nat.not_lt.mpr (hplace ▸ hq))

/-- Only elements are heirs that moved in. -/
lemma fresh_of_ne_element (ha : Amends t t' place heir) {x : NodeId} (hx : t.size ≤ x)
    (hk : t'.kind x ≠ .element) : Fresh t heir x := by
  refine ⟨hx, fun y hy => ?_⟩
  by_contra hne
  have hmoved : heir y ≠ y := fun heq => hne (heq.symm.trans hy)
  exact hk (hy ▸ (ha.moved y hmoved).kind_new)

/-- Below a fresh node there are only fresh ones. -/
lemma Fresh.of_parent (ha : Amends t t' place heir) (h : t.Shaped) {p d : NodeId}
    (hp : Fresh t heir p) (hd : t'.parent d = some p) : Fresh t heir d := by
  refine ⟨?_, ha.not_heir_of_parent h hd hp.size_le⟩
  by_contra hlt
  rw [Nat.not_le] at hlt
  have heq := hp.not_heir d (ha.heir_of_parent h hd hp.size_le hlt)
  exact absurd hlt (Nat.not_lt.mpr (heq ▸ hp.size_le))

lemma Fresh.of_under (ha : Amends t t' place heir) (h : t.Shaped) {x d : NodeId}
    (hx : Fresh t heir x) (hd : t'.Under x d) : Fresh t heir d := by
  induction hd with
  | refl => exact hx
  | step hp _ ih => exact ih.of_parent ha h hp

lemma groupsBelow_of_fresh (ha : Amends t t' place heir) (h : t.Shaped) (hadds : Additions t t')
    {x : NodeId} (hx : Fresh t heir x) (hlt : x < t'.size) : t'.groupsBelow x = [] :=
  groupsBelow_eq_nil fun d hd =>
    (hadds.plain d
      (hx.of_under ha h (under_of_mem_descendants ha.document.toLinked hlt hd)).size_le).1

/-- What stands below an heir that moved in: the node before, between fresh ones. -/
lemma children_heir (ha : Amends t t' place heir) (h : t.Shaped) {x : NodeId} (hx : heir x ≠ x) :
    ∃ l r, t'.children (heir x) = l ++ x :: r ∧ ∀ d ∈ l ++ r, Fresh t heir d := by
  have hl' := ha.document.toLinked
  have hm := ha.moved x hx
  obtain ⟨l, r, hchildren⟩ := List.append_of_mem (onlyElement?_mem hm.only)
  refine ⟨l, r, hchildren, fun d hd => ?_⟩
  have hparent : t'.parent d = some (heir x) := hl'.parent_of_mem (by
    rw [hchildren]
    exact List.mem_append.mpr ((List.mem_append.mp hd).imp id (List.mem_cons_of_mem _)))
  have hne : d ≠ x := by
    rintro rfl
    have hnodup := hl'.nodup (heir d)
    rw [hchildren, List.nodup_middle, List.nodup_cons] at hnodup
    exact hnodup.1 hd
  refine ⟨?_, ha.not_heir_of_parent h hparent hm.le_new⟩
  by_contra hlt
  rw [Nat.not_le] at hlt
  -- two nodes do not move under one heir
  have hheir := ha.heir_of_parent h hparent hm.le_new hlt
  have honly := (ha.moved d fun heq => absurd hm.le_new (Nat.not_le.mpr
    (hheir ▸ heq.symm ▸ hlt))).only
  rw [hheir, hm.only, Option.some.injEq] at honly
  exact hne honly.symm

/-! ### What a call declares -/

/-- What lies under a node lies under what stands in its place. -/
lemma under_heir (ha : Amends t t' place heir) (h : t.Shaped) {f d : NodeId}
    (hd : t.Under f d) : t'.Under (heir f) d := by
  induction hd with
  | refl =>
      by_cases hf : heir f = f
      · rw [hf]
        exact .refl
      · exact .step (ha.parent_moved hf) .refl
  | @step d p hp _ ih =>
      by_cases hd : heir d = d
      · exact .step ((ha.parent_eq d (lt_size_of_parent hp) hd).trans hp) ih
      · have hplace := (ha.moved d hd).parent_eq
        rw [hp, Option.some.injEq] at hplace
        exact .step (ha.parent_moved hd) (.step (ha.parent_heir h hd) (hplace ▸ ih))

/-- The heir of a loud node is loud. -/
lemma not_quiet_heir (ha : Amends t t' place heir) (h : t.Shaped) {f : NodeId}
    (hf : f < t.size) (hq : ¬ t.Quiet f) : ¬ t'.Quiet (heir f) := fun hquiet => hq fun d hd => by
  have hlt : d < t.size := by
    cases hd with
    | refl => exact hf
    | step hp _ => exact lt_size_of_parent hp
  rw [← ha.kind_eq d hlt]
  exact hquiet d (ha.under_heir h hd)

/-- What stands in the place of a called function is `cva` exactly if that was. -/
lemma text_heir_eq_cva (ha : Amends t t' place heir) (h : t.Declarative) (h' : t'.Declarative)
    {x f : NodeId} (hx : t.kind x = .call) (hf : t.parent f = some x) :
    t'.text (heir f) = "cva" ↔ t.text f = "cva" := by
  have hlt := lt_size_of_parent hf
  by_cases hq : t.Quiet f
  · have hsteady : t.Steady f := ⟨hq, h.ne_root_of_parent hf, fun a ha hattr => by
      rw [hf, Option.some.injEq] at ha
      rw [← ha, hx] at hattr
      cases hattr⟩
    rw [ha.heir_of_quiet hq, ha.text_eq h.toShaped hlt hsteady]
  · -- with markup in it, the function is written with an angle bracket before and after
    have hattr : t.kind f ≠ .attribute := fun hk => by
      obtain ⟨g, hg, htag⟩ := h.attribute_in_tag f hk
      rw [hf, Option.some.injEq] at hg
      rw [← hg, hx] at htag
      cases htag
    exact iff_of_false (h'.text_ne_cva (ha.not_quiet_heir h.toShaped hlt hq)
      (ha.kind_heir_ne_attribute hlt hattr)) (h.text_ne_cva hq hattr)

/-- An edit makes no call a variant call, and takes none away. -/
lemma isVariantCall_eq (ha : Amends t t' place heir) (h : t.Declarative) (h' : t'.Declarative)
    {x : NodeId} (hx : x < t.size) : t'.isVariantCall x = t.isVariantCall x := by
  rw [isVariantCall, isVariantCall, ha.kind_eq x hx]
  by_cases hk : t.kind x = .call
  · rw [ha.childIn?_eq h.toShaped hx (by rw [hk]; decide) (by decide), Option.any_map]
    cases hf : t.childIn? x .function with
    | none => rfl
    | some f =>
        have hparent := h.parent_of_mem (childIn?_spec hf).1
        rw [Option.any_some, Option.any_some,
          decide_eq_decide.mpr (ha.text_heir_eq_cva h h' hk hparent)]
  · rw [decide_eq_false hk, Bool.false_and, Bool.false_and]

/-- Calls, objects and pairs are neither moved nor added. -/
lemma kind_heir_iff (ha : Amends t t' place heir) {c : NodeId} (hc : c < t.size) {k : NodeKind}
    (hk : k.isElement = false) : t'.kind (heir c) = k ↔ t.kind c = k ∧ heir c = c := by
  by_cases hheir : heir c = c
  · rw [hheir, ha.kind_eq c hc, and_iff_left rfl]
  · refine iff_of_false (fun heq => ?_) fun heq => hheir heq.2
    rw [(ha.moved c hheir).kind_new] at heq
    rw [← heq] at hk
    cases hk

/-- An edit changes no children of a kind that it neither moves nor adds. -/
lemma childrenThatAre_eq (ha : Amends t t' place heir) (h : t.Shaped) {x : NodeId}
    (hx : x < t.size) {k : NodeKind} (hk : k.isElement = false) (hnew : t'.kind t.size ≠ k)
    (hstring : t.kind x = .stringLiteral → t.childrenThatAre x k = []) :
    t'.childrenThatAre x k = t.childrenThatAre x k := by
  have hheir : ∀ c ∈ t.children x, t.kind c = k → heir c = c := fun c _ hkind =>
    ha.heir_of_not_element (by rw [hkind]; exact hk)
  have hsame : ∀ c ∈ t.children x, decide (t'.kind (heir c) = k) = decide (t.kind c = k) :=
    fun c hc => decide_eq_decide.mpr
      ((ha.kind_heir_iff (h.lt_of_mem hc) hk).trans (and_iff_left_of_imp (hheir c hc)))
  cases ha.children x hx with
  | kept heq =>
      rw [childrenThatAre, childrenThatAre, heq, List.filter_map]
      rw [List.filter_congr fun c hc => by rw [Function.comp_apply, hsame c hc]]
      refine (List.map_congr_left fun c hc => ?_).trans (List.map_id _)
      rw [List.mem_filter, decide_eq_true_eq] at hc
      exact hheir c hc.1 hc.2
  -- A string that is rewritten had no such child.
  | cut hkind hnil => rw [hstring hkind, childrenThatAre, hnil, List.filter_nil]
  | joined _ hid _ hl hl' =>
      have hsame' : ∀ c ∈ t.children x, decide (t'.kind c = k) = decide (t.kind c = k) :=
        fun c hc => by rw [← hsame c hc, hid]
      rw [hl] at hsame'
      rw [childrenThatAre, childrenThatAre, hl', hl, List.filter_append, List.filter_append,
        List.filter_cons_of_neg (by simpa using hnew),
        List.filter_congr fun c hc => hsame' c (List.mem_append_left _ hc),
        List.filter_congr fun c hc => hsame' c (List.mem_append_right _ hc)]

/-- Keys stay as they are. -/
lemma keyOfPair?_eq (ha : Amends t t' place heir) (h : t.Declarative) {p : NodeId}
    (hk : t.kind p = .pair) (hp : p < t.size) : t'.keyOfPair? p = t.keyOfPair? p := by
  rw [keyOfPair?, keyOfPair?, ha.childIn?_eq h.toShaped hp (by rw [hk]; decide) (by decide)]
  cases hc : t.childIn? p .key with
  | none => rfl
  | some c =>
      obtain ⟨hmem, hrole⟩ := childIn?_spec hc
      have hq := h.key_quiet p hk c hc
      have hlt := h.lt_of_mem hmem
      have hsteady : t.Steady c := ⟨hq, h.ne_root_of_parent (h.parent_of_mem hmem), fun _ _ _ => by
        rw [hrole]
        decide⟩
      rw [Option.map_some, Option.map_some, Option.map_some, ha.heir_of_quiet hq, quotation?,
        quotation?, ha.kind_eq c hlt, ha.text_eq h.toShaped hlt hsteady]

/-- An object keeps its pairs. -/
lemma pairs_eq (ha : Amends t t' place heir) (h : t.Shaped) (hadds : Additions t t') {o : NodeId}
    (hk : t.kind o = .object) (ho : o < t.size) :
    t'.childrenThatAre o .pair = t.childrenThatAre o .pair :=
  ha.childrenThatAre_eq h ho rfl (hadds.plain t.size le_rfl).2.2 fun hstring => by
    rw [hk] at hstring
    cases hstring

/-- The value under a key is the heir of the one before. -/
lemma valueUnder?_eq (ha : Amends t t' place heir) (h : t.Declarative) (hadds : Additions t t')
    {o : NodeId} (hk : t.kind o = .object) (ho : o < t.size) (key : String) :
    t'.valueUnder? o key = (t.valueUnder? o key).map heir := by
  rw [valueUnder?, valueUnder?, ha.pairs_eq h.toShaped hadds hk ho]
  have hkeys : ∀ p ∈ t.childrenThatAre o .pair,
      decide (t'.keyOfPair? p = some key) = decide (t.keyOfPair? p = some key) := fun p hp => by
    obtain ⟨hmem, hpair⟩ := mem_childrenThatAre.mp hp
    rw [ha.keyOfPair?_eq h hpair (h.lt_of_mem hmem)]
  rw [List.find?_congr hkeys]
  cases hfind : (t.childrenThatAre o .pair).find? fun p => t.keyOfPair? p = some key with
  | none => rfl
  | some p =>
      obtain ⟨hmem, hpair⟩ := mem_childrenThatAre.mp (List.mem_of_find?_eq_some hfind)
      exact ha.childIn?_eq h.toShaped (h.lt_of_mem hmem) (by rw [hpair]; decide) (by decide)

/-- Options declare what they declared. -/
lemma groupsOfOptions_eq (ha : Amends t t' place heir) (h : t.Declarative) (hadds : Additions t t')
    {o : NodeId} (hk : t.kind o = .object) (ho : o < t.size) :
    t'.groupsOfOptions o = t.groupsOfOptions o := by
  rw [groupsOfOptions, groupsOfOptions, ha.valueUnder?_eq h hadds hk ho]
  cases hv : t.valueUnder? o "variants" with
  | none => rfl
  | some v =>
      have hlt := valueUnder?_lt h.toLinked hv
      have hiff := ha.kind_heir_iff hlt (k := .object) rfl
      rw [Option.map_some]
      dsimp only
      by_cases hobject : t.kind v = .object
      · have hheir := ha.heir_of_not_element (by rw [hobject]; rfl)
        rw [if_pos (hiff.mpr ⟨hobject, hheir⟩), if_pos hobject, hheir,
          ha.pairs_eq h.toShaped hadds hobject hlt]
        refine List.filterMap_congr fun p hp => ?_
        obtain ⟨hmem, hpair⟩ := mem_childrenThatAre.mp hp
        exact ha.keyOfPair?_eq h hpair (h.lt_of_mem hmem)
      · rw [if_neg fun heq => hobject (hiff.mp heq).1, if_neg hobject]

/-- A call declares what it declared. -/
lemma groupsOfCall_eq (ha : Amends t t' place heir) (h : t.Declarative) (h' : t'.Declarative)
    (hadds : Additions t t') {x : NodeId} (hk : t.kind x = .call) (hx : x < t.size) :
    t'.groupsOfCall x = t.groupsOfCall x := by
  rw [groupsOfCall, groupsOfCall,
    ha.childIn?_eq h.toShaped hx (by rw [hk]; decide) (by decide)]
  cases hc : t.childIn? x .arguments with
  | none => rfl
  | some c =>
      have hlt := h.lt_of_mem (childIn?_spec hc).1
      rw [Option.map_some]
      dsimp only
      by_cases hheir : heir c = c
      · rw [hheir, ha.childrenThatAre_eq h.toShaped hlt rfl (hadds.plain t.size le_rfl).2.1
          fun hstring => ?_]
        · refine List.flatMap_congr fun o ho => ?_
          obtain ⟨hmem, hobject⟩ := mem_childrenThatAre.mp ho
          exact ha.groupsOfOptions_eq h hadds hobject (h.lt_of_mem hmem)
        · refine List.filter_eq_nil_iff.mpr fun o ho hobject => ?_
          exact (h.string_bare c hstring o (Under.of_mem h.toLinked ho)).2
            (of_decide_eq_true hobject)
      · -- an element in place of the arguments holds no object
        have hm := ha.moved c hheir
        rw [h.objects_of_element hm.isElement, h'.objects_of_element (by rw [hm.kind_new]; rfl),
          List.flatMap_nil, List.flatMap_nil]

/-- An edit leaves to each call the groups it declares. -/
lemma groupsAt_eq (ha : Amends t t' place heir) (h : t.Declarative) (h' : t'.Declarative)
    (hadds : Additions t t') {x : NodeId} (hx : x < t.size) : t'.groupsAt x = t.groupsAt x := by
  rw [groupsAt, groupsAt, ha.isVariantCall_eq h h' hx]
  split
  · next hcall =>
      rw [isVariantCall, Bool.and_eq_true, decide_eq_true_eq] at hcall
      exact ha.groupsOfCall_eq h h' hadds hcall.1 hx
  · rfl

/-! ### What a module declares -/

/-- What an heir that moved in declares is what the node before declares. -/
lemma groupsBelow_moved (ha : Amends t t' place heir) (h : t.Shaped) (hadds : Additions t t')
    {x : NodeId} (hx : heir x ≠ x) : t'.groupsBelow (heir x) = t'.groupsBelow x := by
  have hl' := ha.document.toLinked
  have hm := ha.moved x hx
  obtain ⟨l, r, hchildren, hfresh⟩ := ha.children_heir h hx
  have hmem : ∀ d ∈ l ++ r, d < t'.size := fun d hd => hl'.lt_of_mem (p := heir x) (by
    rw [hchildren]
    exact List.mem_append.mpr ((List.mem_append.mp hd).imp id (List.mem_cons_of_mem _)))
  have hnone : ∀ d ∈ l ++ r, t'.groupsBelow d = [] := fun d hd =>
    ha.groupsBelow_of_fresh h hadds (hfresh d hd) (hmem d hd)
  rw [hl'.groupsBelow_eq (lt_size_of_mem (onlyElement?_mem hm.only)),
    groupsAt_of_ne_call (by rw [hm.kind_new]; decide), List.nil_append, hchildren,
    List.flatMap_append, List.flatMap_cons,
    List.flatMap_eq_nil_iff.mpr fun d hd => hnone d (List.mem_append_left _ hd),
    List.flatMap_eq_nil_iff.mpr fun d hd => hnone d (List.mem_append_right _ hd),
    List.nil_append, List.append_nil]

/-- Below each old node is declared what was. -/
theorem groupsBelow_eq (ha : Amends t t' place heir) (h : t.Declarative) (h' : t'.Declarative)
    (hadds : Additions t t') {x : NodeId} (hx : x < t.size) :
    t'.groupsBelow x = t.groupsBelow x := by
  -- from the leaves up, for the children may have moved below wrappers
  induction x using h.toLinked.inductBelow with
  | step x ih =>
      have hbelow : ∀ c ∈ t.children x, t'.groupsBelow (heir c) = t.groupsBelow c := fun c hc => by
        rw [← ih c hc (h.lt_of_mem hc)]
        by_cases hc : heir c = c
        · rw [hc]
        · exact ha.groupsBelow_moved h.toShaped hadds hc
      rw [h'.toLinked.groupsBelow_eq (hx.trans_le ha.size_le), h.toLinked.groupsBelow_eq hx,
        ha.groupsAt_eq h h' hadds hx]
      congr 1
      cases ha.children x hx with
      | kept heq =>
          rw [heq, List.flatMap_map]
          exact List.flatMap_congr hbelow
      | cut hstring hnil =>
          rw [hnil, List.flatMap_nil, eq_comm, List.flatMap_eq_nil_iff]
          refine fun c hc => groupsBelow_eq_nil fun d hd => ?_
          have hunder := under_of_mem_descendants h.toLinked (h.lt_of_mem hc) hd
          exact (h.string_bare x hstring d (.of_parent (h.parent_of_mem hc) hunder)).1
      | joined _ hid _ hl hl' =>
          have hfresh : Fresh t heir t.size := ⟨le_rfl, fun y hy => (hid y).symm.trans hy⟩
          have hmem : t.size < t'.size := h'.lt_of_mem (p := x) (by rw [hl']; simp)
          simp only [hid, hl] at hbelow
          rw [hl', hl, List.flatMap_append, List.flatMap_append, List.flatMap_cons,
            ha.groupsBelow_of_fresh h.toShaped hadds hfresh hmem, List.nil_append,
            List.flatMap_congr fun c hc => hbelow c (List.mem_append_left _ hc),
            List.flatMap_congr fun c hc => hbelow c (List.mem_append_right _ hc)]

/-- An edit leaves the groups that the module declares. -/
theorem declaredGroups_eq (ha : Amends t t' place heir) (h : t.Declarative) (h' : t'.Declarative)
    (hadds : Additions t t') : t'.declaredGroups = t.declaredGroups :=
  ha.groupsBelow_eq h h' hadds h.root_lt

/-! ### Declarations stay apart from markup -/

/-- An edit keeps markup out of declarations. -/
theorem declarative (ha : Amends t t' place heir) (h : t.Declarative) (h' : t'.Shaped)
    (hadds : Additions t t') : t'.Declarative where
  toShaped := h'
  key_quiet := fun p hk c hc => by
    have hlt := hadds.lt_size (.inr hk)
    rw [ha.kind_eq p hlt] at hk
    rw [ha.childIn?_eq h.toShaped hlt (by rw [hk]; decide) (by decide),
      Option.map_eq_some_iff] at hc
    obtain ⟨c, hc, rfl⟩ := hc
    have hq := h.key_quiet p hk c hc
    rw [ha.heir_of_quiet hq]
    exact ha.quiet h.toShaped (h.lt_of_mem (childIn?_spec hc).1) hq
  string_bare := fun s hk d hd => by
    rcases Nat.lt_or_ge d t.size with hlt | hge
    · -- nothing old lies in a new string
      have hs : s < t.size := by
        by_contra hge
        have hfresh := ha.fresh_of_ne_element (Nat.le_of_not_lt hge) (by rw [hk]; decide)
        exact absurd hlt (Nat.not_lt.mpr (hfresh.of_under ha h.toShaped hd).size_le)
      rw [ha.kind_eq d hlt]
      exact h.string_bare s (ha.kind_eq s hs ▸ hk) d ((ha.under_of_under h.toShaped hd hs).1 hlt)
    · exact ⟨(hadds.plain d hge).1, (hadds.plain d hge).2.1⟩
  element_bare := fun x hk c hc hobject => by
    have hlt := hadds.lt_size (.inl hobject)
    have hheir := ha.heir_of_not_element (by rw [← ha.kind_eq c hlt, hobject]; rfl)
    -- an old node below a new one has moved there, and objects do not move
    have hx : x < t.size := by
      by_contra hge
      have hparent := h'.parent_of_mem hc
      have hmoved := ha.heir_of_parent h.toShaped hparent (Nat.le_of_not_lt hge) hlt
      exact hge (hmoved ▸ hheir.symm ▸ hlt)
    rw [ha.kind_eq x hx] at hk
    rw [ha.kind_eq c hlt] at hobject
    exact h.element_bare x hk c (ha.mem_of_mem_children hx hc hlt) hobject
  attribute_in_tag := fun a hk => by
    rcases Nat.lt_or_ge a t.size with hlt | hge
    · rw [ha.kind_eq a hlt] at hk
      obtain ⟨g, hg, htag⟩ := h.attribute_in_tag a hk
      refine ⟨g, ?_, by rwa [ha.kind_eq g (h.parent_lt hg)]⟩
      rw [ha.parent_eq a hlt (ha.heir_of_not_element (by rw [hk]; rfl)), hg]
    · exact hadds.attribute_in_tag a hge hk
  tag_mem := fun g htag => by
    rcases Nat.lt_or_ge g t.size with hlt | hge
    · rw [ha.kind_eq g hlt] at htag
      exact ha.mem_descendants h.toShaped (h.tag_mem g htag) fun hq => hq.not_under_tag htag .refl
    · exact hadds.tag_mem g hge htag
  tag_opens := fun g htag => by
    rcases Nat.lt_or_ge g t.size with hlt | hge
    · rw [ha.kind_eq g hlt] at htag
      obtain ⟨c, hc, htoken, htext⟩ := h.tag_opens g htag
      have hne : t.kind g ≠ .stringLiteral ∧ t.kind g ≠ .attribute := by
        constructor <;>
        · intro heq
          rw [heq] at htag
          cases htag
      have hheir := ha.heir_of_not_element (by rw [htoken]; rfl)
      refine ⟨c, hheir ▸ ha.heir_mem hc hne.1, ?_, ?_⟩
      · rw [ha.kind_eq c (h.lt_of_mem hc), htoken]
      · rw [ha.text_eq h.toShaped (h.lt_of_mem hc)
          (h.steady_leaf hc hne.2 (.inr htoken)), htext]
    · exact hadds.tag_opens g hge htag

end Amends

end Restyle.SyntaxTree
