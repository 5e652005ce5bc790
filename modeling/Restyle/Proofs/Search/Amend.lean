import Restyle.Proofs.Search.Shape
import Restyle.Proofs.Tree.Spot

/-!
What searches find in a module after an edit of it.

* `Amends`: an edit at one place, where each old node is followed by a node in its place, its heir;
* `Amends.tagAt?_eq`, `Amends.nameOfElement?_eq`: tags and elements keep their names;
* `Amends.onlyElement?_eq`, `Amends.chain`: elements that hold one element only still do, and chains
  of them only grow;
* `Amends.mem_descendants`, `Amends.old_of_mem`: no tag of the module is lost, and the other way
  round, a node of the module is an old one or new.
-/

namespace Restyle.SyntaxTree

variable {t t' : SyntaxTree} {place : NodeId} {heir : NodeId → NodeId}

/-- An element that was moved below a new one: its heir holds nothing else. -/
structure Moved (t t' : SyntaxTree) (place x new : NodeId) : Prop where
  mem : x ∈ t.descendants root
  isElement : (t.kind x).isElement = true
  not_quiet : ¬ t.Quiet x
  parent_eq : t.parent x = some place
  le_new : t.size ≤ new
  kind_new : t'.kind new = .element
  only : t'.onlyElement? new = some x

/-- The children of a node after an edit: those before, or their heirs; none, for a string that was
overwritten; or one more, which is no child that is searched for by its role. -/
inductive Handed (t t' : SyntaxTree) (heir : NodeId → NodeId) (x : NodeId) : Prop where
  | kept : t'.children x = (t.children x).map heir → Handed t t' heir x
  | cut : t.kind x = .stringLiteral → t'.children x = [] → Handed t t' heir x
  | joined {l r : List NodeId} :
      (t.kind x = .program ∨ (t.kind x).isTag = true ∧ t'.kind t.size = .attribute
        ∧ t.attributesEnd? x = some l.length) →
      (∀ y, heir y = y) → (∀ role, t'.role t.size = some role → role = .attribute) →
      t.children x = l ++ r → t'.children x = l ++ t.size :: r → Handed t t' heir x

/-- An edit of a module at a place. Each old node has an heir, which stands where it stood. -/
structure Amends (t t' : SyntaxTree) (place : NodeId) (heir : NodeId → NodeId) : Prop where
  document : t'.Document
  size_le : t.size ≤ t'.size
  kind_eq : ∀ x < t.size, t'.kind x = t.kind x
  position_eq : ∀ x < t.size, (t'.node x).position = (t.node x).position
  role_eq : ∀ x < t.size, t'.role (heir x) = t.role x
  parent_eq : ∀ x < t.size, heir x = x → t'.parent x = t.parent x
  parent_new : ∀ x p, t.size ≤ x → t'.parent x = some p →
    t.size ≤ p ∨ p = place ∧ t.kind place ≠ .text ∧ t.kind place ≠ .token
  children : ∀ x < t.size, Handed t t' heir x
  moved : ∀ x, heir x ≠ x → Moved t t' place x (heir x)
  onlyAt : OnlyAt t t' place
  apart : ∀ x, t.Steady x → ¬ t.Under x place
  quiet_new : ∀ x, t.Quiet x → t.Under x place → ∀ d, t.size ≤ d →
    (t'.kind d).isTag = false ∧ t'.kind d ≠ .attribute

namespace Amends

lemma heir_of_quiet (ha : Amends t t' place heir) {x : NodeId} (hx : t.Quiet x) : heir x = x := by
  by_contra h
  exact (ha.moved x h).not_quiet hx

lemma heir_of_not_element (ha : Amends t t' place heir) {x : NodeId}
    (hx : (t.kind x).isElement = false) : heir x = x := by
  by_contra h
  rw [(ha.moved x h).isElement] at hx
  cases hx

/-- What is steady is written as before. -/
lemma text_eq (ha : Amends t t' place heir) (h : t.Shaped) {x : NodeId} (hx : x < t.size)
    (hs : t.Steady x) : t'.text x = t.text x :=
  ha.onlyAt.text_eq h.toWellFormed ha.document.toWellFormed hx (ha.apart x hs)

/-! ### Children -/

/-- An element keeps its children, with their heirs for them. -/
lemma children_of_element (ha : Amends t t' place heir) {x : NodeId} (hx : x < t.size)
    (hk : t.kind x = .element) : t'.children x = (t.children x).map heir := by
  cases ha.children x hx with
  | kept h => exact h
  | cut h => rw [hk] at h; cases h
  | joined h =>
      rw [hk] at h
      rcases h with h | ⟨h, -⟩ <;> cases h

/-- A tag keeps its children, or an attribute joins them at the end of its attributes. -/
lemma children_of_tag (ha : Amends t t' place heir) {tag : NodeId} (hlt : tag < t.size)
    (htag : (t.kind tag).isTag = true) :
    t'.children tag = (t.children tag).map heir
      ∨ ∃ l r, (∀ y, heir y = y) ∧ t'.kind t.size = .attribute
        ∧ t.attributesEnd? tag = some l.length ∧ t.children tag = l ++ r
        ∧ t'.children tag = l ++ t.size :: r := by
  cases ha.children tag hlt with
  | kept hkept => exact .inl hkept
  | cut hk =>
      rw [hk] at htag
      cases htag
  | joined hk hid _ hl hl' =>
      rcases hk with hk | ⟨-, hkind, hend⟩
      · rw [hk] at htag
        cases htag
      · exact .inr ⟨_, _, hid, hkind, hend, hl, hl'⟩

/-- Heirs are children where the nodes before were. -/
lemma heir_mem (ha : Amends t t' place heir) {x c : NodeId} (hc : c ∈ t.children x)
    (hk : t.kind x ≠ .stringLiteral) : heir c ∈ t'.children x := by
  cases ha.children x (lt_size_of_mem hc) with
  | kept h =>
      rw [h]
      exact List.mem_map_of_mem hc
  | cut h => exact absurd h hk
  | joined _ hid _ hl hl' =>
      rw [hl', hid c]
      rw [hl] at hc
      exact List.mem_append.mpr ((List.mem_append.mp hc).imp id (List.mem_cons_of_mem _))

/-- An old child of an old node was its child before. -/
lemma mem_of_mem_children (ha : Amends t t' place heir) {x c : NodeId} (hx : x < t.size)
    (hc : c ∈ t'.children x) (hlt : c < t.size) : c ∈ t.children x := by
  cases ha.children x hx with
  | kept heq =>
      rw [heq, List.mem_map] at hc
      obtain ⟨y, hy, rfl⟩ := hc
      by_cases hyy : heir y = y
      · rwa [hyy]
      · exact absurd hlt (Nat.not_lt.mpr (ha.moved y hyy).le_new)
  | cut _ hnil =>
      rw [hnil] at hc
      exact absurd hc List.not_mem_nil
  | joined _ _ _ hl hl' =>
      rw [hl', List.mem_append, List.mem_cons] at hc
      rw [hl, List.mem_append]
      exact hc.imp id fun hc => hc.resolve_left fun heq => absurd hlt (heq ▸ Nat.lt_irrefl _)

/-- The child that fills a role has an heir that does. -/
lemma childIn?_eq (ha : Amends t t' place heir) (h : t.Shaped) {x : NodeId} (hx : x < t.size)
    (hk : t.kind x ≠ .stringLiteral) {role : Role} (hrole : role ≠ .attribute) :
    t'.childIn? x role = (t.childIn? x role).map heir := by
  rw [childIn?, childIn?]
  cases ha.children x hx with
  | kept heq =>
      rw [heq, List.find?_map]
      congr 1
      refine List.find?_congr fun c hc => ?_
      rw [Function.comp_apply, ha.role_eq c (h.lt_of_mem hc)]
  | cut hcut => exact absurd hcut hk
  -- The new child has no role but that of an attribute, so the search passes it by.
  | joined _ hid hnew hl hl' =>
      have heir_id : heir = id := funext hid
      have hno : decide (t'.role t.size = some role) = false :=
        decide_eq_false fun heq => hrole (hnew role heq)
      have hold : ∀ c ∈ t.children x, decide (t'.role c = some role)
          = decide (t.role c = some role) := fun c hc => by
        rw [← ha.role_eq c (h.lt_of_mem hc), hid c]
      rw [hl] at hold ⊢
      rw [hl', heir_id, Option.map_id, id, List.find?_append, List.find?_append,
        List.find?_cons_of_neg (by simp [hno]),
        List.find?_congr fun c hc => hold c (List.mem_append_left _ hc),
        List.find?_congr fun c hc => hold c (List.mem_append_right _ hc)]

/-! ### Names -/

/-- The name of a tag or an attribute stays. -/
lemma childIn?_name (ha : Amends t t' place heir) (h : t.Shaped) {x : NodeId} (hx : x < t.size)
    (hk : (t.kind x).isTag = true ∨ t.kind x = .attribute) :
    t'.childIn? x .name = t.childIn? x .name := by
  have hstring : t.kind x ≠ .stringLiteral := fun heq => by
    rw [heq] at hk
    rcases hk with hk | hk <;> cases hk
  rw [ha.childIn?_eq h hx hstring (by decide)]
  cases hc : t.childIn? x .name with
  | none => rfl
  | some c => rw [Option.map_some, ha.heir_of_quiet ((h.regular x).quiet_name hk c hc)]

lemma text_name (ha : Amends t t' place heir) (h : t.Shaped) {x c : NodeId}
    (hk : (t.kind x).isTag = true ∨ t.kind x = .attribute) (hc : t.childIn? x .name = some c) :
    t'.text c = t.text c :=
  ha.text_eq h (h.lt_of_mem (childIn?_spec hc).1) (h.steady_name hk hc)

/-- An edit leaves attributes their names. -/
lemma nameOfAttribute?_eq (ha : Amends t t' place heir) (h : t.Shaped) {a : NodeId}
    (hx : a < t.size) (hk : t.kind a = .attribute) :
    t'.nameOfAttribute? a = t.nameOfAttribute? a := by
  rw [nameOfAttribute?, nameOfAttribute?, ha.childIn?_name h hx (.inr hk)]
  cases hc : t.childIn? a .name with
  | none => rfl
  | some c => rw [Option.map_some, Option.map_some, ha.text_name h (.inr hk) hc]

/-- An edit leaves tags to their elements. -/
lemma elementOfTag?_eq (ha : Amends t t' place heir) {g : NodeId} (hg : g < t.size) :
    t'.elementOfTag? g = t.elementOfTag? g := by
  rw [elementOfTag?, elementOfTag?, ha.kind_eq g hg]
  cases hk : t.kind g with
  | openingTag =>
      exact ha.parent_eq g hg (ha.heir_of_not_element (by rw [hk]; rfl))
  | _ => rfl

/-- Tags stay as they are. -/
theorem tagAt?_eq (ha : Amends t t' place heir) (h : t.Shaped) {g : NodeId} (hg : g < t.size)
    (hk : (t.kind g).isTag = true) : t'.tagAt? g = t.tagAt? g := by
  rw [tagAt?, tagAt?, ha.childIn?_name h hg (.inl hk), ha.elementOfTag?_eq hg, ha.position_eq g hg]
  cases hc : t.childIn? g .name with
  | none => rfl
  | some c =>
      cases t.elementOfTag? g with
      | none => rfl
      | some e =>
          dsimp only
          rw [ha.text_name h (.inl hk) hc]

/-- An edit leaves elements to their tags. -/
lemma tagOfElement?_eq (ha : Amends t t' place heir) (h : t.Shaped) {e : NodeId}
    (he : e < t.size) : t'.tagOfElement? e = t.tagOfElement? e := by
  rw [tagOfElement?, tagOfElement?, ha.kind_eq e he]
  cases hk : t.kind e with
  | element =>
      have hopen : t'.childIn? e .openTag = t.childIn? e .openTag := by
        rw [ha.childIn?_eq h he (by rw [hk]; decide) (by decide)]
        cases hc : t.childIn? e .openTag with
        | none => rfl
        | some c =>
            have hkind := (h.regular e).opening_of_element hk c hc
            rw [Option.map_some, ha.heir_of_not_element (by rw [hkind]; rfl)]
      exact hopen
  | _ => rfl

/-- Elements keep their names. -/
theorem nameOfElement?_eq (ha : Amends t t' place heir) (h : t.Shaped) {e : NodeId}
    (he : e < t.size) : t'.nameOfElement? e = t.nameOfElement? e := by
  rw [nameOfElement?, nameOfElement?, ha.tagOfElement?_eq h he]
  cases hg : t.tagOfElement? e with
  | none => rfl
  | some g =>
      have htag : g < t.size ∧ (t.kind g).isTag = true := by
        rw [tagOfElement?] at hg
        split at hg
        · next hk =>
            cases hg
            exact ⟨he, by rw [hk]; rfl⟩
        · next hk =>
            exact ⟨h.lt_of_mem (childIn?_spec hg).1,
              by rw [(h.regular e).opening_of_element hk g hg]; rfl⟩
        · cases hg
      rw [Option.bind_some, Option.bind_some, ha.tagAt?_eq h htag.1 htag.2]

/-! ### Chains of sole children -/

/-- An heir belongs to the content of an element if the node before did. -/
lemma isContent_eq (ha : Amends t t' place heir) (h : t.Shaped) {p c : NodeId}
    (hp : t.kind p = .element) (hc : c ∈ t.children p) :
    t'.isContent (heir c) = t.isContent c := by
  have hlt := h.lt_of_mem hc
  have htext : (decide (t'.kind (heir c) = .text) && Text.isBlankText (t'.text (heir c)))
      = (decide (t.kind c = .text) && Text.isBlankText (t.text c)) := by
    by_cases hheir : heir c = c
    · rw [hheir, ha.kind_eq c hlt]
      by_cases hk : t.kind c = .text
      · rw [ha.text_eq h hlt (h.steady_leaf hc (by rw [hp]; decide) (.inl hk))]
      · rw [decide_eq_false hk, Bool.false_and, Bool.false_and]
    · have hm := ha.moved c hheir
      have hk : t.kind c ≠ .text := fun heq => by
        have := hm.isElement
        rw [heq] at this
        cases this
      rw [hm.kind_new, decide_eq_false hk]
      rfl
  rw [isContent, isContent, ha.role_eq c hlt, htext]

lemma isElement_heir (ha : Amends t t' place heir) {c : NodeId} (hc : c < t.size) :
    (t'.kind (heir c)).isElement = (t.kind c).isElement := by
  by_cases hheir : heir c = c
  · rw [hheir, ha.kind_eq c hc]
  · have hm := ha.moved c hheir
    rw [hm.kind_new, hm.isElement]
    rfl

/-- An element that is all that another one holds has an heir that is. -/
theorem onlyElement?_eq (ha : Amends t t' place heir) (h : t.Shaped) {p : NodeId}
    (hp : p < t.size) : t'.onlyElement? p = (t.onlyElement? p).map heir := by
  rw [onlyElement?, onlyElement?, ha.kind_eq p hp]
  by_cases hk : t.kind p = .element
  · rw [if_pos hk, if_pos hk, ha.children_of_element hp hk, List.filter_map,
      List.filter_congr fun c hc => by rw [Function.comp_apply, ha.isContent_eq h hk hc]]
    have hmem : ∀ c ∈ (t.children p).filter t.isContent, c < t.size := fun c hc =>
      h.lt_of_mem (List.mem_of_mem_filter hc)
    rcases hfilter : (t.children p).filter t.isContent with _ | ⟨c, _ | ⟨d, rest⟩⟩
    · rfl
    · rw [hfilter] at hmem
      rw [List.map_singleton]
      dsimp only
      rw [ha.isElement_heir (hmem c (List.mem_singleton_self c))]
      split <;> rfl
    · rfl
  · rw [if_neg hk, if_neg hk]
    rfl

/-- Chains only grow. -/
theorem chain (ha : Amends t t' place heir) (h : t.Shaped) {p c : NodeId} (hc : t.Chain p c) :
    t'.Chain p c := by
  have hstep : ∀ {p c : NodeId}, t.onlyElement? p = some c → t'.Chain p c := by
    intro p c hpc
    have honly := ha.onlyElement?_eq h (lt_size_of_mem (onlyElement?_mem hpc))
    rw [hpc, Option.map_some] at honly
    by_cases hheir : heir c = c
    · rw [hheir] at honly
      exact .single honly
    · exact .tail (.single honly) (ha.moved c hheir).only
  induction hc with
  | single hpc => exact hstep hpc
  | tail _ hpc ih => exact ih.trans (hstep hpc)

/-! ### What lies under a node -/

lemma parent_moved (ha : Amends t t' place heir) {x : NodeId} (hx : heir x ≠ x) :
    t'.parent x = some (heir x) :=
  ha.document.parent_of_mem (onlyElement?_mem (ha.moved x hx).only)

/-- What lies under an old node did so before, or is new and lies below the place of the edit. -/
lemma under_of_under (ha : Amends t t' place heir) (h : t.Shaped) {x d : NodeId}
    (hd : t'.Under x d) (hx : x < t.size) :
    (d < t.size → t.Under x d) ∧ (t.size ≤ d → t.Under x place) := by
  induction hd with
  | refl => exact ⟨fun _ => .refl, fun hle => absurd hx (Nat.not_lt.mpr hle)⟩
  | @step d p hp _ ih =>
      refine ⟨fun hlt => ?_, fun hle => ?_⟩
      · by_cases hheir : heir d = d
        · rw [ha.parent_eq d hlt hheir] at hp
          exact .step hp (ih.1 (h.parent_lt hp))
        · rw [ha.parent_moved hheir, Option.some.injEq] at hp
          have hm := ha.moved d hheir
          exact .step hm.parent_eq (ih.2 (hp ▸ hm.le_new))
      · rcases ha.parent_new d p hle hp with hnew | ⟨rfl, -⟩
        · exact ih.2 hnew
        · rcases Nat.lt_or_ge p t.size with hlt | hge
          · exact ih.1 hlt
          · exact ih.2 hge

/-- A quiet node stays quiet. -/
lemma quiet (ha : Amends t t' place heir) (h : t.Shaped) {x : NodeId} (hx : x < t.size)
    (hq : t.Quiet x) : t'.Quiet x := fun d hd => by
  obtain ⟨hold, hnew⟩ := ha.under_of_under h hd hx
  rcases Nat.lt_or_ge d t.size with hlt | hge
  · rw [ha.kind_eq d hlt]
    exact hq d (hold hlt)
  · exact ha.quiet_new x hq (hnew hge) d hge

/-! ### The nodes of the module -/

/-- No node with a tag or an attribute in it is lost. -/
theorem mem_descendants (ha : Amends t t' place heir) (h : t.Shaped) {x : NodeId}
    (hx : x ∈ t.descendants root) (hq : ¬ t.Quiet x) : x ∈ t'.descendants root := by
  have hl' := ha.document.toLinked
  revert hq
  refine inductModule h.toLinked (P := fun x => ¬ t.Quiet x → x ∈ t'.descendants root)
    (fun _ => mem_descendants_self hl' hl'.root_lt) (fun p c _ hc ih hq => ?_) hx
  have hqp : ¬ t.Quiet p := fun hp => hq (hp.of_under (Under.of_mem h.toLinked hc))
  have hstring : t.kind p ≠ .stringLiteral := fun hk => hqp ((h.regular p).quiet_string hk)
  have hheir := child_mem_descendants hl' (ih hqp) (ha.heir_mem hc hstring)
  by_cases hc : heir c = c
  · rwa [hc] at hheir
  · exact child_mem_descendants hl' hheir (onlyElement?_mem (ha.moved c hc).only)

/-- A node of the module was one before, or is new. -/
theorem old_of_mem (ha : Amends t t' place heir) (h : t.Shaped) {x : NodeId}
    (hx : x ∈ t'.descendants root) (hlt : x < t.size) : x ∈ t.descendants root := by
  revert hlt
  refine inductModule ha.document.toLinked (P := fun x => x < t.size → x ∈ t.descendants root)
    (fun hlt => mem_descendants_self h.toLinked hlt) (fun p c _ hc ih hlt => ?_) hx
  by_cases hheir : heir c = c
  · have hp : t'.parent c = some p := ha.document.parent_of_mem hc
    rw [ha.parent_eq c hlt hheir] at hp
    have hplt := h.parent_lt hp
    exact child_mem_descendants h.toLinked (ih hplt) (ha.mem_of_mem_children hplt hc hlt)
  · exact (ha.moved c hheir).mem

/-! ### The shape of the module -/

lemma findIdx?_congr {α : Type} {p q : α → Bool} {l : List α} (h : ∀ x ∈ l, p x = q x) :
    l.findIdx? p = l.findIdx? q := by
  induction l with
  | nil => rfl
  | cons a l ih =>
      rw [List.findIdx?_cons, List.findIdx?_cons, h a List.mem_cons_self,
        ih fun x hx => h x (List.mem_cons_of_mem _ hx)]

/-- Where the token that ends the attributes stands among the children of a tag. -/
lemma children_of_attributesEnd? {tag : NodeId} {i : Nat} (h : t.attributesEnd? tag = some i) :
    ∃ front name between stop back,
      t.children tag = (front ++ name :: between) ++ stop :: back
      ∧ (front ++ name :: between).length = i
      ∧ (∀ c ∈ front, t.role c ≠ some .name) ∧ t.role name = some .name
      ∧ (∀ c ∈ between, t.endsAttributes c = false) ∧ t.endsAttributes stop = true := by
  obtain ⟨front, name, between, stop, back, hslots, hlen, hfront, hname, hbetween, hstop⟩ :=
    exists_of_attributesEnd? h
  refine ⟨front.map Slot.child, name.child, between.map Slot.child, stop.child,
    back.map Slot.child, ?_, ?_, ?_, hname, ?_, hstop⟩
  · rw [SyntaxTree.children, Node.children, hslots]
    simp
  · rw [← hlen]
    simp
  · intro c hc
    obtain ⟨slot, hslot, rfl⟩ := List.mem_map.mp hc
    exact hfront slot hslot
  · intro c hc
    obtain ⟨slot, hslot, rfl⟩ := List.mem_map.mp hc
    exact hbetween slot hslot

/-- The place behind the attributes is found when the children are split at the name and the
closing token. -/
lemma attributesEnd?_of_children {tag name stop : NodeId} {front between back : List NodeId}
    (h : t.children tag = front ++ name :: (between ++ stop :: back))
    (hfront : ∀ c ∈ front, t.role c ≠ some .name) (hname : t.role name = some .name)
    (hbetween : ∀ c ∈ between, t.endsAttributes c = false) (hstop : t.endsAttributes stop = true) :
    t.attributesEnd? tag = some (front.length + 1 + between.length) := by
  have hfind : (t.children tag).findIdx? (fun c => t.role c = some .name) = some front.length := by
    rw [h, List.findIdx?_append, List.findIdx?_eq_none_iff.mpr fun c hc =>
      decide_eq_false (hfront c hc), Option.none_or, List.findIdx?_cons, if_pos (by simp [hname])]
    simp
  have hdrop : (t.children tag).drop (front.length + 1) = between ++ stop :: back := by
    rw [h, List.drop_length_add_append]
    rfl
  rw [attributesEnd?, hfind]
  dsimp only
  rw [hdrop, List.findIdx?_append, List.findIdx?_eq_none_iff.mpr hbetween, Option.none_or,
    List.findIdx?_cons, if_pos hstop]
  simp

lemma endsAttributes_eq (ha : Amends t t' place heir) (h : t.Shaped) {tag c : NodeId}
    (htag : (t.kind tag).isTag = true) (hc : c ∈ t.children tag) :
    t'.endsAttributes (heir c) = t.endsAttributes c := by
  have hlt := h.lt_of_mem hc
  rw [ha.heir_of_not_element ((h.regular tag).no_element_in_tag htag c hc), endsAttributes,
    endsAttributes, ha.kind_eq c hlt]
  by_cases hk : t.kind c = .token
  · have hattr : t.kind tag ≠ .attribute := fun heq => by
      rw [heq] at htag
      cases htag
    rw [ha.text_eq h hlt (h.steady_leaf hc hattr (.inr hk))]
  · rw [decide_eq_false hk, Bool.false_and, Bool.false_and]

lemma attributesEnd?_of_kept (ha : Amends t t' place heir) (h : t.Shaped) {tag : NodeId}
    (htag : (t.kind tag).isTag = true) (hkept : t'.children tag = (t.children tag).map heir) :
    t'.attributesEnd? tag = t.attributesEnd? tag := by
  have hname : (t'.children tag).findIdx? (fun c => t'.role c = some .name)
      = (t.children tag).findIdx? fun c => t.role c = some .name := by
    rw [hkept, List.findIdx?_map]
    refine findIdx?_congr fun c hc => ?_
    rw [Function.comp_apply, ha.role_eq c (h.lt_of_mem hc)]
  rw [attributesEnd?, attributesEnd?, hname]
  cases (t.children tag).findIdx? fun c => t.role c = some .name with
  | none => rfl
  | some i =>
      dsimp only
      rw [hkept, ← List.map_drop, List.findIdx?_map]
      congr 1
      exact findIdx?_congr fun c hc => ha.endsAttributes_eq h htag (List.mem_of_mem_drop hc)

/-- An attribute that joins a tag stands in front of the token that ends the attributes. -/
lemma attributesEnd?_of_joined (ha : Amends t t' place heir) (h : t.Shaped) {tag : NodeId}
    (htag : (t.kind tag).isTag = true) (hid : ∀ y, heir y = y) {l r : List NodeId}
    (hend : t.attributesEnd? tag = some l.length) (hkind : t'.kind t.size = .attribute)
    (hl : t.children tag = l ++ r) (hl' : t'.children tag = l ++ t.size :: r) :
    t'.attributesEnd? tag = some (l.length + 1) := by
  obtain ⟨front, name, between, stop, back, hchildren, hlen, hfront, hname, hbetween, hstop⟩ :=
    children_of_attributesEnd? hend
  have hold : ∀ c ∈ t.children tag, t'.role c = t.role c
      ∧ t'.endsAttributes c = t.endsAttributes c :=
    fun c hc => by
      rw [← hid c, ha.role_eq c (h.lt_of_mem hc), ha.endsAttributes_eq h htag hc, hid]
      exact ⟨rfl, rfl⟩
  have hsplit := hl.symm.trans hchildren
  obtain ⟨rfl, rfl⟩ := List.append_inj hsplit hlen.symm
  have hnew : t'.endsAttributes t.size = false := by
    rw [endsAttributes, hkind]
    rfl
  rw [hchildren] at hold
  -- The new attribute stands between the name and the closing token, and ends nothing itself.
  have hrow : t'.children tag = front ++ name :: (between ++ [t.size] ++ stop :: back) := by
    rw [hl']
    simp
  rw [attributesEnd?_of_children hrow
    (fun c hc => (hold c (by simp [hc])).1 ▸ hfront c hc)
    ((hold name (by simp)).1.trans hname) (fun c hc => ?_)
    ((hold stop (by simp)).2.trans hstop)]
  · simp only [List.length_append, List.length_cons, List.length_nil]
    congr 1
    omega
  · rcases List.mem_append.mp hc with hc | hc
    · exact (hold c (by simp [hc])).2.trans (hbetween c hc)
    · rw [List.mem_singleton.mp hc]
      exact hnew

lemma attributesEnd?_isSome (ha : Amends t t' place heir) (h : t.Shaped) {tag : NodeId}
    (hlt : tag < t.size) (htag : (t.kind tag).isTag = true) :
    (t'.attributesEnd? tag).isSome = (t.attributesEnd? tag).isSome := by
  rcases ha.children_of_tag hlt htag with hkept | ⟨l, r, hid, hkind, hend, hl, hl'⟩
  · rw [ha.attributesEnd?_of_kept h htag hkept]
  · rw [ha.attributesEnd?_of_joined h htag hid hend hkind hl hl', hend]
    rfl

lemma kind_heir_ne_attribute (ha : Amends t t' place heir) {c : NodeId} (hc : c < t.size)
    (hk : t.kind c ≠ .attribute) : t'.kind (heir c) ≠ .attribute := by
  by_cases hheir : heir c = c
  · rwa [hheir, ha.kind_eq c hc]
  · rw [(ha.moved c hheir).kind_new]
    decide

/-- No element comes to stand in a tag. -/
lemma no_element_in_tag (ha : Amends t t' place heir) (h : t.Shaped) {tag : NodeId}
    (hlt : tag < t.size) (htag : (t.kind tag).isTag = true) :
    ∀ c ∈ t'.children tag, (t'.kind c).isElement = false := by
  intro c hc
  have hno := (h.regular tag).no_element_in_tag htag
  rcases ha.children_of_tag hlt htag with hkept | ⟨l, r, -, hkind, -, hl, hl'⟩
  · rw [hkept, List.mem_map] at hc
    obtain ⟨y, hy, rfl⟩ := hc
    rw [ha.isElement_heir (h.lt_of_mem hy)]
    exact hno y hy
  · have hold : ∀ c ∈ l ++ r, (t'.kind c).isElement = false := fun c hc => by
      rw [← hl] at hc
      rw [ha.kind_eq c (h.lt_of_mem hc)]
      exact hno c hc
    rw [hl', List.mem_append, List.mem_cons] at hc
    rcases hc with hc | rfl | hc
    · exact hold c (List.mem_append_left _ hc)
    · rw [hkind]
      rfl
    · exact hold c (List.mem_append_right _ hc)

/-- No attribute comes to stand behind the token that ends the attributes. -/
lemma attributes_first (ha : Amends t t' place heir) (h : t.Shaped) {tag : NodeId}
    (hlt : tag < t.size) (htag : (t.kind tag).isTag = true) {i : Nat}
    (hi : t'.attributesEnd? tag = some i) :
    ∀ c ∈ (t'.children tag).drop i, t'.kind c ≠ .attribute := by
  intro c hc
  have hfirst := (h.regular tag).attributes_first htag
  rcases ha.children_of_tag hlt htag with hkept | ⟨l, r, hid, hkind, hend, hl, hl'⟩
  · rw [ha.attributesEnd?_of_kept h htag hkept] at hi
    rw [hkept, ← List.map_drop, List.mem_map] at hc
    obtain ⟨y, hy, rfl⟩ := hc
    exact ha.kind_heir_ne_attribute (h.lt_of_mem (List.mem_of_mem_drop hy)) (hfirst i hi y hy)
  · rw [ha.attributesEnd?_of_joined h htag hid hend hkind hl hl', Option.some.injEq] at hi
    subst hi
    rw [hl', List.drop_length_add_append, List.drop_succ_cons, List.drop_zero] at hc
    have hbehind : c ∈ (t.children tag).drop l.length := by rwa [hl, List.drop_left]
    rw [ha.kind_eq c (h.lt_of_mem (List.mem_of_mem_drop hbehind))]
    exact hfirst _ hend c hbehind

/-- Nothing comes to stand below a leaf. -/
lemma leaf (ha : Amends t t' place heir) (h : t.Shaped) {x : NodeId} (hx : x < t.size)
    (hk : t.kind x = .text ∨ t.kind x = .token) (d : NodeId) : t'.parent d ≠ some x := by
  intro hd
  rcases Nat.lt_or_ge d t.size with hlt | hge
  · by_cases hheir : heir d = d
    · rw [ha.parent_eq d hlt hheir] at hd
      exact (h.regular x).leaf hk d hd
    · rw [ha.parent_moved hheir, Option.some.injEq] at hd
      exact absurd hx (Nat.not_lt.mpr (hd ▸ (ha.moved d hheir).le_new))
  · rcases ha.parent_new d x hge hd with hnew | ⟨rfl, htext, htoken⟩
    · exact absurd hx (Nat.not_lt.mpr hnew)
    · exact hk.elim htext htoken

/-- Every old node stays in shape. -/
lemma regular (ha : Amends t t' place heir) (h : t.Shaped) {x : NodeId} (hx : x < t.size) :
    t'.Regular x := by
  have hr := h.regular x
  have hk := ha.kind_eq x hx
  -- One case for each rule: an old node keeps kind, roles and parent, and so the rules it obeyed.
  constructor
  case element_of_opening =>
    intro hkind
    rw [hk] at hkind
    obtain ⟨e, hp, he, hc⟩ := hr.element_of_opening hkind
    have hlt := h.parent_lt hp
    refine ⟨e, ?_, (ha.kind_eq e hlt).trans he, ?_⟩
    · rw [ha.parent_eq x hx (ha.heir_of_not_element (by rw [hkind]; rfl)), hp]
    · have := ha.tagOfElement?_eq h hlt
      rw [tagOfElement?, tagOfElement?, ha.kind_eq e hlt, he] at this
      exact this.trans hc
  case opening_of_element =>
    intro hkind c hc
    rw [hk] at hkind
    have hopen := ha.tagOfElement?_eq h hx
    rw [tagOfElement?, tagOfElement?, hk, hkind] at hopen
    dsimp only at hopen
    rw [hopen] at hc
    rw [ha.kind_eq c (h.lt_of_mem (childIn?_spec hc).1)]
    exact hr.opening_of_element hkind c hc
  case no_element_in_tag => exact fun htag => ha.no_element_in_tag h hx (hk ▸ htag)
  case leaf => exact fun hkind => ha.leaf h hx (hk ▸ hkind)
  case quiet_string => exact fun hkind => ha.quiet h hx (hr.quiet_string (hk ▸ hkind))
  case quiet_name =>
    intro hkind c hc
    rw [hk] at hkind
    rw [ha.childIn?_name h hx hkind] at hc
    exact ha.quiet h (h.lt_of_mem (childIn?_spec hc).1) (hr.quiet_name hkind c hc)
  case attributes_first => exact fun htag _ hi => ha.attributes_first h hx (hk ▸ htag) hi

/-- A module stays in shape if the new nodes are. -/
theorem shaped (ha : Amends t t' place heir) (h : t.Shaped)
    (hnew : ∀ x, t.size ≤ x → t'.Regular x) : t'.Shaped where
  toDocument := ha.document
  regular := fun x => by
    rcases Nat.lt_or_ge x t.size with hlt | hge
    · exact ha.regular h hlt
    · exact hnew x hge

end Amends

end Restyle.SyntaxTree
