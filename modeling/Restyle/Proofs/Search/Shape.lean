import Restyle.Proofs.Change.Located
import Restyle.Search.Point

/-!
The shape of a component, as far as searches rely on it.

* `Quiet`: a node with no tag and no attribute in it;
* `Shaped`: the tree of a module in which opening tags open elements, names and strings are quiet,
  and no attribute stands behind the token that ends the attributes;
* `Steady`: a node that no change of the module writes differently;
* `Chain`: elements that are all that another one holds, and `isInside_iff` and `wraps_iff` in terms
  of chains.
-/

namespace Restyle.SyntaxTree

variable {t : SyntaxTree}

/-! ### Quiet nodes -/

/-- No tag and no attribute lies at or under a node. -/
def Quiet (t : SyntaxTree) (x : NodeId) : Prop :=
  ∀ d, t.Under x d → (t.kind d).isTag = false ∧ t.kind d ≠ .attribute

lemma Quiet.not_under_tag {x g : NodeId} (hx : t.Quiet x) (hg : (t.kind g).isTag = true) :
    ¬ t.Under x g := fun h => by
  rw [(hx g h).1] at hg
  cases hg

lemma Quiet.not_under_attribute {x a : NodeId} (hx : t.Quiet x) (ha : t.kind a = .attribute) :
    ¬ t.Under x a := fun h => (hx a h).2 ha

lemma Quiet.of_under {x y : NodeId} (hx : t.Quiet x) (h : t.Under x y) : t.Quiet y :=
  fun d hd => hx d (h.trans hd)

/-- A leaf that is neither a tag nor an attribute is quiet. -/
lemma quiet_of_leaf {x : NodeId} (hx : ∀ d, t.parent d ≠ some x)
    (htag : (t.kind x).isTag = false) (hattr : t.kind x ≠ .attribute) : t.Quiet x := by
  suffices ∀ d, t.Under x d → d = x from fun d hd => by
    rw [this d hd]
    exact ⟨htag, hattr⟩
  intro d hd
  induction hd with
  | refl => rfl
  | step hp _ ih => exact absurd (ih ▸ hp) (hx _)

/-! ### Shaped trees -/

/-- What the component language says of a node. -/
structure Regular (t : SyntaxTree) (id : NodeId) : Prop where
  /-- An opening tag opens an element. -/
  element_of_opening : t.kind id = .openingTag →
    ∃ e, t.parent id = some e ∧ t.kind e = .element ∧ t.childIn? e .openTag = some id
  opening_of_element : t.kind id = .element → ∀ c, t.childIn? id .openTag = some c →
    t.kind c = .openingTag
  no_element_in_tag : (t.kind id).isTag = true → ∀ c ∈ t.children id,
    (t.kind c).isElement = false
  leaf : t.kind id = .text ∨ t.kind id = .token → ∀ d, t.parent d ≠ some id
  quiet_string : t.kind id = .stringLiteral → t.Quiet id
  quiet_name : (t.kind id).isTag = true ∨ t.kind id = .attribute → ∀ c,
    t.childIn? id .name = some c → t.Quiet c
  /-- Behind the token that ends the attributes there are none. -/
  attributes_first : (t.kind id).isTag = true → ∀ i, t.attributesEnd? id = some i →
    ∀ c ∈ (t.children id).drop i, t.kind c ≠ .attribute

/-- The tree of a module in the shape that the component language gives it. -/
structure Shaped (t : SyntaxTree) : Prop extends Document t where
  regular : ∀ id, t.Regular id

lemma childIn?_spec {p c : NodeId} {role : Role} (h : t.childIn? p role = some c) :
    c ∈ t.children p ∧ t.role c = some role := by
  rw [childIn?] at h
  have hrole := List.find?_some h
  exact ⟨List.mem_of_find?_eq_some h, of_decide_eq_true hrole⟩

/-- The element of a tag: the tag is its own, and lies under it. -/
lemma Shaped.elementOfTag?_spec (h : t.Shaped) {g : NodeId} (hg : (t.kind g).isTag = true) :
    ∃ e, t.elementOfTag? g = some e ∧ (t.kind e).isElement = true ∧ t.tagOfElement? e = some g
      ∧ t.Under e g := by
  rw [elementOfTag?]
  cases hk : t.kind g with
  | selfClosingElement =>
      exact ⟨g, rfl, by rw [hk]; rfl, by rw [tagOfElement?, hk], .refl⟩
  | openingTag =>
      obtain ⟨e, hp, he, hc⟩ := (h.regular g).element_of_opening hk
      exact ⟨e, hp, by rw [he]; rfl, by rw [tagOfElement?, he]; exact hc, .step hp .refl⟩
  | _ =>
      rw [hk] at hg
      cases hg

/-- The element of a tag is an element above it, and has the tag's name. -/
lemma Shaped.element_spec (h : t.Shaped) {g : NodeId} {tag : Tag} (hg : (t.kind g).isTag = true)
    (htag : t.tagAt? g = some tag) :
    tag.node = g ∧ t.elementOfTag? g = some tag.element ∧ (t.kind tag.element).isElement = true
      ∧ t.Under tag.element g ∧ t.nameOfElement? tag.element = some tag.name := by
  obtain ⟨e, he, hkind, hown, hunder⟩ := h.elementOfTag?_spec hg
  obtain ⟨name, element, -, helement, rfl⟩ := tagAt?_eq_some.mp htag
  rw [he, Option.some.injEq] at helement
  subst helement
  refine ⟨rfl, he, hkind, hunder, ?_⟩
  rw [nameOfElement?, hown, Option.bind_some, htag]
  rfl

/-- A node that no change of the module writes differently: it is quiet and no value of an
attribute. -/
structure Steady (t : SyntaxTree) (x : NodeId) : Prop where
  quiet : t.Quiet x
  ne_root : x ≠ root
  no_value : ∀ a, t.parent x = some a → t.kind a = .attribute → t.role x ≠ some .value

lemma Document.ne_root_of_parent (h : t.Document) {x p : NodeId} (hp : t.parent x = some p) :
    x ≠ root := by
  rintro rfl
  rw [h.parent_root] at hp
  cases hp

/-- The name of a tag or an attribute is steady. -/
lemma Shaped.steady_name (h : t.Shaped) {p c : NodeId}
    (hp : (t.kind p).isTag = true ∨ t.kind p = .attribute) (hc : t.childIn? p .name = some c) :
    t.Steady c := by
  obtain ⟨hmem, hrole⟩ := childIn?_spec hc
  refine ⟨(h.regular p).quiet_name hp c hc,
    h.ne_root_of_parent (h.parent_of_mem hmem), fun a _ _ => ?_⟩
  rw [hrole]
  decide

/-- Text and punctuation are steady, unless they are values of attributes. -/
lemma Shaped.steady_leaf (h : t.Shaped) {p c : NodeId} (hc : c ∈ t.children p)
    (hp : t.kind p ≠ .attribute) (hk : t.kind c = .text ∨ t.kind c = .token) : t.Steady c := by
  have hpc := h.parent_of_mem hc
  refine ⟨quiet_of_leaf ((h.regular c).leaf hk) ?_ ?_, h.ne_root_of_parent hpc,
    fun a ha hattr => ?_⟩
  · rcases hk with hk | hk <;> rw [hk] <;> rfl
  · rcases hk with hk | hk <;> rw [hk] <;> decide
  · rw [hpc, Option.some.injEq] at ha
    exact absurd (ha ▸ hattr) hp

/-! ### Chains of sole children -/

/-- A node is reached from another one through elements that are all that one holds. -/
def Chain (t : SyntaxTree) : NodeId → NodeId → Prop :=
  Relation.TransGen fun p c => t.onlyElement? p = some c

lemma onlyElement?_eq_some {p c : NodeId} (hp : t.kind p = .element)
    (hfilter : (t.children p).filter t.isContent = [c]) (hc : (t.kind c).isElement = true) :
    t.onlyElement? p = some c := by
  rw [onlyElement?, if_pos hp, hfilter]
  exact if_pos hc

/-- A node is inside a wrapper if a chain from an element of that name leads to it. -/
theorem Linked.isInside_iff (h : t.Linked) (id : NodeId) (wrapper : String) :
    t.isInside id wrapper = true
      ↔ ∃ p, t.Chain p id ∧ t.nameOfElement? p = some wrapper := by
  -- on the level of the node, as both the search and the chain take one step up at its end
  obtain ⟨n, hn⟩ := h.exists_level id
  induction n generalizing id with
  | zero =>
      cases hn with
      | top hp =>
          rw [h.isInside_eq, hp]
          refine ⟨fun hfalse => absurd hfalse Bool.false_ne_true, fun ⟨q, hchain, _⟩ => ?_⟩
          obtain ⟨r, -, hr⟩ := Relation.TransGen.tail'_iff.mp hchain
          rw [h.parent_of_mem (onlyElement?_mem hr)] at hp
          cases hp
  | succ n ih =>
      cases hn with
      | @under _ p _ hp hlevel =>
          rw [h.isInside_eq, hp]
          dsimp only
          rw [Bool.and_eq_true, Bool.or_eq_true, decide_eq_true_eq, decide_eq_true_eq,
            ih p hlevel]
          constructor
          · rintro ⟨honly, hname | ⟨q, hchain, hname⟩⟩
            · exact ⟨p, .single honly, hname⟩
            · exact ⟨q, hchain.tail honly, hname⟩
          · rintro ⟨q, hchain, hname⟩
            obtain ⟨r, hqr, hr⟩ := Relation.TransGen.tail'_iff.mp hchain
            have hrp := h.parent_of_mem (onlyElement?_mem hr)
            rw [hp, Option.some.injEq] at hrp
            subst hrp
            refine ⟨hr, ?_⟩
            rcases Relation.reflTransGen_iff_eq_or_transGen.mp hqr with rfl | hqr
            · exact .inl hname
            · exact .inr ⟨q, hqr, hname⟩

/-- The search through the only elements finds what a chain of them leads to. -/
lemma Linked.wrapsWithin_iff (h : t.Linked) (needle : String) {id : NodeId} (hid : id < t.size) :
    t.wrapsWithin needle t.size id = true
      ↔ ∃ c, t.Chain id c ∧ (t.nameOfElement? c).any (nameContains · needle) = true := by
  -- By induction from the leaves up, since the only element is a child.
  induction id using h.inductBelow with
  | step id ih =>
      rw [h.wrapsWithin_eq needle hid]
      cases honly : t.onlyElement? id with
      | none =>
          refine ⟨fun hfalse => absurd hfalse Bool.false_ne_true, fun ⟨c, hchain, _⟩ => ?_⟩
          obtain ⟨r, hr, -⟩ := Relation.TransGen.head'_iff.mp hchain
          rw [honly] at hr
          cases hr
      | some child =>
          have hmem := onlyElement?_mem honly
          dsimp only
          rw [Bool.or_eq_true, ih child hmem (h.lt_of_mem hmem)]
          constructor
          · rintro (hname | ⟨c, hchain, hname⟩)
            · exact ⟨child, .single honly, hname⟩
            · exact ⟨c, .head honly hchain, hname⟩
          · rintro ⟨c, hchain, hname⟩
            obtain ⟨r, hr, hrc⟩ := Relation.TransGen.head'_iff.mp hchain
            rw [honly, Option.some.injEq] at hr
            subst hr
            rcases Relation.reflTransGen_iff_eq_or_transGen.mp hrc with rfl | hrc
            · exact .inl hname
            · exact .inr ⟨c, hrc, hname⟩

/-- An element wraps others if a chain from it leads to one whose name contains the target. -/
theorem Linked.wraps_iff (h : t.Linked) {id : NodeId} (hid : id < t.size)
    (wrapper target : String) :
    t.wraps id wrapper target = true
      ↔ needle target ≠ "" ∧ t.nameOfElement? id = some wrapper
        ∧ ∃ c, t.Chain id c ∧ (t.nameOfElement? c).any (nameContains · (needle target)) = true := by
  rw [wraps, Bool.and_eq_true, Bool.and_eq_true, decide_eq_true_eq, h.wrapsWithin_iff _ hid,
    Bool.not_eq_true', and_assoc]
  refine and_congr_left fun _ => ?_
  rw [← Bool.not_eq_true, String.isEmpty_iff]

end Restyle.SyntaxTree
