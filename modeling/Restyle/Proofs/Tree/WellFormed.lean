import Restyle.Proofs.Tree.Lookup
import Restyle.Search.Tag

/-!
Well-formed trees, and what the bounded walks of a tree compute in one.

* `Level`: how far a node lies below one that stands alone;
* `Linked`: children and parents agree, no node is listed twice and every chain of parents ends;
* `WellFormed`: besides, marks go up, and a node without a mark is what it was read from;
* `inductBelow`: a property holds of every node once it is inherited from the children;
* `text_eq`, `descendants_eq`, `isInside_eq`, `wrapsWithin_eq`: in a well-formed tree no walk runs
  out of steps, so that each is what its recursion says.
-/

namespace Restyle.SyntaxTree

/-! ### Levels -/

/-- A node lies a number of steps below a node that stands alone. -/
inductive Level (t : SyntaxTree) : NodeId → Nat → Prop where
  | top {id : NodeId} : t.parent id = none → Level t id 0
  | under {id p : NodeId} {n : Nat} : t.parent id = some p → Level t p n → Level t id (n + 1)

variable {t : SyntaxTree}

lemma Level.unique {id : NodeId} {m n : Nat} (hm : t.Level id m) (hn : t.Level id n) : m = n := by
  induction hm generalizing n with
  | top h =>
      cases hn with
      | top => rfl
      | under h' => rw [h] at h'; cases h'
  | under h _ ih =>
      cases hn with
      | top h' => rw [h] at h'; cases h'
      | under h' hp =>
          rw [h, Option.some.injEq] at h'
          subst h'
          rw [ih hp]

/-- The nodes above a node are all different, so that there is room for them. -/
lemma Level.lt_size (hlt : ∀ {c p : NodeId}, t.parent c = some p → p < t.size) {id : NodeId}
    {n : Nat} (h : t.Level id n) (hid : id < t.size) : n < t.size := by
  -- the chain of parents, whose nodes have the levels `n`, `n - 1`, ..., `0`
  have chain : ∃ l : List NodeId, l.length = n + 1 ∧ l.Nodup
      ∧ ∀ x ∈ l, x < t.size ∧ ∃ k ≤ n, t.Level x k := by
    induction h with
    | @top id h =>
        refine ⟨[id], rfl, List.nodup_singleton id, fun x hx => ?_⟩
        rw [List.mem_singleton.mp hx]
        exact ⟨hid, 0, le_rfl, .top h⟩
    | @under id p n hp hl ih =>
        obtain ⟨l, hlen, hnd, hall⟩ := ih (hlt hp)
        refine ⟨id :: l, by rw [List.length_cons, hlen],
          List.nodup_cons.mpr ⟨fun hmem => ?_, hnd⟩, fun x hx => ?_⟩
        · obtain ⟨-, k, hk, hlevel⟩ := hall id hmem
          have := hlevel.unique (.under hp hl)
          omega
        · rcases List.mem_cons.mp hx with rfl | hx
          · exact ⟨hid, n + 1, le_rfl, .under hp hl⟩
          · obtain ⟨hx, k, hk, hlevel⟩ := hall x hx
            exact ⟨hx, k, by omega, hlevel⟩
  obtain ⟨l, hlen, hnd, hall⟩ := chain
  have hsub : l ⊆ List.range t.size := fun x hx => List.mem_range.mpr (hall x hx).1
  have hle := (hnd.subperm hsub).length_le
  rw [List.length_range] at hle
  omega

/-! ### Well-formed trees -/

/-- What the children of a node were read from, with the layout around them. -/
def readBelow (t : SyntaxTree) (id : NodeId) : String :=
  String.join ((t.node id).slots.map fun slot => slot.gap ++ (t.node slot.child).asRead.getD "")
    ++ (t.node id).ending

/-- A tree whose links agree. -/
structure Linked (t : SyntaxTree) : Prop where
  size_pos : 0 < t.size
  parent_root : t.parent root = none
  parent_of_mem : ∀ {p c : NodeId}, c ∈ t.children p → t.parent c = some p
  nodup : ∀ p, (t.children p).Nodup
  parent_lt : ∀ {c p : NodeId}, t.parent c = some p → p < t.size
  exists_level : ∀ id, ∃ n, t.Level id n
  /-- A node that is written as a text of its own has no children. -/
  slots_of_literal : ∀ {id : NodeId} {s : String}, (t.node id).literal = some s →
    (t.node id).slots = []

/-- A tree whose links, marks and texts agree. -/
structure WellFormed (t : SyntaxTree) : Prop extends Linked t where
  /-- What lies above a marked node is marked. -/
  changed_of_mem : ∀ {p c : NodeId}, c ∈ t.children p → (t.node c).changed = true →
    (t.node p).changed = true
  /-- A node without a mark was read from what its children were read from. -/
  asRead_of_unchanged : ∀ {id : NodeId} {s : String}, (t.node id).changed = false →
    (t.node id).asRead = some s →
      (t.node id).literal = none ∧ s = t.readBelow id
        ∧ ∀ c ∈ t.children id, (t.node c).asRead.isSome = true

namespace Linked

lemma lt_of_mem (h : t.Linked) {p c : NodeId} (hc : c ∈ t.children p) : c < t.size :=
  lt_size_of_parent (h.parent_of_mem hc)

lemma level_lt (h : t.Linked) {id : NodeId} (hid : id < t.size) {n : Nat}
    (hn : t.Level id n) : n < t.size :=
  hn.lt_size (fun hp => h.parent_lt hp) hid

lemma level_of_mem (h : t.Linked) {p c : NodeId} (hc : c ∈ t.children p) {n : Nat}
    (hn : t.Level p n) : t.Level c (n + 1) :=
  .under (h.parent_of_mem hc) hn

lemma root_lt (h : t.Linked) : root < t.size := h.size_pos

/-- A property holds of every node once it is inherited from the children. -/
lemma inductBelow (h : t.Linked) {P : NodeId → Prop}
    (step : ∀ id, (∀ c ∈ t.children id, P c) → P id) (id : NodeId) : P id := by
  obtain ⟨n, hn⟩ := h.exists_level id
  -- by induction on the room that is left below the node
  suffices ∀ room id n, t.Level id n → t.size ≤ n + room → P id from
    this t.size id n hn (by omega)
  intro room
  induction room with
  | zero =>
      intro id n hn hroom
      refine step id fun c hc => ?_
      have := h.level_lt (lt_size_of_mem hc) hn
      omega
  | succ room ih =>
      intro id n hn hroom
      exact step id fun c hc => ih c (n + 1) (h.level_of_mem hc hn) (by omega)

end Linked

/-! ### Texts -/

/-- A node's text put together from those of its children and the layout around them. -/
def textBelow (t : SyntaxTree) (id : NodeId) : String :=
  String.join ((t.node id).slots.map fun slot => slot.gap ++ t.text slot.child)
    ++ (t.node id).ending

/-- Two nodes that hold the same are written the same if their children are. -/
lemma textWithin_congr {m n : Nat} {id : NodeId}
    (hc : ∀ c ∈ t.children id, t.textWithin m c = t.textWithin n c) :
    t.textWithin (m + 1) id = t.textWithin (n + 1) id := by
  have hslots : (t.node id).slots.map (fun slot => slot.gap ++ t.textWithin m slot.child)
      = (t.node id).slots.map fun slot => slot.gap ++ t.textWithin n slot.child := by
    refine List.map_congr_left fun slot hslot => ?_
    rw [hc slot.child (List.mem_map_of_mem hslot)]
  rw [textWithin, textWithin, hslots]

lemma textWithin_of_size_le {id : NodeId} (hid : t.size ≤ id) (n : Nat) :
    t.textWithin n id = "" := by
  cases n with
  | zero => rfl
  | succ n => rw [textWithin, t.node_of_size_le hid]; rfl

namespace Linked

/-- More room than there are nodes below changes nothing. -/
lemma textWithin_succ (h : t.Linked) {id : NodeId} {k n : Nat} (hk : t.Level id k)
    (hn : t.size ≤ k + n) : t.textWithin (n + 1) id = t.textWithin n id := by
  rcases Nat.lt_or_ge id t.size with hid | hid
  · induction n generalizing id k with
    | zero =>
        have := h.level_lt hid hk
        omega
    | succ n ih =>
        exact textWithin_congr fun c hc =>
          ih (h.level_of_mem hc hk) (by omega) (h.lt_of_mem hc)
  · rw [textWithin_of_size_le hid, textWithin_of_size_le hid]

lemma textWithin_size_succ (h : t.Linked) (id : NodeId) :
    t.textWithin (t.size + 1) id = t.text id := by
  obtain ⟨k, hk⟩ := h.exists_level id
  exact h.textWithin_succ hk (Nat.le_add_left _ _)

end Linked

namespace WellFormed

/-- What an unmarked node was read from is its text. -/
lemma text_of_asRead (h : t.WellFormed) {id : NodeId} {s : String}
    (hc : (t.node id).changed = false) (hs : (t.node id).asRead = some s) : t.text id = s := by
  rw [← h.textWithin_size_succ, textWithin]
  simp only [(h.asRead_of_unchanged hc hs).1, hs, hc]

/-- A node is written as its own text, or put together from its children: for a node that is
copied from the source the two agree. -/
theorem text_eq (h : t.WellFormed) (id : NodeId) :
    t.text id = ((t.node id).literal).getD (t.textBelow id) := by
  have hbelow : t.textWithin t.size = t.text := rfl
  rw [← h.textWithin_size_succ, textWithin]
  split
  · next s hl => rw [hl, Option.getD_some]
  · next s hl hs hc =>
      obtain ⟨-, hread, hsome⟩ := h.asRead_of_unchanged hc hs
      rw [hl, Option.getD_none, hread, readBelow, textBelow]
      congr 2
      refine List.map_congr_left fun slot hslot => ?_
      have hmem : slot.child ∈ t.children id := List.mem_map_of_mem hslot
      obtain ⟨r, hr⟩ := Option.isSome_iff_exists.mp (hsome _ hmem)
      have hclean : (t.node slot.child).changed = false := by
        by_contra hch
        rw [h.changed_of_mem hmem (by simpa using hch)] at hc
        cases hc
      rw [hr, Option.getD_some, h.text_of_asRead hclean hr]
  · next hl _ => rw [hl, Option.getD_none, textBelow, hbelow]

lemma text_of_literal (h : t.WellFormed) {id : NodeId} {s : String}
    (hs : (t.node id).literal = some s) : t.text id = s := by
  rw [h.text_eq, hs, Option.getD_some]

lemma text_of_no_literal (h : t.WellFormed) {id : NodeId} (hs : (t.node id).literal = none) :
    t.text id = t.textBelow id := by
  rw [h.text_eq, hs, Option.getD_none]

lemma text_of_mem (h : t.WellFormed) {p c : NodeId} (hc : c ∈ t.children p) :
    t.text p = t.textBelow p := by
  refine h.text_of_no_literal ?_
  cases hl : (t.node p).literal with
  | none => rfl
  | some s =>
      rw [children, Node.children, h.slots_of_literal hl] at hc
      cases hc

end WellFormed

/-! ### Descendants -/

lemma descendantsWithin_succ_congr {m n : Nat} {id : NodeId}
    (hc : ∀ c ∈ t.children id, t.descendantsWithin m c = t.descendantsWithin n c) :
    t.descendantsWithin (m + 1) id = t.descendantsWithin (n + 1) id := by
  rw [descendantsWithin, descendantsWithin, List.flatMap_congr hc]

namespace Linked

/-- More steps than there are levels below a node change nothing. -/
lemma descendantsWithin_succ (h : t.Linked) {id : NodeId} (hid : id < t.size) {k n : Nat}
    (hk : t.Level id k) (hn : t.size ≤ k + n) :
    t.descendantsWithin (n + 1) id = t.descendantsWithin n id := by
  induction n generalizing id k with
  | zero =>
      have := h.level_lt hid hk
      omega
  | succ n ih =>
      exact descendantsWithin_succ_congr fun c hc =>
        ih (h.lt_of_mem hc) (h.level_of_mem hc hk) (by omega)

/-- The nodes below a node are those below its children. -/
theorem descendants_eq (h : t.Linked) {id : NodeId} (hid : id < t.size) :
    t.descendants id = id :: (t.children id).flatMap t.descendants := by
  obtain ⟨k, hk⟩ := h.exists_level id
  rw [descendants, ← h.descendantsWithin_succ hid hk (Nat.le_add_left _ _), descendantsWithin]
  rfl

end Linked

/-! ### Chains of sole children -/

namespace Linked

lemma isInsideWithin_succ {wrapper : String} {id : NodeId} {k n : Nat} (hk : t.Level id k)
    (hn : k ≤ n) : t.isInsideWithin wrapper (n + 1) id = t.isInsideWithin wrapper n id := by
  induction n generalizing id k with
  | zero =>
      cases hk with
      | top hp => simp only [isInsideWithin, hp]
      | under => omega
  | succ n ih =>
      rw [isInsideWithin, isInsideWithin]
      cases hk with
      | top hp => rw [hp]
      | under hp hk =>
          rw [hp]
          dsimp only
          rw [ih hk (by omega)]

/-- A node is inside a wrapper if its parent holds nothing else and has that name, or is itself
inside one. -/
theorem isInside_eq (h : t.Linked) (id : NodeId) (wrapper : String) :
    t.isInside id wrapper = match t.parent id with
      | none => false
      | some parent =>
        t.onlyElement? parent = some id
          && (t.nameOfElement? parent = some wrapper || t.isInside parent wrapper) := by
  rcases Nat.lt_or_ge id t.size with hid | hid
  · obtain ⟨k, hk⟩ := h.exists_level id
    rw [isInside, ← isInsideWithin_succ hk (Nat.le_of_lt (h.level_lt hid hk)), isInsideWithin]
    rfl
  · have hp : t.parent id = none := by rw [parent, t.node_of_size_le hid]; rfl
    rw [hp, isInside]
    cases t.size with
    | zero => rfl
    | succ n => rw [isInsideWithin, hp]

end Linked

lemma onlyElement?_mem {id child : NodeId} (h : t.onlyElement? id = some child) :
    child ∈ t.children id := by
  rw [onlyElement?] at h
  split at h
  · split at h
    · next only hfilter =>
        split at h
        · rw [Option.some.injEq] at h
          subst h
          exact (List.mem_filter.mp (hfilter ▸ List.mem_singleton_self only)).1
        · cases h
    · cases h
  · cases h

namespace Linked

lemma wrapsWithin_succ (h : t.Linked) {needle : String} {id : NodeId} {k n : Nat}
    (hid : id < t.size) (hk : t.Level id k) (hn : t.size ≤ k + n) :
    t.wrapsWithin needle (n + 1) id = t.wrapsWithin needle n id := by
  induction n generalizing id k with
  | zero =>
      have := h.level_lt hid hk
      omega
  | succ n ih =>
      rw [wrapsWithin, wrapsWithin]
      split
      · rfl
      · next child hchild =>
          have hmem := onlyElement?_mem hchild
          rw [ih (h.lt_of_mem hmem) (h.level_of_mem hmem hk) (by omega)]

/-- The chain of sole children below a node starts with its only element. -/
lemma wrapsWithin_eq (h : t.Linked) (needle : String) {id : NodeId} (hid : id < t.size) :
    t.wrapsWithin needle t.size id = match t.onlyElement? id with
      | none => false
      | some child =>
        (t.nameOfElement? child).any (nameContains · needle)
          || t.wrapsWithin needle t.size child := by
  obtain ⟨k, hk⟩ := h.exists_level id
  rw [← h.wrapsWithin_succ hid hk (Nat.le_add_left _ _)]
  rfl

end Linked

end Restyle.SyntaxTree
