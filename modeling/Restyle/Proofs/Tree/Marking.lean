import Restyle.Proofs.Tree.Linked

/-!
Marks. Marking a node ends at the first node above it that is marked already; this is right as long
as what lies above a marked node is marked, and marking keeps it so (`changed_of_mem_markChanged`).
A tree is well formed after an edit if every node that the edit touches gets a mark
(`WellFormed.of_edit`).
-/

namespace Restyle.SyntaxTree

variable {t t' : SyntaxTree}

/-! ### One mark -/

/-- A tree in which one node got a mark. -/
def markOne (t : SyntaxTree) (id : NodeId) : SyntaxTree :=
  t.update id fun n => { n with changed := true }

lemma markChangedWithin_succ (steps : Nat) (t : SyntaxTree) (id : NodeId) :
    markChangedWithin (steps + 1) t id
      = if (t.node id).changed then t
        else match (t.markOne id).parent id with
          | some p => markChangedWithin steps (t.markOne id) p
          | none => t.markOne id := rfl

lemma node_markOne {id : NodeId} (hid : id < t.size) (x : NodeId) :
    (t.markOne id).node x = if x = id then { t.node x with changed := true } else t.node x := by
  rw [markOne, node_update_of_lt t hid]

lemma changed_markOne_self {id : NodeId} (hid : id < t.size) :
    ((t.markOne id).node id).changed = true := by
  rw [node_markOne hid, if_pos rfl]

lemma changed_markOne_of_changed (id : NodeId) {x : NodeId} (h : (t.node x).changed = true) :
    ((t.markOne id).node x).changed = true := by
  rw [markOne, node_update]
  split
  · rfl
  · exact h

lemma parent_markOne {id : NodeId} (hid : id < t.size) (x : NodeId) :
    (t.markOne id).parent x = t.parent x := by
  rw [parent, node_markOne hid]
  split <;> rfl

lemma children_markOne {id : NodeId} (hid : id < t.size) (x : NodeId) :
    (t.markOne id).children x = t.children x := by
  rw [children, node_markOne hid]
  split <;> rfl

lemma Linked.markOne (hl : t.Linked) {id : NodeId} (hid : id < t.size) : (t.markOne id).Linked :=
  hl.congr (size_update t id _) (children_markOne hid) (parent_markOne hid) fun {x s} hs => by
    rw [node_markOne hid] at hs ⊢
    split at hs
    · next hx =>
        rw [if_pos hx]
        exact hl.slots_of_literal hs
    · next hx =>
        rw [if_neg hx]
        exact hl.slots_of_literal hs

/-- Below a node without a mark there is a mark only if the node is the parent of the one that got
it. -/
lemma Linked.changed_markOne (hl : t.Linked) {id : NodeId} (hid : id < t.size)
    (hup : ∀ {p c : NodeId}, c ∈ t.children p → (t.node c).changed = true →
      (t.node p).changed = true ∨ p = id)
    {p c : NodeId} (hc : c ∈ t.children p) (hch : ((t.markOne id).node c).changed = true) :
    ((t.markOne id).node p).changed = true ∨ t.parent id = some p := by
  by_cases hcid : c = id
  · subst hcid
    exact .inr (hl.parent_of_mem hc)
  · rw [node_markOne hid, if_neg hcid] at hch
    rcases hup hc hch with h | rfl
    · exact .inl (changed_markOne_of_changed id h)
    · exact .inl (changed_markOne_self hid)

/-! ### Marks up to the root -/

lemma changed_markChangedWithin_of_changed (steps : Nat) {t : SyntaxTree} {id x : NodeId}
    (h : (t.node x).changed = true) : ((markChangedWithin steps t id).node x).changed = true := by
  induction steps generalizing t id with
  | zero => exact h
  | succ steps ih =>
      rw [markChangedWithin_succ]
      split
      · exact h
      · split
        · exact ih (changed_markOne_of_changed id h)
        · exact changed_markOne_of_changed id h

/-- Marks stay. -/
lemma changed_markChanged_of_changed {id x : NodeId} (h : (t.node x).changed = true) :
    ((t.markChanged id).node x).changed = true :=
  changed_markChangedWithin_of_changed _ h

lemma changed_markChanged_self {id : NodeId} (hid : id < t.size) :
    ((t.markChanged id).node id).changed = true := by
  obtain ⟨n, hn⟩ := Nat.exists_eq_succ_of_ne_zero (Nat.ne_of_gt (Nat.zero_lt_of_lt hid))
  rw [markChanged, hn, markChangedWithin_succ]
  split
  · next h => exact h
  · split
    · exact changed_markChangedWithin_of_changed _ (changed_markOne_self hid)
    · exact changed_markOne_self hid

lemma unchanged_of_markChanged {id x : NodeId} (h : ((t.markChanged id).node x).changed = false) :
    (t.node x).changed = false := by
  by_contra hx
  rw [changed_markChanged_of_changed (by simpa using hx)] at h
  cases h

/-- If only the children of `id` may be marked below a node that is not, then marking `id` marks
all that lies above a mark. -/
lemma changed_of_mem_markChangedWithin {steps : Nat} {t : SyntaxTree} (hl : t.Linked)
    {id : NodeId} {k : Nat} (hid : id < t.size) (hk : t.Level id k) (hsteps : k < steps)
    (hup : ∀ {p c : NodeId}, c ∈ t.children p → (t.node c).changed = true →
      (t.node p).changed = true ∨ p = id)
    {p c : NodeId} (hc : c ∈ t.children p)
    (hch : ((markChangedWithin steps t id).node c).changed = true) :
    ((markChangedWithin steps t id).node p).changed = true := by
  induction steps generalizing t id k p c with
  | zero => omega
  | succ steps ih =>
      rw [markChangedWithin_succ] at hch ⊢
      split at hch
      · next hmark =>
          rw [if_pos hmark]
          rcases hup hc hch with h | rfl
          · exact h
          · exact hmark
      · next hmark =>
          rw [if_neg hmark]
          rw [parent_markOne hid] at hch ⊢
          -- the walk ends at `id`, or goes on at its parent, the only node that may lack a mark now
          cases hk with
          | top hp =>
              rw [hp] at hch ⊢
              rcases hl.changed_markOne hid hup hc hch with h | h
              · exact h
              · rw [hp] at h
                cases h
          | @under _ q k hp hk =>
              rw [hp] at hch ⊢
              refine ih (hl.markOne hid) (size_update t id _ ▸ hl.parent_lt hp)
                (hk.congr fun x _ => parent_markOne hid x) (by omega)
                (fun {p' x} hx hxch => ?_) (children_markOne hid p ▸ hc) hch
              rw [children_markOne hid] at hx
              rcases hl.changed_markOne hid hup hx hxch with h | h
              · exact .inl h
              · rw [hp, Option.some.injEq] at h
                exact .inr h.symm

/-- Marks go up after marking a node, if before only its own children lacked a marked parent. -/
lemma changed_of_mem_markChanged (hl : t.Linked) {id : NodeId} (hid : id < t.size)
    (hup : ∀ {p c : NodeId}, c ∈ t.children p → (t.node c).changed = true →
      (t.node p).changed = true ∨ p = id)
    {p c : NodeId} (hc : c ∈ t.children p)
    (hch : ((t.markChanged id).node c).changed = true) :
    ((t.markChanged id).node p).changed = true := by
  obtain ⟨k, hk⟩ := hl.exists_level id
  exact changed_of_mem_markChangedWithin hl hid hk (hl.level_lt hid hk) hup hc hch

lemma Linked.markChanged (hl : t.Linked) (id : NodeId) : (t.markChanged id).Linked :=
  hl.congr (size_markChanged t id) (children_markChanged t id) (parent_markChanged t id)
    fun {x s} hs => by
      rw [literal_markChanged] at hs
      rw [slots_markChanged]
      exact hl.slots_of_literal hs

/-- A tree stays well formed if the nodes without a mark hold what they held before. -/
lemma WellFormed.of_edit (h : t.WellFormed) (hl : t'.Linked)
    (hup : ∀ {p c : NodeId}, c ∈ t'.children p → (t'.node c).changed = true →
      (t'.node p).changed = true)
    (hasRead : ∀ x, x < t.size → (t'.node x).asRead = (t.node x).asRead)
    (hnode : ∀ {x : NodeId} {s : String}, (t'.node x).changed = false →
      (t'.node x).asRead = some s → x < t.size ∧ (t.node x).changed = false
        ∧ (t'.node x).slots = (t.node x).slots ∧ (t'.node x).literal = (t.node x).literal
        ∧ (t'.node x).ending = (t.node x).ending) :
    t'.WellFormed where
  toLinked := hl
  changed_of_mem := hup
  asRead_of_unchanged := by
    intro x s hch hs
    obtain ⟨hx, hold, hslots, hliteral, hending⟩ := hnode hch hs
    rw [hasRead x hx] at hs
    obtain ⟨hlit, hread, hsome⟩ := h.asRead_of_unchanged hold hs
    -- An unmarked node kept its slots, and its children kept the texts that they were read with.
    have hread' : ∀ c ∈ t.children x, (t'.node c).asRead = (t.node c).asRead := fun c hc =>
      hasRead c (h.lt_of_mem hc)
    have hchildren : t'.children x = t.children x := by
      rw [children, Node.children, hslots]
      rfl
    refine ⟨hliteral.trans hlit, ?_, fun c hc => ?_⟩
    · rw [hread, readBelow, readBelow, hslots, hending]
      congr 2
      refine List.map_congr_left fun slot hslot => ?_
      rw [hread' slot.child (List.mem_map_of_mem hslot)]
    · rw [hchildren] at hc
      rw [hread' c hc]
      exact hsome c hc

/-- A tree stays well formed when one node is edited, which is marked then. -/
theorem WellFormed.of_edit_markChanged (h : t.WellFormed) {p : NodeId} (hp : p < t.size)
    (hl : t'.Linked) (hsize : t'.size = t.size)
    (hasRead : ∀ x, (t'.node x).asRead = (t.node x).asRead)
    (hmarks : ∀ x, (t'.node x).changed = (t.node x).changed)
    (hslots : ∀ x, x ≠ p → (t'.node x).slots = (t.node x).slots)
    (hliteral : ∀ x, x ≠ p → (t'.node x).literal = (t.node x).literal)
    (hending : ∀ x, x ≠ p → (t'.node x).ending = (t.node x).ending) :
    (t'.markChanged p).WellFormed := by
  have hp' : p < t'.size := hsize ▸ hp
  refine h.of_edit (hl.markChanged p) (fun {q c} hc hch => ?_)
    (fun x _ => (asRead_markChanged t' p x).trans (hasRead x)) fun {x s} hch hs => ?_
  · refine changed_of_mem_markChanged hl hp' (fun {q c} hc hch => ?_)
      (children_markChanged t' p q ▸ hc) hch
    by_cases hq : q = p
    · exact .inr hq
    · rw [children, Node.children, hslots q hq] at hc
      rw [hmarks] at hch ⊢
      exact .inl (h.changed_of_mem hc hch)
  -- The edited node is marked, so the unmarked ones are those that the edit left alone.
  · have hx : x ≠ p := by
      rintro rfl
      rw [changed_markChanged_self hp'] at hch
      cases hch
    have hold := unchanged_of_markChanged hch
    rw [hmarks] at hold
    rw [asRead_markChanged, hasRead] at hs
    rw [slots_markChanged, literal_markChanged, ending_markChanged]
    refine ⟨?_, hold, hslots x hx, hliteral x hx, hending x hx⟩
    by_contra hlt
    rw [t.node_of_size_le (Nat.not_lt.mp hlt)] at hs
    cases hs

lemma markChanged_of_size_le {id : NodeId} (hid : t.size ≤ id) : t.markChanged id = t := by
  have hupdate : t.update id (fun n => { n with changed := true }) = t := by
    rw [update]
    congr 1
    refine Array.ext_getElem? fun x => ?_
    rw [Array.getElem?_modify]
    split
    · next hx =>
        subst hx
        rw [Array.getElem?_eq_none hid]
        rfl
    · rfl
  -- A number without a node has no parent, so the walk upwards ends there.
  have hparent : t.parent id = none := by
    rw [parent, t.node_of_size_le hid]
    rfl
  rw [markChanged]
  cases t.size with
  | zero => rfl
  | succ n =>
      rw [markChangedWithin]
      split
      · rfl
      · dsimp only
        rw [hupdate, hparent]

/-- Marking keeps a tree well formed. -/
theorem WellFormed.markChanged (h : t.WellFormed) (id : NodeId) :
    (t.markChanged id).WellFormed := by
  rcases Nat.lt_or_ge id t.size with hid | hid
  · exact h.of_edit_markChanged hid h.toLinked rfl (fun _ => rfl) (fun _ => rfl) (fun _ _ => rfl)
      (fun _ _ => rfl) fun _ _ => rfl
  · rw [markChanged_of_size_le hid]
    exact h

/-- Marking changes no text. -/
theorem WellFormed.text_markChanged (h : t.WellFormed) (id x : NodeId) :
    (t.markChanged id).text x = t.text x := by
  rcases Nat.lt_or_ge x t.size with hx | hx
  · exact h.text_congr (h.markChanged id) hx fun y _ _ =>
      ⟨slots_markChanged t id y, literal_markChanged t id y, ending_markChanged t id y⟩
  · rw [text, text, textWithin_of_size_le hx, textWithin_of_size_le]
    rwa [size_markChanged]

end Restyle.SyntaxTree
