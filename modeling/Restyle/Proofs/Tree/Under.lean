import Restyle.Proofs.Tree.WellFormed

/-!
Which nodes lie under which.

* `Under`: a node lies at or under another one, along the parents;
* `Under.eq_of_siblings`: no node lies under two children of one node;
* `WellFormed.text_congr`: a node is written as before if nothing under it has changed;
* `mem_descendants_iff`, `under_of_mem_descendants`, `descendants_nodup`: the walk down a tree meets
  the nodes under its start, each once.
-/

namespace Restyle.SyntaxTree

/-- The second node is the first one or lies somewhere below it. -/
inductive Under (t : SyntaxTree) (x : NodeId) : NodeId → Prop where
  | refl : Under t x x
  | step {d p : NodeId} : t.parent d = some p → Under t x p → Under t x d

variable {t : SyntaxTree}

namespace Under

lemma trans {x y z : NodeId} (hxy : t.Under x y) (hyz : t.Under y z) : t.Under x z := by
  induction hyz with
  | refl => exact hxy
  | step hp _ ih => exact .step hp ih

lemma of_parent {c p d : NodeId} (hp : t.parent c = some p) (h : t.Under c d) : t.Under p d :=
  trans (.step hp .refl) h

/-- A node lies deeper than those that it lies under. -/
lemma exists_level {x d : NodeId} (h : t.Under x d) {n : Nat} (hn : t.Level d n) :
    ∃ m ≤ n, t.Level x m ∧ (m = n → x = d) := by
  induction h generalizing n with
  | refl => exact ⟨n, le_rfl, hn, fun _ => rfl⟩
  | step hp _ ih =>
      cases hn with
      | top hp' => rw [hp] at hp'; cases hp'
      | under hp' hn =>
          rw [hp, Option.some.injEq] at hp'
          subst hp'
          obtain ⟨m, hm, hx, -⟩ := ih hn
          exact ⟨m, by omega, hx, fun h => by omega⟩

/-- A parent does not lie under its child. -/
lemma not_parent (hl : t.Linked) {c p : NodeId} (hp : t.parent c = some p) : ¬ t.Under c p := by
  intro h
  obtain ⟨n, hn⟩ := hl.exists_level p
  obtain ⟨m, hm, hc, -⟩ := h.exists_level hn
  have := hc.unique (.under hp hn)
  omega

lemma parent_ne (hl : t.Linked) {c p : NodeId} (hp : t.parent c = some p) : c ≠ p := by
  rintro rfl
  exact not_parent hl hp .refl

/-- Of two nodes that a third one lies under, one lies under the other. -/
lemma total {a b d : NodeId} (ha : t.Under a d) (hb : t.Under b d) :
    t.Under a b ∨ t.Under b a := by
  induction ha with
  | refl => exact .inr hb
  | step hp ha ih =>
      cases hb with
      | refl => exact .inl (.step hp ha)
      | step hp' hb =>
          rw [hp, Option.some.injEq] at hp'
          subst hp'
          exact ih hb

/-- No node lies under two children of one node. -/
lemma eq_of_siblings (hl : t.Linked) {a b d p : NodeId} (hpa : t.parent a = some p)
    (hpb : t.parent b = some p) (ha : t.Under a d) (hb : t.Under b d) : a = b := by
  have key : ∀ {a b : NodeId}, t.parent a = some p → t.parent b = some p → t.Under a b →
      a = b := by
    intro a b hpa hpb h
    cases h with
    | refl => rfl
    | step hp h =>
        rw [hpb, Option.some.injEq] at hp
        subst hp
        exact absurd h (not_parent hl hpa)
  rcases total ha hb with h | h
  · exact key hpa hpb h
  · exact (key hpb hpa h).symm

lemma of_mem (hl : t.Linked) {p c : NodeId} (h : c ∈ t.children p) : t.Under p c :=
  .step (hl.parent_of_mem h) .refl

lemma lt_size (hl : t.Linked) {x d : NodeId} (h : t.Under x d) (hd : d < t.size) :
    x < t.size := by
  induction h with
  | refl => exact hd
  | step hp _ ih => exact ih (hl.parent_lt hp)

end Under

/-! ### Texts of what lies under a node -/

/-- A node is put together in the same way in two trees. -/
structure Alike (t t' : SyntaxTree) (x : NodeId) : Prop where
  slots_eq : (t'.node x).slots = (t.node x).slots
  literal_eq : (t'.node x).literal = (t.node x).literal
  ending_eq : (t'.node x).ending = (t.node x).ending

/-- A node is written as before if nothing under it has changed. -/
theorem WellFormed.text_congr {t' : SyntaxTree} (h : t.WellFormed) (h' : t'.WellFormed)
    {x : NodeId} (hlt : x < t.size) (hx : ∀ y < t.size, t.Under x y → t.Alike t' y) :
    t'.text x = t.text x := by
  induction x using h.toLinked.inductBelow with
  | step x ih =>
      obtain ⟨hslots, hliteral, hending⟩ := hx x hlt .refl
      rw [h.text_eq, h'.text_eq, hliteral, textBelow, textBelow, hslots, hending]
      congr 3
      refine List.map_congr_left fun slot hslot => ?_
      have hmem : slot.child ∈ t.children x := List.mem_map_of_mem hslot
      rw [ih _ hmem (h.lt_of_mem hmem) fun y hlt hy =>
        hx y hlt (Under.of_parent (h.parent_of_mem hmem) hy)]

/-! ### Descendants -/

lemma lt_size_of_mem_descendants (hl : t.Linked) {x d : NodeId} (hx : x < t.size)
    (h : d ∈ t.descendants x) : d < t.size := by
  induction x using hl.inductBelow with
  | step x ih =>
      rw [hl.descendants_eq hx, List.mem_cons, List.mem_flatMap] at h
      rcases h with rfl | ⟨c, hc, h⟩
      · exact hx
      · exact ih c hc (hl.lt_of_mem hc) h

lemma mem_descendants_iff (hl : t.Linked) {x d : NodeId} (hx : x < t.size) :
    d ∈ t.descendants x ↔ d = x ∨ ∃ c ∈ t.children x, d ∈ t.descendants c := by
  rw [hl.descendants_eq hx, List.mem_cons, List.mem_flatMap]

lemma mem_descendants_self (hl : t.Linked) {x : NodeId} (hx : x < t.size) :
    x ∈ t.descendants x :=
  (mem_descendants_iff hl hx).mpr (.inl rfl)

lemma under_of_mem_descendants (hl : t.Linked) {x d : NodeId} (hx : x < t.size)
    (h : d ∈ t.descendants x) : t.Under x d := by
  induction x using hl.inductBelow with
  | step x ih =>
      rcases (mem_descendants_iff hl hx).mp h with rfl | ⟨c, hc, h⟩
      · exact .refl
      · exact .of_parent (hl.parent_of_mem hc) (ih c hc (hl.lt_of_mem hc) h)

/-- What is listed below a node that is met is met as well. -/
lemma mem_descendants_of_mem (hl : t.Linked) {x p c : NodeId} (hx : x < t.size)
    (hp : p ∈ t.descendants x) (hc : c ∈ t.children p) : c ∈ t.descendants x := by
  induction x using hl.inductBelow with
  | step x ih =>
      rcases (mem_descendants_iff hl hx).mp hp with rfl | ⟨y, hy, hp⟩
      · exact (mem_descendants_iff hl hx).mpr
          (.inr ⟨c, hc, mem_descendants_self hl (hl.lt_of_mem hc)⟩)
      · exact (mem_descendants_iff hl hx).mpr (.inr ⟨y, hy, ih y hy (hl.lt_of_mem hy) hp⟩)

/-- What is met below a root is the root or is listed by a node that is met. -/
lemma exists_parent_of_mem_descendants (hl : t.Linked) {x d : NodeId} (hx : x < t.size)
    (h : d ∈ t.descendants x) : d = x ∨ ∃ p ∈ t.descendants x, d ∈ t.children p := by
  induction x using hl.inductBelow with
  | step x ih =>
      rcases (mem_descendants_iff hl hx).mp h with rfl | ⟨c, hc, h⟩
      · exact .inl rfl
      · refine .inr ?_
        rcases ih c hc (hl.lt_of_mem hc) h with rfl | ⟨p, hp, hd⟩
        · exact ⟨x, mem_descendants_self hl hx, hc⟩
        · exact ⟨p, (mem_descendants_iff hl hx).mpr (.inr ⟨c, hc, hp⟩), hd⟩

/-- No node is met twice. -/
theorem descendants_nodup (hl : t.Linked) {x : NodeId} (hx : x < t.size) :
    (t.descendants x).Nodup := by
  induction x using hl.inductBelow with
  | step x ih =>
      rw [hl.descendants_eq hx, List.nodup_cons, List.nodup_flatMap]
      refine ⟨fun hmem => ?_, fun c hc => ih c hc (hl.lt_of_mem hc), ?_⟩
      · obtain ⟨c, hc, hx'⟩ := List.mem_flatMap.mp hmem
        exact Under.not_parent hl (hl.parent_of_mem hc)
          (under_of_mem_descendants hl (hl.lt_of_mem hc) hx')
      · refine (hl.nodup x).pairwise_of_forall_ne fun a ha b hb hab => ?_
        intro d hda hdb
        exact hab (Under.eq_of_siblings hl (hl.parent_of_mem ha) (hl.parent_of_mem hb)
          (under_of_mem_descendants hl (hl.lt_of_mem ha) hda)
          (under_of_mem_descendants hl (hl.lt_of_mem hb) hdb))

end Restyle.SyntaxTree
