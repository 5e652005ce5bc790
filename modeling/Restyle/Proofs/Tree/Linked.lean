import Restyle.Proofs.Tree.Under

/-!
Changes that keep the links of a tree in order: cutting off what lies below a node (`Linked.cut`),
putting a node that stands alone below another one (`Linked.attach`), and putting such a node in the
place of a child (`Linked.exchange`). Each is stated for any tree whose links differ from those of a
given one in that way, whatever else a change does.
-/

namespace Restyle.SyntaxTree

variable {t t' : SyntaxTree}

/-! ### Levels after a change of parents -/

/-- A node keeps its level if all that it lies under keep their parents. -/
lemma Level.congr {id : NodeId} {n : Nat} (h : t.Level id n)
    (hp : ∀ x, t.Under x id → t'.parent x = t.parent x) : t'.Level id n := by
  induction h with
  | top h => exact .top ((hp _ .refl).trans h)
  | under h _ ih =>
      exact .under ((hp _ .refl).trans h) (ih fun x hx => hp x (.step h hx))

lemma exists_level_congr (hl : t.Linked) {id : NodeId}
    (hp : ∀ x, t.Under x id → t'.parent x = t.parent x) : ∃ n, t'.Level id n := by
  obtain ⟨n, hn⟩ := hl.exists_level id
  exact ⟨n, hn.congr hp⟩

/-- If the nodes whose parents differ are in order, so is every node below them. -/
lemma exists_level_of_changed (hl : t.Linked)
    (hp : ∀ x, t'.parent x = t.parent x ∨ ∃ n, t'.Level x n) (id : NodeId) :
    ∃ n, t'.Level id n := by
  obtain ⟨n, hn⟩ := hl.exists_level id
  induction hn with
  | @top id h =>
      rcases hp id with hid | hid
      · exact ⟨0, .top (hid.trans h)⟩
      · exact hid
  | @under id p n h _ ih =>
      rcases hp id with hid | hid
      · obtain ⟨m, hm⟩ := ih
        exact ⟨m + 1, .under (hid.trans h) hm⟩
      · exact hid

/-! ### Changes that keep the links in order -/

namespace Linked

/-- A node that stands alone is a child of none. -/
lemma ne_of_mem_children (hl : t.Linked) {c x q : NodeId} (hc : t.parent c = none)
    (hx : x ∈ t.children q) : x ≠ c := by
  rintro rfl
  rw [hl.parent_of_mem hx] at hc
  cases hc

/-- The links of a tree depend on its children, parents and texts only. -/
lemma congr (hl : t.Linked) (hsize : t'.size = t.size)
    (hchildren : ∀ x, t'.children x = t.children x) (hparent : ∀ x, t'.parent x = t.parent x)
    (hslots : ∀ {x : NodeId} {s : String}, (t'.node x).literal = some s → (t'.node x).slots = []) :
    t'.Linked where
  size_pos := hsize ▸ hl.size_pos
  parent_root := (hparent root).trans hl.parent_root
  parent_of_mem := fun {p c} hc => (hparent c).trans (hl.parent_of_mem (hchildren p ▸ hc))
  nodup := fun p => hchildren p ▸ hl.nodup p
  parent_lt := fun {c _} hp => hsize ▸ hl.parent_lt (hparent c ▸ hp)
  exists_level := fun _ => exists_level_congr hl fun x _ => hparent x
  slots_of_literal := hslots

/-- Cutting off what lies below a node. -/
lemma cut (hl : t.Linked) (hsize : t'.size = t.size) {id : NodeId}
    (hid : t'.children id = []) (hchildren : ∀ x, x ≠ id → t'.children x = t.children x)
    (hparent : ∀ x, t'.parent x = t.parent x)
    (hslots : ∀ {x : NodeId} {s : String}, (t'.node x).literal = some s → (t'.node x).slots = []) :
    t'.Linked where
  size_pos := hsize ▸ hl.size_pos
  parent_root := (hparent root).trans hl.parent_root
  parent_of_mem := fun {p c} hc => by
    -- The node that lost its children lists nobody; the others are as before.
    by_cases hp : p = id
    · subst hp
      rw [hid] at hc
      cases hc
    · rw [hparent]
      exact hl.parent_of_mem (hchildren p hp ▸ hc)
  nodup := fun p => by
    by_cases hp : p = id
    · subst hp
      rw [hid]
      exact List.nodup_nil
    · rw [hchildren p hp]
      exact hl.nodup p
  parent_lt := fun {c _} hp => hsize ▸ hl.parent_lt (hparent c ▸ hp)
  exists_level := fun _ => exists_level_congr hl fun x _ => hparent x
  slots_of_literal := hslots

/-- Putting a node that stands alone below another one. -/
lemma attach (hl : t.Linked) (hsize : t'.size = t.size) {p c : NodeId} (hp : p < t.size)
    (hc : t.parent c = none) (hroot : c ≠ root) (hunder : ¬ t.Under c p)
    (hpc : (t'.children p).Perm (c :: t.children p))
    (hchildren : ∀ x, x ≠ p → t'.children x = t.children x)
    (hparent_c : t'.parent c = some p) (hparent : ∀ x, x ≠ c → t'.parent x = t.parent x)
    (hslots : ∀ {x : NodeId} {s : String}, (t'.node x).literal = some s → (t'.node x).slots = []) :
    t'.Linked where
  size_pos := hsize ▸ hl.size_pos
  parent_root := (hparent root hroot.symm).trans hl.parent_root
  parent_of_mem := fun {q x} hx => by
    by_cases hq : q = p
    · subst hq
      rcases List.mem_cons.mp (hpc.mem_iff.mp hx) with rfl | hmem
      · exact hparent_c
      · rw [hparent x (hl.ne_of_mem_children hc hmem)]
        exact hl.parent_of_mem hmem
    · rw [hchildren q hq] at hx
      rw [hparent x (hl.ne_of_mem_children hc hx)]
      exact hl.parent_of_mem hx
  nodup := fun q => by
    by_cases hq : q = p
    · subst hq
      refine hpc.nodup_iff.mpr (List.nodup_cons.mpr ⟨fun hmem => ?_, hl.nodup q⟩)
      exact hl.ne_of_mem_children hc hmem rfl
    · rw [hchildren q hq]
      exact hl.nodup q
  parent_lt := fun {x q} hx => by
    rw [hsize]
    by_cases hxc : x = c
    · subst hxc
      rw [hparent_c, Option.some.injEq] at hx
      exact hx ▸ hp
    · exact hl.parent_lt (hparent x hxc ▸ hx)
  exists_level := fun id => by
    -- the chain above `p` does not meet `c`, so it stays as it is
    obtain ⟨n, hn⟩ : ∃ n, t'.Level p n := exists_level_congr hl fun x hx =>
      hparent x fun h => hunder (h ▸ hx)
    refine exists_level_of_changed hl (fun x => ?_) id
    by_cases hx : x = c
    · subst hx
      exact .inr ⟨n + 1, .under hparent_c hn⟩
    · exact .inl (hparent x hx)
  slots_of_literal := hslots

/-- A row stays without repetitions where another node takes the place of one of its nodes. -/
lemma nodup_exchanged {row : List NodeId} {old new : NodeId} (hrow : row.Nodup)
    (hnew : new ∉ row) : (row.map fun c => if c = old then new else c).Nodup := by
  refine (List.nodup_map_iff_inj_on hrow).mpr fun a ha b hb hab => ?_
  have ha' : a ≠ new := fun heq => hnew (heq ▸ ha)
  have hb' : b ≠ new := fun heq => hnew (heq ▸ hb)
  split at hab <;> split at hab <;> simp_all

/-- Putting a node that stands alone in the place of a child, which then stands alone. -/
lemma exchange (hl : t.Linked) (hsize : t'.size = t.size) {p old new : NodeId}
    (hold : old ∈ t.children p) (hnew : t.parent new = none) (hroot : new ≠ root)
    (hunder : ¬ t.Under new p)
    (hp : t'.children p = (t.children p).map fun c => if c = old then new else c)
    (hchildren : ∀ x, x ≠ p → t'.children x = t.children x)
    (hparent_new : t'.parent new = some p) (hparent_old : t'.parent old = none)
    (hparent : ∀ x, x ≠ old → x ≠ new → t'.parent x = t.parent x)
    (hslots : ∀ {x : NodeId} {s : String}, (t'.node x).literal = some s → (t'.node x).slots = []) :
    t'.Linked := by
  have hold_p : t.parent old = some p := hl.parent_of_mem hold
  constructor
  case size_pos => exact hsize ▸ hl.size_pos
  case parent_root =>
    have hne : root ≠ old := fun h => by
      rw [← h, hl.parent_root] at hold_p
      cases hold_p
    exact (hparent root hne hroot.symm).trans hl.parent_root
  case parent_of_mem =>
    intro q x hx
    by_cases hq : q = p
    · subst hq
      rw [hp, List.mem_map] at hx
      obtain ⟨c, hc, rfl⟩ := hx
      split
      · exact hparent_new
      · next hne =>
          rw [hparent c hne (hl.ne_of_mem_children hnew hc)]
          exact hl.parent_of_mem hc
    · rw [hchildren q hq] at hx
      have hne : x ≠ old := by
        rintro rfl
        exact hq (Option.some.inj ((hl.parent_of_mem hx).symm.trans hold_p))
      rw [hparent x hne (hl.ne_of_mem_children hnew hx)]
      exact hl.parent_of_mem hx
  case nodup =>
    intro q
    by_cases hq : q = p
    · subst hq
      rw [hp]
      exact nodup_exchanged (hl.nodup q) fun hmem => hl.ne_of_mem_children hnew hmem rfl
    · rw [hchildren q hq]
      exact hl.nodup q
  case parent_lt =>
    intro x q hx
    rw [hsize]
    by_cases hxn : x = new
    · subst hxn
      rw [hparent_new, Option.some.injEq] at hx
      exact hx ▸ hl.parent_lt hold_p
    · by_cases hxo : x = old
      · subst hxo
        rw [hparent_old] at hx
        cases hx
      · exact hl.parent_lt (hparent x hxo hxn ▸ hx)
  case exists_level =>
    -- neither of the two is met above `p`
    obtain ⟨n, hn⟩ : ∃ n, t'.Level p n := exists_level_congr hl fun x hx =>
      hparent x (fun h => Under.not_parent hl hold_p (h ▸ hx)) fun h => hunder (h ▸ hx)
    refine exists_level_of_changed hl fun x => ?_
    by_cases hxn : x = new
    · subst hxn
      exact .inr ⟨n + 1, .under hparent_new hn⟩
    · by_cases hxo : x = old
      · subst hxo
        exact .inr ⟨0, .top hparent_old⟩
      · exact .inl (hparent x hxo hxn)
  case slots_of_literal => exact hslots

end Linked

end Restyle.SyntaxTree
