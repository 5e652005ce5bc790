import Restyle.Proofs.Change.Value

/-!
What modifications make of the attributes of one tag.

* `Property`: the name and the string of an attribute;
* `revise`, `reviseAll`: the attributes of a tag after modifications, each of which changes the
  first attribute that it picks or adds one behind the others;
* `getElem?_reviseAll`: what becomes of an attribute depends on the modifications that pick it;
* `reviseAll_reviseAll`: modifications that are made again change nothing, unless a string was
  sticky.
-/

namespace Restyle

/-- An attribute: its name, and the quote and the inner text of its string. -/
structure Property where
  name : Option String
  string : Option (Char × String)
  deriving DecidableEq

namespace Property

/-- Whether a modification is about attributes with that name. -/
def picks (classAttributes : List String) (m : Modification) (name : Option String) : Bool :=
  match m.action with
  | .addClass => name.any classAttributes.contains
  | _ => (assigned? m).any fun a => name = some a.name

/-- The attribute after a modification of its string. -/
def reword (m : Modification) (p : Property) : Property :=
  { p with string := p.string.map (Restyle.reword m) }

/-- The attribute after modifications of its string. -/
def rewordAll (ms : List Modification) (p : Property) : Property :=
  { p with string := p.string.map (Restyle.rewordAll ms) }

/-- The inner text of the attribute's string. -/
def inner (p : Property) : Option String :=
  p.string.map Prod.snd

/-- An attribute that an assignment adds. -/
def ofAssignment (a : Assignment) : Property :=
  ⟨some a.name, some ('"', a.value)⟩

end Property

open Property (picks ofAssignment)

/-- The attributes after a modification. `adds` says whether an attribute that is missing is
added. -/
def revise (classAttributes : List String) (adds : Bool) (m : Modification)
    (ps : List Property) : List Property :=
  match (ps.map Property.name).findIdx? (picks classAttributes m), assigned? m with
  | some i, _ => ps.modify i (Property.reword m)
  | none, some a => if adds then ps ++ [ofAssignment a] else ps
  | none, none => ps

/-- The attributes after modifications, one after the other. -/
def reviseAll (classAttributes : List String) (adds : Bool) (ms : List Modification)
    (ps : List Property) : List Property :=
  ms.foldl (fun ps m => revise classAttributes adds m ps) ps

variable {classAttributes : List String} {adds : Bool}

@[simp] lemma reviseAll_nil (ps : List Property) : reviseAll classAttributes adds [] ps = ps := rfl

@[simp] lemma reviseAll_cons (m : Modification) (ms : List Modification) (ps : List Property) :
    reviseAll classAttributes adds (m :: ms) ps
      = reviseAll classAttributes adds ms (revise classAttributes adds m ps) := rfl

lemma reviseAll_append (ms ms' : List Modification) (ps : List Property) :
    reviseAll classAttributes adds (ms ++ ms') ps
      = reviseAll classAttributes adds ms' (reviseAll classAttributes adds ms ps) :=
  List.foldl_append

/-! ### Names -/

/-- Rewording changes no name. -/
lemma map_name_modify (m : Modification) (ps : List Property) (i : Nat) :
    (ps.modify i (Property.reword m)).map Property.name = ps.map Property.name := by
  induction ps generalizing i with
  | nil => rw [List.modify_nil]
  | cons p ps ih =>
      cases i with
      | zero => rfl
      | succ i => rw [List.modify_succ_cons, List.map_cons, ih, List.map_cons]

/-- Names stay, and new ones go behind them. -/
lemma map_name_revise (classAttributes : List String) (adds : Bool) (m : Modification)
    (ps : List Property) :
    ps.map Property.name <+: (revise classAttributes adds m ps).map Property.name := by
  rw [revise]
  split
  · rw [map_name_modify]
  · split
    · rw [List.map_append]
      exact List.prefix_append _ _
    · exact List.prefix_rfl
  · exact List.prefix_rfl

/-- Revising adds names behind those there are. -/
lemma map_name_reviseAll (classAttributes : List String) (adds : Bool) (ms : List Modification)
    (ps : List Property) :
    ps.map Property.name <+: (reviseAll classAttributes adds ms ps).map Property.name := by
  induction ms generalizing ps with
  | nil => exact List.prefix_rfl
  | cons m ms ih => exact (map_name_revise classAttributes adds m ps).trans (ih _)

/-- The first of some names that passes a test is the first of more of them. -/
lemma findIdx?_of_initial {α : Type} {names names' : List α} (h : names <+: names')
    {test : α → Bool}
    {i : Nat} (hi : i < names.length) :
    names'.findIdx? test = some i ↔ names.findIdx? test = some i := by
  obtain ⟨behind, rfl⟩ := h
  rw [List.findIdx?_append]
  cases hfind : names.findIdx? test with
  | some j => rfl
  | none =>
      simp only [Option.none_or, Option.map_eq_some_iff, reduceCtorEq, iff_false]
      rintro ⟨j, -, hj⟩
      omega

/-! ### One attribute -/

/-- The modifications that pick the attribute with that index. -/
def picking (classAttributes : List String) (names : List (Option String)) (i : Nat)
    (ms : List Modification) : List Modification :=
  ms.filter fun m => names.findIdx? (picks classAttributes m) = some i

/-- Further names behind do not change what is picked in front. -/
lemma picking_of_initial {names names' : List (Option String)} (h : names <+: names') {i : Nat}
    (hi : i < names.length) (ms : List Modification) :
    picking classAttributes names' i ms = picking classAttributes names i ms := by
  rw [picking, picking]
  congr 1
  funext m
  rw [decide_eq_decide]
  exact findIdx?_of_initial h hi

lemma Property.rewordAll_nil : Property.rewordAll [] = id := by
  funext p
  obtain ⟨name, string⟩ := p
  cases string <;> rfl

/-- A property is reworded by the modification that picks it, and by no other. -/
lemma getElem?_revise (m : Modification) {ps : List Property} {i : Nat} (hi : i < ps.length) :
    (revise classAttributes adds m ps)[i]?
      = ps[i]?.map (Property.rewordAll (picking classAttributes (ps.map Property.name) i [m])) := by
  rw [revise, picking, List.filter_singleton]
  cases hfind : (ps.map Property.name).findIdx? (picks classAttributes m) with
  | some j =>
      dsimp only
      -- The modification picks this property or another one in the row.
      by_cases hj : j = i
      · subst hj
        rw [List.getElem?_modify_eq]
        simp only [decide_true, cond_true]
        rfl
      · rw [List.getElem?_modify_ne _ _ hj]
        have hne : some j ≠ some i := fun h => hj (Option.some.inj h)
        simp only [decide_eq_false hne, cond_false, Property.rewordAll_nil, Option.map_id, id]
  | none =>
      simp only [reduceCtorEq, decide_false, cond_false, Property.rewordAll_nil, Option.map_id, id]
      split
      · next h => cases h
      · split
        · rw [List.getElem?_append_left hi]
        · rfl
      · rfl

/-- What becomes of an attribute depends on the modifications that pick it. -/
lemma getElem?_reviseAll (ms : List Modification) {ps : List Property} {i : Nat}
    (hi : i < ps.length) :
    (reviseAll classAttributes adds ms ps)[i]?
      = ps[i]?.map
          (Property.rewordAll (picking classAttributes (ps.map Property.name) i ms)) := by
  -- By induction on the modifications: the names only grow at the end, so later ones pick as if
  -- they came first.
  induction ms generalizing ps with
  | nil =>
      rw [picking, List.filter_nil, Property.rewordAll_nil, Option.map_id]
      rfl
  | cons m ms ih =>
      have hprefix := map_name_revise classAttributes adds m ps
      have hlen : ps.length ≤ (revise classAttributes adds m ps).length := by
        have := hprefix.length_le
        rwa [List.length_map, List.length_map] at this
      have hsplit : picking classAttributes (ps.map Property.name) i (m :: ms)
          = picking classAttributes (ps.map Property.name) i [m]
            ++ picking classAttributes (ps.map Property.name) i ms := by
        rw [picking, picking, picking, ← List.filter_append, List.singleton_append]
      rw [reviseAll_cons, ih (hi.trans_le hlen), getElem?_revise m hi, hsplit, Option.map_map,
        picking_of_initial hprefix (by rwa [List.length_map])]
      congr 1
      funext p
      obtain ⟨name, string⟩ := p
      cases string with
      | none => rfl
      | some s => simp [Property.rewordAll, Restyle.rewordAll_append]

/-- An attribute that was added, was added by one of the modifications, when none of its name was
there. -/
lemma exists_addition {ms : List Modification} {ps : List Property} {i : Nat}
    (hps : ps.length ≤ i) (hi : i < (reviseAll classAttributes adds ms ps).length) :
    ∃ before m behind a, ms = before ++ m :: behind ∧ assigned? m = some a
      ∧ (reviseAll classAttributes adds before ps).length = i
      ∧ ((reviseAll classAttributes adds before ps).map Property.name).findIdx?
          (picks classAttributes m) = none
      ∧ reviseAll classAttributes adds ms ps = reviseAll classAttributes adds behind
          (reviseAll classAttributes adds before ps ++ [ofAssignment a]) := by
  induction ms generalizing ps with
  | nil => exact absurd hi (Nat.not_lt.mpr hps)
  | cons m ms ih =>
      rw [reviseAll_cons] at hi
      rcases Nat.lt_or_ge i (revise classAttributes adds m ps).length with hlt | hge
      · -- the attribute is the one that `m` adds
        have hlen : (revise classAttributes adds m ps).length ≠ ps.length := by omega
        cases hfind : (ps.map Property.name).findIdx? (picks classAttributes m) with
        | some j =>
            rw [revise, hfind] at hlen
            exact absurd (List.length_modify ..) hlen
        | none =>
            cases ha : assigned? m with
            | none =>
                rw [revise, hfind, ha] at hlen
                exact absurd rfl hlen
            | some a =>
                have hrevise : revise classAttributes adds m ps
                    = if adds then ps ++ [ofAssignment a] else ps := by
                  rw [revise, hfind, ha]
                by_cases hadds : adds = true
                · rw [if_pos hadds] at hrevise
                  rw [hrevise, List.length_append, List.length_singleton] at hlt
                  exact ⟨[], m, ms, a, rfl, ha, by rw [reviseAll_nil]; omega, hfind,
                    by rw [reviseAll_cons, hrevise, reviseAll_nil]⟩
                · rw [if_neg hadds] at hrevise
                  rw [hrevise] at hlen
                  exact absurd rfl hlen
      · obtain ⟨before, m', behind, a, rfl, ha, hlen, hfind, heq⟩ := ih hge hi
        exact ⟨m :: before, m', behind, a, rfl, ha, hlen, hfind, heq⟩

/-! ### All attributes -/

/-- No attribute that an assignment can pick is sticky. -/
def Calm (ps : List Property) : Prop :=
  ∀ name p s, isMarkupName name = true → ps.find? (fun p => p.name = some name) = some p →
    p.string = some s → Tame s

/-- The first property of a name is the one found before, reworded or not. -/
lemma find?_modify {ps : List Property} {i : Nat} {m : Modification} {name : Option String}
    {p : Property}
    (h : (ps.modify i (Property.reword m)).find? (fun p => p.name = name) = some p) :
    ∃ q, ps.find? (fun p => p.name = name) = some q ∧ (p = q ∨ p = q.reword m) := by
  -- By induction on the row: rewording one property leaves all names, so the same one is found.
  induction ps generalizing i with
  | nil =>
      rw [List.modify_nil] at h
      cases h
  | cons q ps ih =>
      have hname : (q.reword m).name = q.name := rfl
      by_cases hq : q.name = name
      · refine ⟨q, List.find?_cons_of_pos (by simp [hq]), ?_⟩
        cases i with
        | zero =>
            rw [List.modify_zero_cons, List.find?_cons_of_pos (by simp [hname, hq]),
              Option.some.injEq] at h
            exact .inr h.symm
        | succ i =>
            rw [List.modify_succ_cons, List.find?_cons_of_pos (by simp [hq]),
              Option.some.injEq] at h
            exact .inl h.symm
      · rw [List.find?_cons_of_neg (by simp [hq])]
        cases i with
        | zero =>
            rw [List.modify_zero_cons, List.find?_cons_of_neg (by simp [hname, hq])] at h
            exact ⟨p, h, .inl rfl⟩
        | succ i =>
            rw [List.modify_succ_cons, List.find?_cons_of_neg (by simp [hq])] at h
            exact ih h

lemma calm_nil : Calm [] := fun _ _ _ _ hp => nomatch hp

/-- Modifications make no attribute sticky. -/
lemma Calm.revise {ps : List Property} (h : Calm ps) (m : Modification) :
    Calm (revise classAttributes adds m ps) := by
  intro name p s hname hp hs
  rw [Restyle.revise] at hp
  split at hp
  -- A property that was there is calm and stays so; a new one is in double quotes.
  · obtain ⟨q, hq, rfl | rfl⟩ := find?_modify hp
    · exact h name p s hname hq hs
    · rw [Property.reword, Option.map_eq_some_iff] at hs
      obtain ⟨s', hs', rfl⟩ := hs
      exact (h name q s' hname hq hs').reword m
  · next a _ _ =>
      split at hp
      · rw [List.find?_append, Option.or_eq_some_iff] at hp
        rcases hp with hp | ⟨-, hp⟩
        · exact h name p s hname hp hs
        · have hmem := List.mem_singleton.mp (List.mem_of_find?_eq_some hp)
          rw [hmem, ofAssignment, Option.some.injEq] at hs
          rw [← hs]
          refine ⟨.inl rfl, fun hsticky => ?_⟩
          have hquote : '"' = '\'' := hsticky.1
          exact absurd hquote (by decide)
      · exact h name p s hname hp hs
  · exact h name p s hname hp hs

/-- An assignment picks the first attribute of its name. -/
lemma find?_of_picking {ps : List Property} {i : Nat} {m : Modification} {a : Assignment}
    {ms : List Modification} (hm : m ∈ picking classAttributes (ps.map Property.name) i ms)
    (ha : assigned? m = some a) : ps.find? (fun p => p.name = some a.name) = ps[i]? := by
  have hfind := of_decide_eq_true (List.mem_filter.mp hm).2
  have hpicks : picks classAttributes m = fun name => decide (name = some a.name) := by
    funext name
    rw [picks, (assigned?_spec ha).1, ha]
    rfl
  rw [hpicks, List.findIdx?_map] at hfind
  have hfind' : ps.findIdx? (fun p => decide (p.name = some a.name)) = some i := hfind
  rw [List.find?_eq_bind_findIdx?_getElem?, hfind', Option.bind_some]

/-- The attributes after modifications are as many as their names say. -/
lemma revise_of_picked {m : Modification} {ps : List Property} {i : Nat}
    (h : (ps.map Property.name).findIdx? (picks classAttributes m) = some i) :
    revise classAttributes adds m ps = ps.modify i (Property.reword m) := by
  rw [revise, h]

/-- Once an assignment was made, the attribute of its name is there, or nothing is ever added. -/
lemma exists_picked {ms : List Modification} {ps : List Property} {m : Modification} (hm : m ∈ ms)
    {a : Assignment} (ha : assigned? m = some a) (hadds : adds = true) :
    ((reviseAll classAttributes adds ms ps).map Property.name).findIdx? (picks classAttributes m)
      ≠ none := by
  obtain ⟨before, behind, rfl⟩ := List.append_of_mem hm
  rw [reviseAll_append, reviseAll_cons]
  set qs := reviseAll classAttributes adds before ps
  -- Right after the assignment there is a property of its name, found or added.
  have hpick : ∃ name ∈ (revise classAttributes adds m qs).map Property.name,
      picks classAttributes m name = true := by
    cases hfind : (qs.map Property.name).findIdx? (picks classAttributes m) with
    | some i =>
        rw [revise_of_picked hfind, map_name_modify]
        by_contra hno
        rw [List.findIdx?_eq_none_iff.mpr fun name hname => Bool.not_eq_true _ ▸ fun h =>
          hno ⟨name, hname, h⟩] at hfind
        cases hfind
    | none =>
        refine ⟨some a.name, ?_, ?_⟩
        · rw [revise, hfind, ha]
          dsimp only
          rw [if_pos hadds, List.map_append]
          exact List.mem_append_right _ (List.mem_singleton_self _)
        · rw [picks, (assigned?_spec ha).1, ha]
          simp
  obtain ⟨name, hname, hpicks⟩ := hpick
  intro hnone
  -- What comes behind drops no name.
  have hmem := (map_name_reviseAll classAttributes adds behind
    (revise classAttributes adds m qs)).subset hname
  rw [List.findIdx?_eq_none_iff] at hnone
  rw [hnone name hmem] at hpicks
  cases hpicks

/-- If each modification finds what it picks, or adds nothing, no attribute is added. -/
lemma map_name_reviseAll_eq {ms : List Modification} {ps : List Property}
    (h : ∀ m ∈ ms, ∀ a, assigned? m = some a → adds = true →
      (ps.map Property.name).findIdx? (picks classAttributes m) ≠ none) :
    (reviseAll classAttributes adds ms ps).map Property.name = ps.map Property.name := by
  induction ms generalizing ps with
  | nil => rfl
  | cons m ms ih =>
      have hm : (revise classAttributes adds m ps).map Property.name = ps.map Property.name := by
        rw [revise]
        split
        · exact map_name_modify m ps _
        · next a hfind ha =>
            split
            · next hadds => exact absurd hfind (h m List.mem_cons_self a ha hadds)
            · rfl
        · rfl
      rw [reviseAll_cons, ih, hm]
      intro m' hm' a ha hadds
      rw [hm]
      exact h m' (List.mem_cons_of_mem _ hm') a ha hadds

/-- Modifications that are made again leave an attribute that was there as it is. -/
lemma rewordAll_picking {ps : List Property} (hps : Calm ps) {i : Nat} {p : Property}
    (hp : ps[i]? = some p) (ms : List Modification) :
    let picked := picking classAttributes (ps.map Property.name) i ms
    Property.rewordAll picked (Property.rewordAll picked p) = Property.rewordAll picked p := by
  intro picked
  obtain ⟨name, string⟩ := p
  cases string with
  | none => rfl
  | some s =>
      have hagain : Restyle.rewordAll picked (Restyle.rewordAll picked s)
          = Restyle.rewordAll picked s := by
        refine rewordAll_rewordAll fun ⟨m, hm, hassigned⟩ => ?_
        obtain ⟨a, ha⟩ := Option.ne_none_iff_exists'.mp hassigned
        exact hps a.name _ s (assigned?_spec ha).2.1 ((find?_of_picking hm ha).trans hp) rfl
      simp only [Property.rewordAll, Option.map_some, hagain]

/-- Modifications that are made again leave an attribute that one of them added as it is. -/
lemma rewordAll_addition (before behind : List Modification) {m : Modification} {a : Assignment}
    (ha : assigned? m = some a) :
    Property.rewordAll (before ++ m :: behind) (Property.rewordAll behind (ofAssignment a))
      = Property.rewordAll behind (ofAssignment a) := by
  have hagain : Restyle.rewordAll (before ++ m :: behind) (Restyle.rewordAll behind ('"', a.value))
      = Restyle.rewordAll behind ('"', a.value) := by
    have hquote := rewordAll_fst_of_double
      (rewordAll_fst_of_double (s := ('"', a.value)) rfl behind) before
    rw [rewordAll_append, rewordAll_cons, reword_of_double hquote ha]
  simp only [Property.rewordAll, ofAssignment, Option.map_some, hagain]

/-- An attribute that modifications added is left as it is when they are made again: the one that
added it picks it then, and gives it the value that those behind it saw at first. -/
lemma getElem?_reviseAll_of_added {ms : List Modification} {ps : List Property} {i : Nat}
    (hps : ps.length ≤ i) (hi : i < (reviseAll classAttributes adds ms ps).length) :
    (reviseAll classAttributes adds ms (reviseAll classAttributes adds ms ps))[i]?
      = (reviseAll classAttributes adds ms ps)[i]? := by
  set qs := reviseAll classAttributes adds ms ps with hqs
  rw [getElem?_reviseAll ms hi]
  -- Some assignment added the property; what came before it is undone by its value when the
  -- modifications run again.
  obtain ⟨before, m, behind, a, rfl, ha, hlen, hfind, heq⟩ := exists_addition hps hi
  set rs := reviseAll classAttributes adds before ps
  have hlt : i < (rs ++ [ofAssignment a]).length := by
    rw [List.length_append, List.length_singleton]
    omega
  have hprefix := map_name_reviseAll classAttributes adds behind (rs ++ [ofAssignment a])
  rw [← heq, ← hqs] at hprefix
  have hpicked : (qs.map Property.name).findIdx? (picks classAttributes m) = some i := by
    have hname : picks classAttributes m (ofAssignment a).name = true := by
      rw [picks, (assigned?_spec ha).1, ha]
      simp [ofAssignment]
    refine (findIdx?_of_initial hprefix (by rwa [List.length_map])).mpr ?_
    rw [List.map_append, List.findIdx?_append, hfind, Option.none_or, List.length_map, hlen]
    simp [List.findIdx?_cons, hname]
  -- So in the second run the assignment picks it, and then the same ones as in the first.
  have hsplit : picking classAttributes (qs.map Property.name) i (before ++ m :: behind)
      = picking classAttributes (qs.map Property.name) i before
        ++ m :: picking classAttributes (qs.map Property.name) i behind := by
    rw [picking, List.filter_append, List.filter_cons_of_pos (by rw [hpicked]; simp)]
    rfl
  have hval : qs[i]? = some (Property.rewordAll
      (picking classAttributes (qs.map Property.name) i behind) (ofAssignment a)) := by
    rw [hqs, heq, getElem?_reviseAll behind hlt, ← heq, ← hqs,
      picking_of_initial hprefix (by rwa [List.length_map]),
      List.getElem?_append_right hlen.le, hlen, Nat.sub_self]
    rfl
  rw [hval, hsplit, Option.map_some, rewordAll_addition _ _ ha]

/-- When modifications are made again, an attribute changes at most in that those that picked it
reword it again, if it was there before them. -/
lemma getElem?_reviseAll_reviseAll (ms : List Modification) (ps : List Property) (i : Nat) :
    (reviseAll classAttributes adds ms (reviseAll classAttributes adds ms ps))[i]?
        = (reviseAll classAttributes adds ms ps)[i]?
      ∨ ∃ p, ps[i]? = some p
        ∧ (reviseAll classAttributes adds ms ps)[i]? = some (Property.rewordAll
          (picking classAttributes (ps.map Property.name) i ms) p)
        ∧ (reviseAll classAttributes adds ms (reviseAll classAttributes adds ms ps))[i]?
          = some (Property.rewordAll (picking classAttributes (ps.map Property.name) i ms)
            (Property.rewordAll (picking classAttributes (ps.map Property.name) i ms) p)) := by
  set qs := reviseAll classAttributes adds ms ps with hqs
  have hnames : (reviseAll classAttributes adds ms qs).map Property.name = qs.map Property.name :=
    map_name_reviseAll_eq fun m hm a ha hadds => exists_picked hm ha hadds
  have hlength : (reviseAll classAttributes adds ms qs).length = qs.length := by
    have := congrArg List.length hnames
    rwa [List.length_map, List.length_map] at this
  -- the attribute was there, or was added, or is there at no time
  rcases Nat.lt_or_ge i qs.length with hi | hi
  · rcases Nat.lt_or_ge i ps.length with hold | hnew
    · have hp := List.getElem?_eq_getElem hold
      refine .inr ⟨_, hp, ?_, ?_⟩
      · rw [hqs, getElem?_reviseAll ms hold, hp, Option.map_some]
      · rw [getElem?_reviseAll ms hi,
          picking_of_initial (map_name_reviseAll classAttributes adds ms ps)
          (by rwa [List.length_map]), hqs, getElem?_reviseAll ms hold, hp, Option.map_some,
          Option.map_some]
    · exact .inl (getElem?_reviseAll_of_added hnew hi)
  · left
    rw [List.getElem?_eq_none hi, List.getElem?_eq_none (hlength ▸ hi)]

/-- Modifications that are made again leave the attributes as they are, unless an assignment could
pick one that was sticky. -/
theorem reviseAll_reviseAll {ps : List Property} (hps : Calm ps) (ms : List Modification) :
    reviseAll classAttributes adds ms (reviseAll classAttributes adds ms ps)
      = reviseAll classAttributes adds ms ps := by
  refine List.ext_getElem? fun i => ?_
  rcases getElem?_reviseAll_reviseAll ms ps i with heq | ⟨p, hp, honce, hagain⟩
  · exact heq
  · rw [honce, hagain, rewordAll_picking hps hp ms]

/-- Modifications that are made again leave the inner texts of all strings. -/
theorem map_inner_reviseAll_reviseAll (ms : List Modification) (ps : List Property) :
    (reviseAll classAttributes adds ms (reviseAll classAttributes adds ms ps)).map Property.inner
      = (reviseAll classAttributes adds ms ps).map Property.inner := by
  refine List.ext_getElem? fun i => ?_
  rw [List.getElem?_map, List.getElem?_map]
  rcases getElem?_reviseAll_reviseAll ms ps i with heq | ⟨p, -, honce, hagain⟩
  · rw [heq]
  · rw [honce, hagain, Option.map_some, Option.map_some]
    obtain ⟨name, string⟩ := p
    cases string with
    | none => rfl
    | some s =>
        simp only [Property.inner, Property.rewordAll, Option.map_some, rewordAll_snd,
          rewordTextAll_rewordTextAll]

end Restyle
