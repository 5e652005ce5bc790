import Restyle.Proofs.Change.Splice
import Restyle.Proofs.Search.Amend

/-!
Every change of a module amends it.

* `Shaped.amends_overwrite`: the string of an attribute gets a new text;
* `Grafted.amends_attribute`, `Grafted.amends_import`: a tag gets an attribute, the module gets an
  import;
* `Wrapped.amends`: an element gets a wrapper, which is its heir;
* `Shaped.overwrite`, `Shaped.grafted`, `Shaped.wrapped`: after each of them the module is in shape.
-/

namespace Restyle.SyntaxTree

variable {t t' : SyntaxTree}

/-- A node that nothing lies below and that is no tag, attribute or element. -/
lemma regular_of_leaf {x : NodeId} (hx : ∀ d, t.parent d ≠ some x)
    (htag : (t.kind x).isTag = false) (hattr : t.kind x ≠ .attribute)
    (helement : t.kind x ≠ .element) : t.Regular x where
  element_of_opening := fun h => by
    rw [h] at htag
    cases htag
  opening_of_element := fun h => absurd h helement
  no_element_in_tag := fun h => by
    rw [h] at htag
    cases htag
  leaf := fun _ => hx
  quiet_string := fun _ => quiet_of_leaf hx htag hattr
  quiet_name := fun h => by
    rw [htag] at h
    rcases h with h | h
    · cases h
    · exact absurd h hattr
  attributes_first := fun h => by
    rw [h] at htag
    cases htag

/-! ### Strings that are overwritten -/

/-- The string of an attribute is the value of no other. -/
lemma Shaped.not_under_value (h : t.Shaped) {a literal x : NodeId} {q : Char} {v : String}
    (ha : t.kind a = .attribute) (hv : t.stringValue? a = some (literal, q, v))
    (hx : t.Steady x) : ¬ t.Under x literal := by
  obtain ⟨hmem, hchild, -⟩ := stringValue?_spec hv
  have hp := h.parent_of_mem hmem
  intro hunder
  cases hunder with
  | refl => exact hx.no_value a hp ha (childIn?_spec hchild).2
  | step hp' hunder =>
      rw [hp, Option.some.injEq] at hp'
      subst hp'
      exact hx.quiet.not_under_attribute ha hunder

/-- Rewriting a text moves no node. -/
lemma parent_overwrite (t : SyntaxTree) (id : NodeId) (s : String) (x : NodeId) :
    (t.overwrite id s).parent x = t.parent x := by
  by_cases hx : x = id
  · subst hx
    rcases Nat.lt_or_ge x t.size with hlt | hge
    · rw [parent, node_overwrite hlt, if_pos rfl]
      rfl
    · rw [parent, parent, node_of_size_le _ hge, node_of_size_le _ (by rwa [size_overwrite])]
  · rw [parent, node_overwrite_of_ne hx]
    rfl

/-- The string of an attribute gets a new text. -/
theorem Shaped.amends_overwrite (h : t.Shaped) {a literal : NodeId} {q : Char} {v : String}
    (ha : t.kind a = .attribute) (hv : t.stringValue? a = some (literal, q, v)) (s : String) :
    Amends t (t.overwrite literal s) literal id := by
  obtain ⟨hmem, -, hkind, -⟩ := stringValue?_spec hv
  have hlt := h.lt_of_mem hmem
  have hnode := node_overwrite hlt s
  constructor
  case document => exact h.toDocument.overwrite hmem s
  case size_le => rw [size_overwrite]
  case kind_eq =>
    intro x _
    rw [kind, hnode]
    split <;> rfl
  case position_eq =>
    intro x _
    rw [hnode]
    split <;> rfl
  case role_eq =>
    intro x _
    rw [role, id, hnode]
    split <;> rfl
  case parent_eq => exact fun x _ _ => parent_overwrite t literal s x
  case parent_new =>
    intro x p hx hp
    rw [parent_overwrite] at hp
    exact absurd (lt_size_of_parent hp) (Nat.not_lt.mpr hx)
  -- Only the literal loses its children, and a string has no child that counts.
  case children =>
    intro x _
    by_cases hx : x = literal
    · subst hx
      refine .cut hkind ?_
      rw [SyntaxTree.children, hnode, if_pos rfl]
      rfl
    · refine .kept ?_
      rw [SyntaxTree.children, node_overwrite_of_ne hx, List.map_id]
      rfl
  case moved => exact fun x hx => absurd rfl hx
  case onlyAt => exact onlyAt_overwrite t literal s
  -- A quiet node holds no attribute, so the rewritten value is not below it.
  case apart => exact fun x hx => h.not_under_value ha hv hx
  case quiet_new =>
    intro x _ _ d hd
    rw [kind, node_of_size_le _ (by rwa [size_overwrite])]
    exact ⟨rfl, by decide⟩

lemma regular_of_size_le {x : NodeId} (hl : t.Linked) (hx : t.size ≤ x) : t.Regular x := by
  have hk := kind_of_size_le hx
  refine regular_of_leaf (fun d hd => ?_) (by rw [hk]; rfl) (by rw [hk]; decide)
    (by rw [hk]; decide)
  exact absurd (hl.parent_lt hd) (Nat.not_lt.mpr hx)

/-- Rewriting the string of an attribute keeps the tree in shape. -/
theorem Shaped.overwrite (h : t.Shaped) {a literal : NodeId} {q : Char} {v : String}
    (ha : t.kind a = .attribute) (hv : t.stringValue? a = some (literal, q, v)) (s : String) :
    (t.overwrite literal s).Shaped := by
  have hamends := h.amends_overwrite ha hv s
  refine hamends.shaped h fun x hx => ?_
  exact regular_of_size_le hamends.document.toLinked (by rwa [size_overwrite])

/-! ### Rows of leaves that are grafted -/

namespace Grafted

variable {n : Node} {pieces : List Piece} {p : NodeId} {l r r' : List Slot} {gap : String}

lemma kind_old {row : List Node} (hg : Grafted t t' row p l r r' gap) {x : NodeId}
    (hx : x < t.size) : t'.kind x = t.kind x := by
  rw [kind, hg.node_old x hx]
  split <;> rfl

lemma role_old {row : List Node} (hg : Grafted t t' row p l r r' gap) {x : NodeId}
    (hx : x < t.size) : t'.role x = t.role x := by
  rw [role, hg.node_old x hx]
  split <;> rfl

lemma parent_old {row : List Node} (hg : Grafted t t' row p l r r' gap) {x : NodeId}
    (hx : x < t.size) : t'.parent x = t.parent x := by
  rw [parent, hg.node_old x hx]
  split <;> rfl

/-- A node behind the first new one is a leaf below that, or none at all. -/
lemma node_leaf (hg : Grafted t t' (n :: pieces.map (leaf t.size)) p l r r' gap) {x : NodeId}
    (hx : t.size < x) :
    (∃ piece ∈ pieces, t'.node x
        = { leaf t.size piece with changed := (t'.node x).changed })
      ∨ t'.node x = { (default : Node) with changed := (t'.node x).changed } := by
  obtain ⟨i, rfl⟩ := Nat.exists_eq_add_of_lt hx
  have hrow := hg.node_row (i + 1) (Nat.succ_ne_zero i)
  rw [List.getD_cons_succ, List.getD_eq_getElem?_getD, List.getElem?_map] at hrow
  rw [Nat.add_assoc]
  cases hpiece : pieces[i]? with
  | none =>
      rw [hpiece] at hrow
      exact .inr hrow
  | some piece =>
      rw [hpiece] at hrow
      exact .inl ⟨piece, List.mem_of_getElem? hpiece, hrow⟩

/-- Nothing lies below the leaves. -/
lemma parent_ne (hg : Grafted t t' (n :: pieces.map (leaf t.size)) p l r r' gap) (h : t.Linked)
    (hp : p < t.size) {x : NodeId} (hx : t.size < x) (d : NodeId) : t'.parent d ≠ some x := by
  intro hd
  rcases Nat.lt_trichotomy d t.size with hlt | rfl | hgt
  · rw [hg.parent_old hlt] at hd
    exact absurd ((h.parent_lt hd).trans hx) (Nat.lt_irrefl _)
  · rw [parent, hg.node_top, Option.some.injEq] at hd
    subst hd
    exact absurd (hp.trans hx) (Nat.lt_irrefl _)
  · rcases hg.node_leaf hgt with ⟨piece, -, hnode⟩ | hnode
    · rw [parent, hnode, leaf, Option.some.injEq] at hd
      exact absurd hx (hd ▸ Nat.lt_irrefl _)
    · rw [parent, hnode] at hd
      cases hd

/-- A new node hangs below another new one, or at the place of the insertion. -/
lemma parent_new (hg : Grafted t t' (n :: pieces.map (leaf t.size)) p l r r' gap) {x q : NodeId}
    (hx : t.size ≤ x) (hq : t'.parent x = some q) : t.size ≤ q ∨ q = p := by
  rcases Nat.eq_or_lt_of_le hx with rfl | hgt
  · rw [parent, hg.node_top, Option.some.injEq] at hq
    exact .inr hq.symm
  · rcases hg.node_leaf hgt with ⟨piece, -, hnode⟩ | hnode
    · rw [parent, hnode, leaf, Option.some.injEq] at hq
      exact .inl (Nat.le_of_eq hq)
    · rw [parent, hnode] at hq
      cases hq

/-- At its place the insertion puts one child between those in front and those behind. -/
lemma children_place {row : List Node} (hg : Grafted t t' row p l r r' gap) (hp : p < t.size)
    (hr : r'.map Slot.child = r.map Slot.child) :
    t.children p = l.map Slot.child ++ r.map Slot.child
      ∧ t'.children p = l.map Slot.child ++ t.size :: r.map Slot.child := by
  refine ⟨?_, ?_⟩
  · rw [children, Node.children, hg.slots_eq, List.map_append]
  · rw [children, hg.node_old p hp, if_pos rfl, ← hr]
    simp [Node.children]

lemma children_old {row : List Node} (hg : Grafted t t' row p l r r' gap) {x : NodeId}
    (hx : x < t.size) (hxp : x ≠ p) : t'.children x = t.children x := by
  rw [children, hg.node_old x hx, if_neg hxp]
  rfl

/-- The pieces below the new node are of the kinds given. -/
lemma kind_leaf (hg : Grafted t t' (n :: pieces.map (leaf t.size)) p l r r' gap) {x : NodeId}
    (hx : t.size < x) (hpieces : ∀ piece ∈ pieces, piece.kind ≠ .attribute
      ∧ piece.kind.isTag = false ∧ piece.kind ≠ .element) :
    t'.kind x ≠ .attribute ∧ (t'.kind x).isTag = false ∧ t'.kind x ≠ .element := by
  rcases hg.node_leaf hx with ⟨piece, hmem, hnode⟩ | hnode
  · rw [kind, hnode]
    exact hpieces piece hmem
  · have hk : t'.kind x = .other := by
      rw [kind, hnode]
      rfl
    rw [hk]
    exact ⟨by decide, rfl, by decide⟩

/-- Grafting leaves amends a module. -/
lemma amends (hg : Grafted t t' (n :: pieces.map (leaf t.size)) p l r r' gap) (h : t.Shaped)
    (hp : p < t.size) (hr : r'.map Slot.child = r.map Slot.child)
    (hplace : t.kind p = .program ∨ (t.kind p).isTag = true ∧ n.kind = .attribute
      ∧ t.attributesEnd? p = some l.length)
    (hrole : ∀ role, n.role = some role → role = .attribute)
    (hpieces : ∀ piece ∈ pieces, piece.kind ≠ .attribute ∧ piece.kind.isTag = false
      ∧ piece.kind ≠ .element)
    (hprogram : t.kind p = .program → p = root ∧ n.kind.isTag = false ∧ n.kind ≠ .attribute) :
    Amends t t' p id := by
  have htop := hg.node_top
  have hkind : t'.kind t.size = n.kind := by
    rw [kind, htop]
    rfl
  have hnew : t'.role t.size = n.role := by
    rw [role, htop]
    rfl
  constructor
  case document => exact h.toDocument.grafted hg
  case size_le =>
    rw [hg.size_eq]
    exact Nat.le_add_right _ _
  case kind_eq => exact fun x hx => hg.kind_old hx
  case position_eq =>
    intro x hx
    rw [hg.node_old x hx]
    split <;> rfl
  case role_eq => exact fun x hx => hg.role_old hx
  case parent_eq => exact fun x hx _ => hg.parent_old hx
  case parent_new =>
    intro x q hx hq
    refine (hg.parent_new hx hq).imp_right fun heq => ⟨heq, ?_, ?_⟩ <;>
    · intro hk
      rcases hplace with hprog | ⟨htag, -⟩
      · rw [hprog] at hk
        cases hk
      · rw [hk] at htag
        cases htag
  case children =>
    intro x hx
    by_cases hxp : x = p
    · subst hxp
      obtain ⟨hl, hl'⟩ := hg.children_place hp hr
      refine .joined ?_ (fun _ => rfl) (fun role hr => hrole role (hnew.symm.trans hr)) hl hl'
      rw [hkind, List.length_map]
      exact hplace
    · refine .kept ?_
      rw [hg.children_old hx hxp, List.map_id]
  case moved => exact fun x hx => absurd rfl hx
  case onlyAt => exact hg.onlyAt
  -- The root is not quiet, and a quiet node holds no tag.
  case apart =>
    intro x hx hunder
    rcases hplace with hprog | ⟨htag, -⟩
    · obtain ⟨rfl, -⟩ := hprogram hprog
      cases hunder with
      | refl => exact hx.ne_root rfl
      | step hp _ =>
          rw [h.parent_root] at hp
          cases hp
    · exact hx.quiet.not_under_tag htag hunder
  -- The new node is the attribute itself or an import, with plain pieces below.
  case quiet_new =>
    intro x hx hunder d hd
    rcases hplace with hprog | ⟨htag, -⟩
    · rcases Nat.eq_or_lt_of_le hd with rfl | hgt
      · rw [hkind]
        exact (hprogram hprog).2
      · obtain ⟨hattr, htag, -⟩ := hg.kind_leaf hgt hpieces
        exact ⟨htag, hattr⟩
    · exact absurd hunder (hx.not_under_tag htag)

/-- The leaves that were grafted are in shape. -/
lemma regular_leaf (hg : Grafted t t' (n :: pieces.map (leaf t.size)) p l r r' gap) (h : t.Linked)
    (hp : p < t.size) (hpieces : ∀ piece ∈ pieces, piece.kind ≠ .attribute
      ∧ piece.kind.isTag = false ∧ piece.kind ≠ .element) {x : NodeId} (hx : t.size < x) :
    t'.Regular x := by
  obtain ⟨hattr, htag, helement⟩ := hg.kind_leaf hx hpieces
  exact regular_of_leaf (hg.parent_ne h hp hx) htag hattr helement

/-- The node that holds them is in shape. -/
lemma regular_top (hg : Grafted t t' (n :: pieces.map (leaf t.size)) p l r r' gap) (h : t.Linked)
    (hp : p < t.size) (hpieces : ∀ piece ∈ pieces, piece.kind ≠ .attribute
      ∧ piece.kind.isTag = false ∧ piece.kind ≠ .element)
    (hn : n.kind = .attribute ∨ n.kind = .importStatement) : t'.Regular t.size := by
  have hkind : t'.kind t.size = n.kind := by
    rw [kind, hg.node_top]
    rfl
  have htag : (t'.kind t.size).isTag = false := by
    rcases hn with hn | hn <;> rw [hkind, hn] <;> rfl
  constructor
  case element_of_opening =>
    intro hk
    rw [hk] at htag
    cases htag
  case opening_of_element =>
    intro hk
    rcases hn with hn | hn <;> rw [hkind, hn] at hk <;> cases hk
  case no_element_in_tag =>
    intro hk
    rw [htag] at hk
    cases hk
  case leaf =>
    intro hk
    rcases hn with hn | hn <;> rw [hkind, hn] at hk <;> rcases hk with hk | hk <;> cases hk
  case quiet_string =>
    intro hk
    rcases hn with hn | hn <;> rw [hkind, hn] at hk <;> cases hk
  -- The name is one of the pieces, which are leaves.
  case quiet_name =>
    intro _ c hc
    have hparent := hg.wellFormed.parent_of_mem (childIn?_spec hc).1
    have hlt : t.size < c := by
      rcases Nat.lt_trichotomy c t.size with hlt | rfl | hgt
      · rw [hg.parent_old hlt] at hparent
        exact absurd (h.parent_lt hparent) (Nat.lt_irrefl _)
      · exact absurd rfl (Under.parent_ne hg.wellFormed.toLinked hparent)
      · exact hgt
    obtain ⟨hattr, hctag, -⟩ := hg.kind_leaf hlt hpieces
    exact quiet_of_leaf (hg.parent_ne h hp hlt) hctag hattr
  case attributes_first =>
    intro hk
    rw [htag] at hk
    cases hk

/-- A module with leaves grafted into it is in shape. -/
lemma shaped (hg : Grafted t t' (n :: pieces.map (leaf t.size)) p l r r' gap) (h : t.Shaped)
    (hp : p < t.size) (hamends : Amends t t' p id)
    (hpieces : ∀ piece ∈ pieces, piece.kind ≠ .attribute ∧ piece.kind.isTag = false
      ∧ piece.kind ≠ .element)
    (hn : n.kind = .attribute ∨ n.kind = .importStatement) : t'.Shaped := by
  refine hamends.shaped h fun x hx => ?_
  rcases Nat.eq_or_lt_of_le hx with rfl | hgt
  · exact hg.regular_top h.toLinked hp hpieces hn
  · exact hg.regular_leaf h.toLinked hp hpieces hgt

end Grafted

/-! ### Attributes and imports -/

lemma attributePieces_plain (name value : String) : ∀ piece ∈ attributePieces name value,
    piece.kind ≠ .attribute ∧ piece.kind.isTag = false ∧ piece.kind ≠ .element := by
  simp [attributePieces, NodeKind.isTag]

lemma importPieces_plain (binding library : String) : ∀ piece ∈ importPieces binding library,
    piece.kind ≠ .attribute ∧ piece.kind.isTag = false ∧ piece.kind ≠ .element := by
  simp [importPieces, NodeKind.isTag]

/-- The place behind the attributes is one of the tag's slots, or the end of them. -/
lemma lt_size_of_attributesEnd? {tag : NodeId} {i : Nat} (h : t.attributesEnd? tag = some i) :
    tag < t.size ∧ ((t.node tag).slots.take i).length = i := by
  obtain ⟨front, name, between, stop, back, hslots, hlen, -⟩ := exists_of_attributesEnd? h
  have hmem : stop.child ∈ t.children tag :=
    mem_children_iff.mpr ⟨stop.gap, by rw [hslots]; simp⟩
  refine ⟨lt_size_of_mem hmem, ?_⟩
  rw [hslots, ← hlen, List.take_left]

/-- A tag gets an attribute. -/
theorem Grafted.amends_attribute {name value gap : String} {tag : NodeId} {i : Nat}
    (hg : Grafted t t' (attributeRow t.size name value) tag ((t.node tag).slots.take i)
      ((t.node tag).slots.drop i) ((t.node tag).slots.drop i) gap) (h : t.Shaped)
    (htag : (t.kind tag).isTag = true) (hi : t.attributesEnd? tag = some i) :
    Amends t t' tag id := by
  obtain ⟨hlt, hlen⟩ := lt_size_of_attributesEnd? hi
  refine Grafted.amends hg h hlt rfl (.inr ⟨htag, rfl, by rw [hlen]; exact hi⟩)
    (fun role hr => ?_) (attributePieces_plain name value) fun hk => ?_
  · exact (Option.some.inj hr).symm
  · rw [hk] at htag
    cases htag

/-- A new attribute behind the others keeps the tree in shape. -/
theorem Shaped.grafted_attribute {name value gap : String} {tag : NodeId} {i : Nat}
    (hg : Grafted t t' (attributeRow t.size name value) tag ((t.node tag).slots.take i)
      ((t.node tag).slots.drop i) ((t.node tag).slots.drop i) gap) (h : t.Shaped)
    (htag : (t.kind tag).isTag = true) (hi : t.attributesEnd? tag = some i) : t'.Shaped :=
  Grafted.shaped hg h (lt_size_of_attributesEnd? hi).1 (hg.amends_attribute h htag hi)
    (attributePieces_plain name value) (.inl rfl)

lemma Seam.map_child {l r r' : List Slot} {gap : String} (hs : Seam l r r' gap) :
    r'.map Slot.child = r.map Slot.child := by
  rcases hs with ⟨slot, rest, rfl, -, rfl⟩ | ⟨rfl, rfl, -⟩ <;> rfl

/-- The module gets an import. -/
theorem Grafted.amends_import {binding library gap : String} {l r r' : List Slot}
    (hg : Grafted t t' (importRow t.size binding library) root l r r' gap) (h : t.Shaped)
    (hs : Seam l r r' gap) : Amends t t' root id := by
  refine Grafted.amends hg h h.root_lt hs.map_child (.inl h.kind_root) (fun role hr => ?_)
    (importPieces_plain binding library) fun _ => ⟨rfl, rfl, fun hk => ?_⟩
  · cases hr
  · cases hk

/-- A new import keeps the tree in shape. -/
theorem Shaped.grafted_import {binding library gap : String} {l r r' : List Slot}
    (hg : Grafted t t' (importRow t.size binding library) root l r r' gap) (h : t.Shaped)
    (hs : Seam l r r' gap) : t'.Shaped :=
  Grafted.shaped hg h h.root_lt (hg.amends_import h hs) (importPieces_plain binding library)
    (.inr rfl)

/-! ### Wrappers -/

/-- Behind the first node of an element without children stand its two tags, and leaves below
them. -/
lemma getD_elementRow (b : NodeId) (name : String) {i : Nat} (hi : i ≠ 0) :
    (i = 1 ∨ i = 5) ∧ ((elementRow b name).getD i default).parent = some b
      ∨ (∃ piece ∈ tagPieces "<" name ++ tagPieces "</" name, ∃ q, (q = b + 1 ∨ q = b + 5)
        ∧ (elementRow b name).getD i default = leaf q piece)
      ∨ (elementRow b name).getD i default = default := by
  match i, hi with
  | 1, _ => exact .inl ⟨.inl rfl, rfl⟩
  | 2, _ => exact .inr (.inl ⟨⟨.token, "<", none, ""⟩, by simp [tagPieces], b + 1, .inl rfl, rfl⟩)
  | 3, _ =>
    exact .inr (.inl ⟨⟨.identifier, name, some .name, ""⟩, by simp [tagPieces], b + 1, .inl rfl,
      rfl⟩)
  | 4, _ => exact .inr (.inl ⟨⟨.token, ">", none, ""⟩, by simp [tagPieces], b + 1, .inl rfl, rfl⟩)
  | 5, _ => exact .inl ⟨.inr rfl, rfl⟩
  | 6, _ => exact .inr (.inl ⟨⟨.token, "</", none, ""⟩, by simp [tagPieces], b + 5, .inr rfl, rfl⟩)
  | 7, _ =>
    exact .inr (.inl ⟨⟨.identifier, name, some .name, ""⟩, by simp [tagPieces], b + 5, .inr rfl,
      rfl⟩)
  | 8, _ => exact .inr (.inl ⟨⟨.token, ">", none, ""⟩, by simp [tagPieces], b + 5, .inr rfl, rfl⟩)
  | i + 9, _ => exact .inr (.inr rfl)

/-- The wrapper of an element stands where the element stood. -/
def wrapperOf (t : SyntaxTree) (e x : NodeId) : NodeId :=
  if x = e then t.size else x

lemma wrapperOf_self (t : SyntaxTree) (e : NodeId) : t.wrapperOf e e = t.size := if_pos rfl

lemma wrapperOf_of_ne {e x : NodeId} (hx : x ≠ e) : t.wrapperOf e x = x := if_neg hx

namespace Wrapped

variable {name : String} {e p : NodeId} {l r : List Slot} {gap : String}

lemma kind_old (hw : Wrapped t t' name e p l r gap) {x : NodeId} (hx : x < t.size) :
    t'.kind x = t.kind x := by
  rw [kind, hw.node_old x hx]
  split
  · rfl
  · split <;> rfl

lemma parent_old (hw : Wrapped t t' name e p l r gap) {x : NodeId} (hx : x < t.size)
    (hxe : x ≠ e) : t'.parent x = t.parent x := by
  rw [parent, hw.node_old x hx, if_neg hxe]
  split <;> rfl

lemma parent_wrapped (hw : Wrapped t t' name e p l r gap) : t'.parent e = some t.size := by
  rw [parent, hw.node_old e (lt_size_of_parent hw.parent_eq), if_pos rfl]

lemma parent_outer (hw : Wrapped t t' name e p l r gap) : t'.parent t.size = some p := by
  rw [parent, hw.node_outer]

lemma kind_outer (hw : Wrapped t t' name e p l r gap) : t'.kind t.size = .element := by
  rw [kind, hw.node_outer]
  rfl

lemma children_outer (hw : Wrapped t t' name e p l r gap) :
    t'.children t.size = [t.size + 1, e, t.size + 5] := by
  rw [children, hw.node_outer]
  rfl

lemma node_opening (hw : Wrapped t t' name e p l r gap) : t'.node (t.size + 1)
    = { Node.made .openingTag with
        role := some .openTag
        slots := leafSlots (t.size + 2) (tagPieces "<" name)
        parent := some t.size
        changed := (t'.node (t.size + 1)).changed } :=
  hw.node_row 1 (by decide)

lemma node_closing (hw : Wrapped t t' name e p l r gap) : t'.node (t.size + 5)
    = { Node.made .closingTag with
        role := some .closeTag
        slots := leafSlots (t.size + 6) (tagPieces "</" name)
        parent := some t.size
        changed := (t'.node (t.size + 5)).changed } :=
  hw.node_row 5 (by decide)

/-- The wrapper holds nothing but the element. -/
lemma onlyElement?_outer (hw : Wrapped t t' name e p l r gap) (he : (t.kind e).isElement = true) :
    t'.onlyElement? t.size = some e := by
  have hlt := lt_size_of_parent hw.parent_eq
  have hkind := hw.kind_old hlt
  have hrole : t'.role e = none := by rw [role, hw.node_old e hlt, if_pos rfl]
  have hopen : t'.role (t.size + 1) = some .openTag := by rw [role, hw.node_opening]
  have hclose : t'.role (t.size + 5) = some .closeTag := by rw [role, hw.node_closing]
  have htext : t.kind e ≠ .text := fun hk => by
    rw [hk] at he
    cases he
  refine onlyElement?_eq_some hw.kind_outer ?_ (hkind ▸ he)
  have h1 : t'.isContent (t.size + 1) = false := by rw [isContent, hopen]; rfl
  have h2 : t'.isContent e = true := by
    rw [isContent, hrole, hkind, decide_eq_false htext]
    rfl
  have h3 : t'.isContent (t.size + 5) = false := by rw [isContent, hclose]; rfl
  rw [hw.children_outer, List.filter_cons_of_neg (by rw [h1]; decide),
    List.filter_cons_of_pos h2, List.filter_cons_of_neg (by rw [h3]; decide), List.filter_nil]

/-- A new node behind the wrapper is one of its tags, a leaf below these, or none at all. -/
lemma node_new (hw : Wrapped t t' name e p l r gap) {x : NodeId} (hx : t.size < x) :
    (x = t.size + 1 ∨ x = t.size + 5) ∧ t'.parent x = some t.size
      ∨ (t'.kind x = .token ∨ t'.kind x = .identifier ∨ t'.kind x = .other)
        ∧ ∀ q, t'.parent x = some q → q = t.size + 1 ∨ q = t.size + 5 := by
  obtain ⟨i, rfl⟩ := Nat.exists_eq_add_of_lt hx
  rw [Nat.add_assoc]
  have hrow := hw.node_row (i + 1) (Nat.succ_ne_zero i)
  rcases getD_elementRow t.size name (Nat.succ_ne_zero i) with
    ⟨hi, hp⟩ | ⟨piece, hpiece, q, hq, hleaf⟩ | hdefault
  · refine .inl ⟨hi.imp (congrArg (t.size + ·)) (congrArg (t.size + ·)), ?_⟩
    rw [parent, hrow]
    exact hp
  · refine .inr ⟨?_, fun q' hq' => ?_⟩
    · rw [kind, hrow, hleaf]
      simp only [tagPieces, List.cons_append, List.nil_append, List.mem_cons, List.not_mem_nil,
        or_false] at hpiece
      rcases hpiece with rfl | rfl | rfl | rfl | rfl | rfl <;> simp [leaf, Node.made]
    · rw [parent, hrow, hleaf, leaf, Option.some.injEq] at hq'
      exact hq' ▸ hq
  · refine .inr ⟨?_, fun q' hq' => ?_⟩
    · rw [kind, hrow, hdefault]
      exact .inr (.inr rfl)
    · rw [parent, hrow, hdefault] at hq'
      cases hq'

/-- The children of an old node are the same, with the wrapper for the element. -/
lemma children_eq (hw : Wrapped t t' name e p l r gap) (h : t.Linked) {x : NodeId}
    (hx : x < t.size) : t'.children x = (t.children x).map (t.wrapperOf e) := by
  have hself : ∀ {l : List NodeId}, e ∉ l → l.map (t.wrapperOf e) = l := fun {l} hl => by
    refine (List.map_congr_left fun c hc => ?_).trans (List.map_id l)
    exact wrapperOf_of_ne fun heq => hl (heq ▸ hc)
  by_cases hxp : x = p
  · subst hxp
    have hxe : x ≠ e := (Under.parent_ne h hw.parent_eq).symm
    have hold : t.children x = l.map Slot.child ++ e :: r.map Slot.child := by
      rw [children, Node.children, hw.slots_eq, List.map_append]
      rfl
    have hnew : t'.children x = l.map Slot.child ++ t.size :: r.map Slot.child := by
      rw [children, hw.node_old x hx, if_neg hxe, if_pos rfl]
      simp [Node.children]
    -- The element occurs once, so the slots around it are not touched by the exchange.
    have hnodup := h.nodup x
    rw [hold, List.nodup_middle, List.nodup_cons, List.mem_append, not_or] at hnodup
    rw [hnew, hold, List.map_append, List.map_cons, wrapperOf_self, hself hnodup.1.1,
      hself hnodup.1.2]
  · have hmem : e ∉ t.children x := fun hmem => by
      have := h.parent_of_mem hmem
      rw [hw.parent_eq, Option.some.injEq] at this
      exact hxp this.symm
    have hnode := hw.node_old x hx
    rw [hself hmem, children, hnode]
    split
    · rfl
    · rfl

/-- An element gets a wrapper. -/
theorem amends (hw : Wrapped t t' name e p l r gap) (h : t.Shaped)
    (he : e ∈ t.descendants root) (hk : (t.kind e).isElement = true) (hq : ¬ t.Quiet e) :
    Amends t t' p (t.wrapperOf e) := by
  -- The element is loud, hence so is whatever stands above its place.
  have hunder : ∀ x, t.Quiet x → ¬ t.Under x p := fun x hx hp =>
    hq (hx.of_under (.step hw.parent_eq hp))
  constructor
  case document => exact h.toDocument.wrapped hw
  case size_le =>
    rw [hw.size_eq]
    exact Nat.le_add_right _ _
  case kind_eq => exact fun x hx => hw.kind_old hx
  case position_eq =>
    intro x hx
    rw [hw.node_old x hx]
    split
    · rfl
    · split <;> rfl
  case role_eq =>
    intro x hx
    by_cases hxe : x = e
    · subst hxe
      rw [wrapperOf_self, role, hw.node_outer]
    · rw [wrapperOf_of_ne hxe, role, hw.node_old x hx, if_neg hxe]
      split <;> rfl
  case parent_eq =>
    intro x hx hheir
    refine hw.parent_old hx fun heq => ?_
    rw [heq, wrapperOf_self] at hheir
    exact absurd hx (heq ▸ hheir ▸ Nat.lt_irrefl _)
  case parent_new =>
    intro x q hx hparent
    rcases Nat.eq_or_lt_of_le hx with rfl | hgt
    · rw [hw.parent_outer, Option.some.injEq] at hparent
      subst hparent
      have hleaf := (h.regular p).leaf
      exact .inr ⟨rfl, fun hk => hleaf (.inl hk) e hw.parent_eq,
        fun hk => hleaf (.inr hk) e hw.parent_eq⟩
    · refine .inl ?_
      rcases hw.node_new hgt with ⟨-, hp⟩ | ⟨-, hp⟩
      · rw [hp, Option.some.injEq] at hparent
        exact Nat.le_of_eq hparent
      · rcases hp q hparent with rfl | rfl
        · exact Nat.le_add_right _ _
        · exact Nat.le_add_right _ _
  case children => exact fun x hx => .kept (hw.children_eq h.toLinked hx)
  -- Only the element is answered for by another node.
  case moved =>
    intro x hx
    have hxe : x = e := by
      by_contra hne
      exact hx (wrapperOf_of_ne hne)
    subst hxe
    rw [wrapperOf_self]
    exact ⟨he, hk, hq, hw.parent_eq, le_rfl, hw.kind_outer, hw.onlyElement?_outer hk⟩
  case onlyAt => exact hw.onlyAt
  case apart => exact fun x hx => hunder x hx.quiet
  case quiet_new => exact fun x hx hp => absurd hp (hunder x hx)

/-- Parents in the new tree are old nodes, the wrapper or one of its tags. -/
lemma parent_cases (hw : Wrapped t t' name e p l r gap) (h : t.Linked) {d q : NodeId}
    (hq : t'.parent d = some q) : q ≤ t.size ∨ q = t.size + 1 ∨ q = t.size + 5 := by
  have hp : p < t.size := h.parent_lt hw.parent_eq
  rcases Nat.lt_trichotomy d t.size with hlt | rfl | hgt
  · by_cases hde : d = e
    · subst hde
      rw [hw.parent_wrapped, Option.some.injEq] at hq
      exact .inl (Nat.le_of_eq hq.symm)
    · rw [hw.parent_old hlt hde] at hq
      exact .inl (h.parent_lt hq).le
  · rw [hw.parent_outer, Option.some.injEq] at hq
    exact .inl (hq ▸ hp.le)
  · rcases hw.node_new hgt with ⟨-, hp⟩ | ⟨-, hp⟩
    · rw [hp, Option.some.injEq] at hq
      exact .inl (Nat.le_of_eq hq.symm)
    · exact .inr (hp q hq)

/-- The leaves of the tags of a wrapper. -/
lemma leaf_spec (hw : Wrapped t t' name e p l r gap) (h : t.Linked) {x : NodeId} (hx : t.size < x)
    (hopen : x ≠ t.size + 1) (hclose : x ≠ t.size + 5) :
    (∀ d, t'.parent d ≠ some x) ∧ (t'.kind x).isTag = false ∧ t'.kind x ≠ .attribute
      ∧ (t'.kind x).isElement = false := by
  refine ⟨fun d hd => ?_, ?_⟩
  · rcases hw.parent_cases h hd with hle | rfl | rfl
    · exact absurd hx (Nat.not_lt.mpr hle)
    · exact hopen rfl
    · exact hclose rfl
  · rcases hw.node_new hx with ⟨hx, -⟩ | ⟨hk, -⟩
    · exact absurd hx (not_or.mpr ⟨hopen, hclose⟩)
    · rcases hk with hk | hk | hk <;> rw [hk] <;> exact ⟨rfl, by decide, rfl⟩

/-- The leaves of the opening tag of a wrapper. -/
lemma of_mem_opening (hw : Wrapped t t' name e p l r gap) (h : t.Linked) {c : NodeId}
    (hc : c ∈ t'.children (t.size + 1)) :
    (∀ d, t'.parent d ≠ some c) ∧ (t'.kind c).isTag = false ∧ t'.kind c ≠ .attribute
      ∧ (t'.kind c).isElement = false := by
  have hchildren : t'.children (t.size + 1) = [t.size + 2, t.size + 3, t.size + 4] := by
    rw [children, hw.node_opening]
    rfl
  rw [hchildren, List.mem_cons, List.mem_cons, List.mem_singleton] at hc
  rcases hc with rfl | rfl | rfl
  · exact hw.leaf_spec h (Nat.lt_add_of_pos_right (by decide)) (by simp) (by simp)
  · exact hw.leaf_spec h (Nat.lt_add_of_pos_right (by decide)) (by simp) (by simp)
  · exact hw.leaf_spec h (Nat.lt_add_of_pos_right (by decide)) (by simp) (by simp)

lemma kind_opening (hw : Wrapped t t' name e p l r gap) : t'.kind (t.size + 1) = .openingTag := by
  rw [kind, hw.node_opening]
  rfl

lemma childIn?_openTag (hw : Wrapped t t' name e p l r gap) :
    t'.childIn? t.size .openTag = some (t.size + 1) := by
  have hrole : t'.role (t.size + 1) = some .openTag := by rw [role, hw.node_opening]
  rw [childIn?, hw.children_outer, List.find?_cons_of_pos (by simp [hrole])]

/-- The nodes of the wrapper are regular. -/
lemma regular_new (hw : Wrapped t t' name e p l r gap) (h : t.Linked) {x : NodeId}
    (hx : t.size ≤ x) : t'.Regular x := by
  rcases Nat.eq_or_lt_of_le hx with rfl | hgt
  -- The wrapper itself is an element; of its opening tag it says all there is to say.
  · have hk := hw.kind_outer
    constructor
    case opening_of_element =>
      intro _ c hc
      rw [hw.childIn?_openTag, Option.some.injEq] at hc
      rw [← hc, hw.kind_opening]
    all_goals
      intro hkind
      rw [hk] at hkind
      simp [NodeKind.isTag] at hkind
  · by_cases hopen : x = t.size + 1
    · subst hopen
      -- The opening tag holds no element and no attribute.
      have hk := hw.kind_opening
      constructor
      case element_of_opening =>
        intro _
        refine ⟨t.size, ?_, hw.kind_outer, hw.childIn?_openTag⟩
        rw [parent, hw.node_opening]
      case no_element_in_tag => exact fun _ c hc => (hw.of_mem_opening h hc).2.2.2
      case quiet_name =>
        intro _ c hc
        obtain ⟨hleaf, htag, hattr, -⟩ := hw.of_mem_opening h (childIn?_spec hc).1
        exact quiet_of_leaf hleaf htag hattr
      case attributes_first =>
        exact fun _ i _ c hc => (hw.of_mem_opening h (List.mem_of_mem_drop hc)).2.2.1
      all_goals
        intro hkind
        rw [hk] at hkind
        simp at hkind
    · by_cases hclose : x = t.size + 5
      · subst hclose
        have hk : t'.kind (t.size + 5) = .closingTag := by
          rw [kind, hw.node_closing]
          rfl
        constructor
        all_goals
          intro hkind
          rw [hk] at hkind
          simp [NodeKind.isTag] at hkind
      -- What is left are the pieces of the two tags.
      · obtain ⟨hleaf, htag, hattr, helement⟩ := hw.leaf_spec h hgt hopen hclose
        refine regular_of_leaf hleaf htag hattr fun hk => ?_
        rw [hk] at helement
        cases helement

end Wrapped

/-- Wrapping an element that is not quiet keeps the tree in shape. -/
theorem Shaped.wrapped {name gap : String} {e p : NodeId} {l r : List Slot}
    (hw : Wrapped t t' name e p l r gap) (h : t.Shaped) (he : e ∈ t.descendants root)
    (hk : (t.kind e).isElement = true) (hq : ¬ t.Quiet e) : t'.Shaped :=
  (hw.amends h he hk hq).shaped h fun _ hx => hw.regular_new h.toLinked hx

end Restyle.SyntaxTree
