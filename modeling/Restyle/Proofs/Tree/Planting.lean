import Restyle.Proofs.Tree.Editing

/-!
Nodes that edits put into a tree, before they have a place in it. Building a statement, an element
or an attribute adds a row of nodes behind those of a tree (`plant`), and each of these rows is
written out here (`newImport_eq`, `newElement_eq`, `newAttribute_eq`). A row that only refers to
itself (`StandsAlone`) keeps the tree well formed.
-/

namespace Restyle.SyntaxTree

/-- A tree with a row of nodes behind its own. -/
def plant (t : SyntaxTree) (row : List Node) : SyntaxTree :=
  ⟨t.nodes ++ row.toArray⟩

/-- The node of a leaf below `p`. -/
def leaf (p : NodeId) (piece : Piece) : Node :=
  { Node.made piece.kind with literal := some piece.text, role := piece.role, parent := some p }

/-- The slots of leaves that are the nodes from `first` on. -/
def leafSlots (first : NodeId) : List Piece → List Slot
  | [] => []
  | piece :: pieces => ⟨piece.gap, first⟩ :: leafSlots (first + 1) pieces

variable {t : SyntaxTree}

/-! ### Building in a planted row -/

@[simp] lemma plant_nil (t : SyntaxTree) : t.plant [] = t := by
  simp [plant]

@[simp] lemma size_plant (t : SyntaxTree) (row : List Node) :
    (t.plant row).size = t.size + row.length := by
  simp [plant, size]

lemma node_plant (t : SyntaxTree) (row : List Node) (x : NodeId) :
    (t.plant row).node x = if x < t.size then t.node x else row.getD (x - t.size) default := by
  simp only [node, plant, size, Array.getD_eq_getD_getElem?, Array.getElem?_append,
    List.getElem?_toArray, List.getD_eq_getElem?_getD]
  split <;> rfl

lemma node_plant_of_lt {row : List Node} {x : NodeId} (hx : x < t.size) :
    (t.plant row).node x = t.node x := by
  rw [node_plant, if_pos hx]

lemma node_plant_add (t : SyntaxTree) (row : List Node) (i : Nat) :
    (t.plant row).node (t.size + i) = row.getD i default := by
  rw [node_plant, if_neg (Nat.not_lt.mpr (Nat.le_add_right _ _)), Nat.add_sub_cancel_left]

lemma add_plant (t : SyntaxTree) (row : List Node) (n : Node) :
    (t.plant row).add n = (t.size + row.length, t.plant (row ++ [n])) := by
  rw [add, size_plant]
  simp [plant]

lemma update_plant (t : SyntaxTree) (row : List Node) (i : Nat) (f : Node → Node) :
    (t.plant row).update (t.size + i) f = t.plant (row.modify i f) := by
  simp only [plant, update, size]
  congr 1
  refine Array.ext_getElem? fun x => ?_
  simp only [Array.getElem?_modify, Array.getElem?_append, List.getElem?_toArray,
    List.getElem?_modify]
  by_cases hx : x < t.nodes.size
  · rw [if_pos hx, if_neg (by omega), if_pos hx]
  · rw [if_neg hx, if_neg hx]
    by_cases hi : t.nodes.size + i = x
    · subst hi
      rw [if_pos rfl, Nat.add_sub_cancel_left]
      simp
    · rw [if_neg hi]
      have hne : i ≠ x - t.nodes.size := by omega
      simp [hne]

lemma appendLeaves_cons (t : SyntaxTree) (p : NodeId) (piece : Piece) (pieces : List Piece) :
    t.appendLeaves p (piece :: pieces)
      = ((t.add { Node.made piece.kind with literal := some piece.text, role := piece.role }).2
          |>.appendChild p t.size piece.gap).appendLeaves p pieces := rfl

lemma appendChild_plant (t : SyntaxTree) (row : List Node) (i j : Nat) (gap : String) :
    (t.plant row).appendChild (t.size + i) (t.size + j) gap
      = t.plant ((row.modify j fun n => { n with parent := some (t.size + i) }).modify i fun n =>
          { n with slots := n.slots ++ [⟨gap, t.size + j⟩] }) := by
  rw [appendChild, update_plant, update_plant]

/-- Leaves that are put below a node of the row go behind it. -/
lemma appendLeaves_plant (t : SyntaxTree) (row : List Node) {i : Nat} (hi : i < row.length)
    (pieces : List Piece) :
    (t.plant row).appendLeaves (t.size + i) pieces
      = t.plant (row.modify i
            (fun n => { n with slots := n.slots ++ leafSlots (t.size + row.length) pieces })
          ++ pieces.map (leaf (t.size + i))) := by
  induction pieces generalizing row with
  | nil =>
      have hid : (fun n : Node => { n with slots := n.slots ++ leafSlots (t.size + row.length) [] })
          = id := by
        funext n
        simp [leafSlots]
      rw [hid, List.modify_id, List.map_nil, List.append_nil]
      rfl
  | cons piece pieces ih =>
      -- A leaf is added without a parent and gets it when it is appended.
      have hchild : (row ++ [{ Node.made piece.kind with
            literal := some piece.text, role := piece.role }]).modify row.length
            (fun n => { n with parent := some (t.size + i) })
          = row ++ [leaf (t.size + i) piece] := by
        rw [List.modify_eq_take_cons_drop (by simp)]
        simp [leaf, Node.made]
      rw [appendLeaves_cons, add_plant, appendChild, size_plant, update_plant, hchild, update_plant,
        modify_append_left _ _ _ hi, ih _ (by simpa using Nat.lt_succ_of_lt hi)]
      have hlen : (row.modify i (fun n =>
          { n with slots := n.slots ++ [⟨piece.gap, t.size + row.length⟩] })).length = row.length :=
        List.length_modify ..
      rw [modify_append_left _ _ _ (by rw [hlen]; exact hi), List.modify_modify_eq,
        List.append_assoc, List.map_cons, List.length_append, hlen]
      congr 3
      funext n
      simp [leafSlots, Nat.add_assoc]

/-! ### The rows that edits add -/

/-- The leaves of an import. -/
def importPieces (binding library : String) : List Piece :=
  [⟨.token, "import", none, ""⟩, ⟨.other, "\x7b " ++ binding ++ " \x7d", none, " "⟩,
    ⟨.token, "from", none, " "⟩, ⟨.stringLiteral, "\"" ++ library ++ "\"", some .source, " "⟩,
    ⟨.token, ";", none, ""⟩]

/-- The leaves of an opening or closing tag that begins with a given token. -/
def tagPieces (bracket name : String) : List Piece :=
  [⟨.token, bracket, none, ""⟩, ⟨.identifier, name, some .name, ""⟩, ⟨.token, ">", none, ""⟩]

/-- The leaves of an attribute. -/
def attributePieces (name value : String) : List Piece :=
  [⟨.identifier, name, some .name, ""⟩, ⟨.token, "=", none, ""⟩,
    ⟨.stringLiteral, "\"" ++ value ++ "\"", some .value, ""⟩]

/-- The nodes of an import; the first of them is `b`. -/
def importRow (b : NodeId) (binding library : String) : List Node :=
  { Node.made .importStatement with slots := leafSlots (b + 1) (importPieces binding library) }
    :: (importPieces binding library).map (leaf b)

/-- The nodes of an element without children; the first of them is `b`. -/
def elementRow (b : NodeId) (name : String) : List Node :=
  { Node.made .element with slots := [⟨"", b + 1⟩, ⟨"", b + 5⟩] }
    :: { Node.made .openingTag with
        role := some .openTag, slots := leafSlots (b + 2) (tagPieces "<" name), parent := some b }
    :: (tagPieces "<" name).map (leaf (b + 1))
    ++ { Node.made .closingTag with
        role := some .closeTag, slots := leafSlots (b + 6) (tagPieces "</" name), parent := some b }
    :: (tagPieces "</" name).map (leaf (b + 5))

/-- The nodes of an attribute; the first of them is `b`. -/
def attributeRow (b : NodeId) (name value : String) : List Node :=
  { Node.made .attribute with
      role := some .attribute, slots := leafSlots (b + 1) (attributePieces name value) }
    :: (attributePieces name value).map (leaf b)

lemma newImport_eq (t : SyntaxTree) (binding library : String) :
    t.newImport binding library = (t.size, t.plant (importRow t.size binding library)) := by
  have hadd := t.plant_nil ▸ t.add_plant [] (.made .importStatement)
  have hleaves := t.appendLeaves_plant [.made .importStatement] (i := 0) Nat.one_pos
    (importPieces binding library)
  rw [newImport, make, hadd]
  exact congrArg _ hleaves

lemma newAttribute_eq (t : SyntaxTree) (name value : String) :
    t.newAttribute name value = (t.size, t.plant (attributeRow t.size name value)) := by
  have hadd := t.plant_nil ▸ t.add_plant [] { Node.made .attribute with role := some .attribute }
  have hleaves := t.appendLeaves_plant [{ Node.made .attribute with role := some .attribute }]
    (i := 0) Nat.one_pos (attributePieces name value)
  rw [newAttribute, hadd]
  exact congrArg _ hleaves

/-- The nodes of an element whose closing tag is not put together yet. -/
def elementFront (b : NodeId) (name : String) : List Node :=
  .made .element :: { Node.made .openingTag with
      role := some .openTag, slots := leafSlots (b + 2) (tagPieces "<" name) }
    :: (tagPieces "<" name).map (leaf (b + 1))

lemma appendLeaves_opening (t : SyntaxTree) (name : String) :
    (t.plant [.made .element, { Node.made .openingTag with role := some .openTag }]).appendLeaves
        (t.size + 1) (tagPieces "<" name)
      = t.plant (elementFront t.size name) := by
  rw [appendLeaves_plant t _ (by decide)]
  rfl

lemma appendLeaves_closing (t : SyntaxTree) (name : String) :
    ((((t.plant (elementFront t.size name ++
        [{ Node.made .closingTag with role := some .closeTag }])
        ).appendLeaves (t.size + 5) (tagPieces "</" name)).appendChild
          (t.size + 0) (t.size + 1) "").appendChild (t.size + 0) (t.size + 5) "")
      = t.plant (elementRow t.size name) := by
  rw [appendLeaves_plant t _ (by decide : 5 < 6), appendChild_plant, appendChild_plant]
  rfl

lemma newElement_eq (t : SyntaxTree) (name : String) :
    t.newElement name = (t.size, t.plant (elementRow t.size name)) := by
  rw [newElement, make, ← t.plant_nil, add_plant]
  dsimp only [List.nil_append]
  rw [add_plant]
  have hopen := t.appendLeaves_opening name
  have hclose := t.appendLeaves_closing name
  rw [tagPieces] at hopen hclose
  dsimp only [List.length_cons, List.length_nil, Nat.zero_add, List.cons_append, List.nil_append]
  rw [hopen, add_plant]
  refine congrArg₂ Prod.mk (t.plant_nil ▸ rfl) ?_
  have hlen : (elementFront t.size name).length = 5 := rfl
  dsimp only
  rw [hlen]
  exact hclose

/-! ### Planting keeps a tree well formed -/

/-- A row of made nodes that only refers to itself, when its first node is `b`. -/
structure StandsAlone (b : NodeId) (row : List Node) : Prop where
  fresh : ∀ n ∈ row, n.asRead = none ∧ n.changed = false
  slots_of_literal : ∀ n ∈ row, ∀ s, n.literal = some s → n.slots = []
  nodup : ∀ n ∈ row, n.children.Nodup
  /-- Parents stand before their children. -/
  parent_before : ∀ e ∈ row.zipIdx b, ∀ p, e.1.parent = some p → b ≤ p ∧ p < e.2
  parent_of_child : ∀ e ∈ row.zipIdx b, ∀ c ∈ e.1.children,
    ∃ e' ∈ row.zipIdx b, e'.2 = c ∧ e'.1.parent = some e.2

namespace StandsAlone

variable {b : NodeId} {row : List Node}

lemma parent_lt (hr : StandsAlone b row) {i : Nat} {n : Node} {p : NodeId}
    (hi : row[i]? = some n) (hp : n.parent = some p) : ∃ j < i, p = b + j := by
  have hmem : (n, b + i) ∈ row.zipIdx b :=
    List.mk_add_mem_zipIdx_iff_getElem?.mpr hi
  obtain ⟨hle, hlt⟩ := hr.parent_before _ hmem p hp
  obtain ⟨j, rfl⟩ := Nat.exists_eq_add_of_le hle
  exact ⟨j, Nat.lt_of_add_lt_add_left hlt, rfl⟩

lemma parent_of_mem (hr : StandsAlone b row) {i : Nat} {n : Node} {c : NodeId}
    (hi : row[i]? = some n) (hc : c ∈ n.children) :
    ∃ j m, c = b + j ∧ row[j]? = some m ∧ m.parent = some (b + i) := by
  have hmem : (n, b + i) ∈ row.zipIdx b :=
    List.mk_add_mem_zipIdx_iff_getElem?.mpr hi
  obtain ⟨⟨m, k⟩, hm, rfl, hp⟩ := hr.parent_of_child _ hmem c hc
  obtain ⟨hle, hj⟩ := List.mk_mem_zipIdx_iff_le_and_getElem?_sub.mp hm
  exact ⟨k - b, m, (Nat.add_sub_cancel' hle).symm, hj, hp⟩

end StandsAlone

/-- A node of a planted tree is an old one, one of the row, or none at all. -/
lemma node_plant_cases (t : SyntaxTree) (row : List Node) (x : NodeId) :
    (x < t.size ∧ (t.plant row).node x = t.node x)
      ∨ (∃ i n, x = t.size + i ∧ row[i]? = some n ∧ (t.plant row).node x = n)
      ∨ (t.plant row).size ≤ x := by
  rcases Nat.lt_or_ge x t.size with hx | hx
  · exact .inl ⟨hx, node_plant_of_lt hx⟩
  · obtain ⟨i, rfl⟩ := Nat.exists_eq_add_of_le hx
    rcases Nat.lt_or_ge i row.length with hi | hi
    · refine .inr (.inl ⟨i, row[i], rfl, List.getElem?_eq_getElem hi, ?_⟩)
      rw [node_plant_add, List.getD_eq_getElem?_getD, List.getElem?_eq_getElem hi, Option.getD_some]
    · exact .inr (.inr (by rw [size_plant]; omega))

lemma node_plant_getElem? {row : List Node} {i : Nat} {n : Node} (h : row[i]? = some n) :
    (t.plant row).node (t.size + i) = n := by
  rw [node_plant_add, List.getD_eq_getElem?_getD, h, Option.getD_some]

theorem Linked.plant (hl : t.Linked) {row : List Node} (hr : StandsAlone t.size row) :
    (t.plant row).Linked where
  size_pos := by
    rw [size_plant]
    exact Nat.lt_add_right _ hl.size_pos
  parent_root := by
    rw [parent, node_plant_of_lt hl.root_lt]
    exact hl.parent_root
  parent_of_mem := fun {p c} hc => by
    rcases t.node_plant_cases row p with ⟨-, hn⟩ | ⟨i, n, rfl, hi, hn⟩ | hp
    · rw [children, hn] at hc
      rw [parent, node_plant_of_lt (hl.lt_of_mem hc)]
      exact hl.parent_of_mem hc
    · rw [children, hn] at hc
      obtain ⟨j, m, rfl, hj, hm⟩ := hr.parent_of_mem hi hc
      rw [parent, node_plant_getElem? hj, hm]
    · exact absurd (lt_size_of_mem hc) (Nat.not_lt.mpr hp)
  nodup := fun p => by
    rcases t.node_plant_cases row p with ⟨-, hn⟩ | ⟨i, n, rfl, hi, hn⟩ | hp
    · rw [children, hn]
      exact hl.nodup p
    · rw [children, hn]
      exact hr.nodup n (List.mem_of_getElem? hi)
    · rw [children, node_of_size_le _ hp]
      exact List.nodup_nil
  parent_lt := fun {c p} hp => by
    rw [size_plant]
    rcases t.node_plant_cases row c with ⟨-, hn⟩ | ⟨i, n, rfl, hi, hn⟩ | hc
    · rw [parent, hn] at hp
      exact Nat.lt_add_right _ (hl.parent_lt hp)
    · rw [parent, hn] at hp
      obtain ⟨j, hj, rfl⟩ := hr.parent_lt hi hp
      exact Nat.add_lt_add_left (hj.trans (List.getElem?_eq_some_iff.mp hi).1) _
    · exact absurd (lt_size_of_parent hp) (Nat.not_lt.mpr hc)
  exists_level := fun id => by
    induction id using Nat.strong_induction_on with
    | _ id ih =>
        -- a new node lies under one of the row that stands before it
        rcases t.node_plant_cases row id with ⟨hid, -⟩ | ⟨i, n, rfl, hi, hn⟩ | hid
        · refine exists_level_congr hl fun x hx => ?_
          rw [parent, node_plant_of_lt (hx.lt_size hl hid), parent]
        · cases hp : n.parent with
          | none => exact ⟨0, .top (by rw [parent, hn, hp])⟩
          | some p =>
              obtain ⟨j, hj, rfl⟩ := hr.parent_lt hi hp
              obtain ⟨k, hk⟩ := ih (t.size + j) (Nat.add_lt_add_left hj _)
              exact ⟨k + 1, .under (by rw [parent, hn, hp]) hk⟩
        · exact ⟨0, .top (by rw [parent, node_of_size_le _ hid]; rfl)⟩
  slots_of_literal := fun {id s} hs => by
    rcases t.node_plant_cases row id with ⟨-, hn⟩ | ⟨i, n, rfl, hi, hn⟩ | hid
    · rw [hn] at hs ⊢
      exact hl.slots_of_literal hs
    · rw [hn] at hs ⊢
      exact hr.slots_of_literal n (List.mem_of_getElem? hi) s hs
    · rw [node_of_size_le _ hid]
      rfl

/-- A row of new nodes behind the others keeps the tree well formed. -/
theorem WellFormed.plant (h : t.WellFormed) {row : List Node} (hr : StandsAlone t.size row) :
    (t.plant row).WellFormed := by
  refine h.of_edit (h.toLinked.plant hr) (fun {p c} hc hch => ?_)
    (fun x hx => by rw [node_plant_of_lt hx]) fun {x s} hch hs => ?_
  · rcases t.node_plant_cases row p with ⟨hp, hn⟩ | ⟨i, n, rfl, hi, hn⟩ | hp
    · rw [children, hn] at hc
      rw [node_plant_of_lt (h.lt_of_mem hc)] at hch
      rw [hn]
      exact h.changed_of_mem hc hch
    · rw [children, hn] at hc
      obtain ⟨j, m, rfl, hj, -⟩ := hr.parent_of_mem hi hc
      rw [node_plant_getElem? hj, (hr.fresh m (List.mem_of_getElem? hj)).2] at hch
      cases hch
    · exact absurd (lt_size_of_mem hc) (Nat.not_lt.mpr hp)
  · rcases t.node_plant_cases row x with ⟨hx, hn⟩ | ⟨i, n, rfl, hi, hn⟩ | hx
    · rw [hn] at hch hs ⊢
      exact ⟨hx, hch, rfl, rfl, rfl⟩
    · rw [hn, (hr.fresh n (List.mem_of_getElem? hi)).1] at hs
      cases hs
    · rw [node_of_size_le _ hx] at hs
      cases hs

lemma standsAlone_elementRow (b : NodeId) (name : String) : StandsAlone b (elementRow b name) where
  fresh := by simp [elementRow, tagPieces, leaf, Node.made]
  slots_of_literal := by simp [elementRow, tagPieces, leaf, Node.made]
  nodup := by simp [elementRow, tagPieces, leafSlots, leaf, Node.made, Node.children]
  parent_before := by
    simp [elementRow, tagPieces, leafSlots, leaf, Node.made, Nat.add_assoc]
  parent_of_child := by simp [elementRow, tagPieces, leafSlots, leaf, Node.made, Node.children]

lemma standsAlone_importRow (b : NodeId) (binding library : String) :
    StandsAlone b (importRow b binding library) where
  fresh := by simp [importRow, importPieces, leaf, Node.made]
  slots_of_literal := by simp [importRow, importPieces, leaf, Node.made]
  nodup := by simp [importRow, importPieces, leafSlots, leaf, Node.made, Node.children]
  parent_before := by
    simp [importRow, importPieces, leafSlots, leaf, Node.made, Nat.add_assoc]
  parent_of_child := by simp [importRow, importPieces, leafSlots, leaf, Node.made, Node.children]

lemma standsAlone_attributeRow (b : NodeId) (name value : String) :
    StandsAlone b (attributeRow b name value) where
  fresh := by simp [attributeRow, attributePieces, leaf, Node.made]
  slots_of_literal := by simp [attributeRow, attributePieces, leaf, Node.made]
  nodup := by simp [attributeRow, attributePieces, leafSlots, leaf, Node.made, Node.children]
  parent_before := by
    simp [attributeRow, attributePieces, leafSlots, leaf, Node.made, Nat.add_assoc]
  parent_of_child := by
    simp [attributeRow, attributePieces, leafSlots, leaf, Node.made, Node.children]

end Restyle.SyntaxTree
