import Restyle.Proofs.Change.Located
import Restyle.Proofs.Tree.Conversion
import Restyle.Proofs.Tree.Spot

/-!
Every change of a module is one splice of its text.

* `Reachable`: the trees that changes, in any order and at any points, lead to from a tree that was
  read;
* `Replaces`, `InsertsBefore`, `Inserts`: the text of a module before and after a change at one
  place;
* `Reachable.splices`: an import, a class list, a property and a wrapper each change the text at the
  one place that they are about, and leave what stands before and behind it.
-/

namespace Restyle.SyntaxTree

variable {t t' : SyntaxTree}

/-! ### The texts of new nodes -/

/-- Leaves as they are written. -/
def piecesText (pieces : List Piece) : String :=
  String.join (pieces.map fun piece => piece.gap ++ piece.text)

lemma rowText_leafSlots (h : t.WellFormed) (first : Nat) (pieces : List Piece)
    (hleaf : ∀ (i : Nat) (piece : Piece), pieces[i]? = some piece →
      (t.node (first + i)).literal = some piece.text) :
    t.rowText (leafSlots first pieces) = piecesText pieces := by
  induction pieces generalizing first with
  | nil => rfl
  | cons piece pieces ih =>
      have hrest := ih (first + 1) fun i piece hi => by
        rw [Nat.add_assoc, Nat.add_comm 1 i]
        exact hleaf (i + 1) piece hi
      have htext : t.text first = piece.text := h.text_of_literal (hleaf 0 piece rfl)
      rw [leafSlots, rowText_cons, htext, hrest, piecesText, piecesText, List.map_cons,
        String.join_cons]

/-- A node over a row of leaves shows their texts one behind the other. -/
lemma text_of_leafSlots (h : t.WellFormed) {id : NodeId} {first : Nat} {pieces : List Piece}
    (hlit : (t.node id).literal = none) (hslots : (t.node id).slots = leafSlots first pieces)
    (hend : (t.node id).ending = "")
    (hleaf : ∀ (i : Nat) (piece : Piece), pieces[i]? = some piece →
      (t.node (first + i)).literal = some piece.text) :
    t.text id = piecesText pieces := by
  have hrow : t.textBelow id = t.rowText (t.node id).slots ++ (t.node id).ending := rfl
  rw [h.text_of_no_literal hlit, hrow, hslots, hend, String.append_empty,
    rowText_leafSlots h first pieces hleaf]

/-- A grafted node with leaves is written as these. -/
lemma Grafted.text_top {n : Node} {pieces : List Piece} {p : NodeId} {l r r' : List Slot}
    {gap : String}
    (hg : Grafted t t' (n :: pieces.map (leaf t.size)) p l r r' gap) (hlit : n.literal = none)
    (hslots : n.slots = leafSlots (t.size + 1) pieces) (hend : n.ending = "") :
    t'.text t.size = piecesText pieces := by
  have htop := hg.node_top
  refine text_of_leafSlots hg.wellFormed ((congrArg Node.literal htop).trans hlit)
    ((congrArg Node.slots htop).trans hslots) ((congrArg Node.ending htop).trans hend)
    fun i piece hi => ?_
  have hrow := hg.node_row (i + 1) (Nat.succ_ne_zero i)
  rw [List.getD_cons_succ, List.getD_eq_getElem?_getD, List.getElem?_map, hi] at hrow
  rw [Nat.add_assoc, Nat.add_comm 1 i]
  exact congrArg Node.literal hrow

lemma piecesText_attribute (name value : String) :
    piecesText (attributePieces name value) = name ++ "=" ++ quoted '"' value := by
  simp only [piecesText, attributePieces, List.map_cons, List.map_nil, String.join_cons,
    String.join_nil, quoted, String.empty_append, String.append_empty, String.append_assoc]
  rfl

lemma piecesText_tag (bracket name : String) :
    piecesText (tagPieces bracket name) = bracket ++ name ++ ">" := by
  simp only [piecesText, tagPieces, List.map_cons, List.map_nil, String.join_cons,
    String.join_nil, String.empty_append, String.append_empty, String.append_assoc]

lemma piecesText_import (settings : TransformSettings) :
    piecesText (importPieces settings.actualMotionBinding settings.actualAnimationLibrary)
      = settings.importLine := by
  refine String.toList_inj.mp ?_
  simp [piecesText, importPieces, TransformSettings.importLine]

lemma getD_elementRow_opening {b : NodeId} {name : String} {i : Nat} {piece : Piece}
    (hi : (tagPieces "<" name)[i]? = some piece) :
    (elementRow b name).getD (i + 2) default = leaf (b + 1) piece := by
  match i, hi with
  | 0, hi => cases hi; rfl
  | 1, hi => cases hi; rfl
  | 2, hi => cases hi; rfl

lemma getD_elementRow_closing {b : NodeId} {name : String} {i : Nat} {piece : Piece}
    (hi : (tagPieces "</" name)[i]? = some piece) :
    (elementRow b name).getD (i + 6) default = leaf (b + 5) piece := by
  match i, hi with
  | 0, hi => cases hi; rfl
  | 1, hi => cases hi; rfl
  | 2, hi => cases hi; rfl

/-- A new element is written as its tags around what it was put around. -/
lemma Wrapped.text_outer {name : String} {e p : NodeId} {l r : List Slot} {gap : String}
    (hw : Wrapped t t' name e p l r gap) :
    t'.text t.size = "<" ++ name ++ ">" ++ t'.text e ++ ("</" ++ name ++ ">") := by
  have h' := hw.wellFormed
  -- The two tags spell their pieces; between them stands the element.
  have hopen : t'.text (t.size + 1) = "<" ++ name ++ ">" := by
    have hnode := hw.node_row 1 (by decide)
    rw [← piecesText_tag]
    refine text_of_leafSlots h' (congrArg Node.literal hnode)
      (congrArg Node.slots hnode) (congrArg Node.ending hnode) fun i piece hi => ?_
    have hrow := hw.node_row (i + 2) (Nat.succ_ne_zero _)
    rw [getD_elementRow_opening hi] at hrow
    rw [Nat.add_assoc, Nat.add_comm 2 i]
    exact congrArg Node.literal hrow
  have hclose : t'.text (t.size + 5) = "</" ++ name ++ ">" := by
    have hnode := hw.node_row 5 (by decide)
    rw [← piecesText_tag]
    refine text_of_leafSlots h' (congrArg Node.literal hnode)
      (congrArg Node.slots hnode) (congrArg Node.ending hnode) fun i piece hi => ?_
    have hrow := hw.node_row (i + 6) (Nat.succ_ne_zero _)
    rw [getD_elementRow_closing hi] at hrow
    rw [Nat.add_assoc, Nat.add_comm 6 i]
    exact congrArg Node.literal hrow
  have houter := hw.node_outer
  rw [h'.text_of_slots (l := [⟨"", t.size + 1⟩]) (r := [⟨"", t.size + 5⟩])
    (congrArg Node.slots houter), rowText_cons, rowText_cons, hopen, hclose]
  simp [congrArg Node.ending houter, Node.made]

/-! ### Changes at one node -/

lemma onlyAt_overwrite (t : SyntaxTree) (id : NodeId) (s : String) :
    OnlyAt t (t.overwrite id s) id := fun y _ hy => by
  have hnode := node_overwrite_of_ne (t := t) hy s
  exact ⟨by rw [hnode], by rw [hnode], by rw [hnode]⟩

lemma Grafted.onlyAt {row : List Node} {p : NodeId} {l r r' : List Slot} {gap : String}
    (hg : Grafted t t' row p l r r' gap) : OnlyAt t t' p := fun y hy hne => by
  have hnode := hg.node_old y hy
  rw [if_neg hne] at hnode
  exact ⟨by rw [hnode], by rw [hnode], by rw [hnode]⟩

lemma Wrapped.onlyAt {name : String} {e p : NodeId} {l r : List Slot} {gap : String}
    (hw : Wrapped t t' name e p l r gap) : OnlyAt t t' p := fun y hy hne => by
  have hnode := hw.node_old y hy
  rw [if_neg hne] at hnode
  split at hnode <;> exact ⟨by rw [hnode], by rw [hnode], by rw [hnode]⟩

/-- The text of a module is that before, with `new` in the place of the text of a node. -/
def Replaces (t t' : SyntaxTree) (id : NodeId) (new : String) : Prop :=
  ∃ pre post, t.Spot id pre post ∧ t.render = pre ++ t.text id ++ post
    ∧ t'.render = pre ++ new ++ post

/-- The text of a module is that before, with `new` in front of the node of a slot and the layout
that the slot has. -/
def InsertsBefore (t t' : SyntaxTree) (slot : Slot) (new : String) : Prop :=
  ∃ pre post, t.Spot slot.child (pre ++ slot.gap) post
    ∧ t.render = pre ++ (slot.gap ++ t.text slot.child ++ post)
    ∧ t'.render = pre ++ new ++ (slot.gap ++ t.text slot.child ++ post)

/-- The text of a module is that before, with `new` put somewhere into it. -/
def Inserts (t t' : SyntaxTree) (new : String) : Prop :=
  ∃ pre post, t.render = pre ++ post ∧ t'.render = pre ++ new ++ post

/-- Overwriting a node replaces its text. -/
theorem replaces_overwrite (h : t.WellFormed) {id : NodeId} (hid : id ∈ t.descendants root)
    (s : String) : t.Replaces (t.overwrite id s) id s := by
  obtain ⟨pre, post, hspot⟩ := h.exists_spot hid
  have hlt := lt_size_of_mem_descendants h.toLinked h.root_lt hid
  have h' := h.overwrite hlt s
  have htext : (t.overwrite id s).text id = s := by
    refine h'.text_of_literal ?_
    rw [node_overwrite hlt, if_pos rfl]
  refine ⟨pre, post, hspot, hspot.render_eq h, ?_⟩
  rw [((onlyAt_overwrite t id s).spot h h' hspot).render_eq h', htext]

/-- A wrapper replaces an element by itself between two tags. -/
theorem Wrapped.replaces (h : t.WellFormed) {name : String} {e p : NodeId} {l r : List Slot}
    {gap : String} (hw : Wrapped t t' name e p l r gap) (hp : p ∈ t.descendants root) :
    t.Replaces t' e ("<" ++ name ++ ">" ++ t.text e ++ "</" ++ name ++ ">") := by
  obtain ⟨pre, post, hspot⟩ := h.exists_spot hp
  have h' := hw.wellFormed
  -- Whatever hangs at the place shows the text it had, the element included.
  have hchild : ∀ {c : NodeId}, (∃ gap, ⟨gap, c⟩ ∈ (t.node p).slots) → t'.text c = t.text c :=
    fun hc => hw.onlyAt.text_child h h' (mem_children_iff.mpr hc)
  have hrow : ∀ slots, (∀ slot ∈ slots, slot ∈ (t.node p).slots) →
      t'.rowText slots = t.rowText slots := fun slots hs =>
    rowText_congr fun slot hslot => hchild ⟨slot.gap, hs slot hslot⟩
  have hl := hrow l fun slot hs => by rw [hw.slots_eq]; exact List.mem_append_left _ hs
  have hr := hrow r fun slot hs => by
    rw [hw.slots_eq]
    exact List.mem_append_right _ (List.mem_cons_of_mem _ hs)
  have he : t'.text e = t.text e := hchild ⟨gap, by rw [hw.slots_eq]; simp⟩
  have hplt := lt_size_of_mem_descendants h.toLinked h.root_lt hp
  have hpe : p ≠ e := (Under.parent_ne h.toLinked hw.parent_eq).symm
  have hnode := hw.node_old p hplt
  rw [if_neg hpe, if_pos rfl] at hnode
  have hspot' := (hw.onlyAt.spot h h' hspot).child (congrArg Node.slots hnode)
  have hend : (t'.node p).ending = (t.node p).ending := by rw [hnode]
  refine ⟨_, _, hspot.child hw.slots_eq, (hspot.child hw.slots_eq).render_eq h, ?_⟩
  rw [hspot'.render_eq h', hw.text_outer, he, hl, hr, hend]
  simp only [String.append_assoc]

/-- What is written of a node after a row was grafted below it. -/
lemma Grafted.render_eq (h : t.WellFormed) {row : List Node} {p : NodeId} {l r r' : List Slot}
    {gap pre post : String} (hg : Grafted t t' row p l r r' gap) (hp : t.Spot p pre post)
    (hlt : p < t.size) (hr' : ∀ slot ∈ r', slot.child ∈ t.children p) :
    t'.render = pre ++ (t.rowText l ++ gap ++ t'.text t.size
      ++ (t.rowText r' ++ (t.node p).ending)) ++ post := by
  have h' := hg.wellFormed
  have hl : ∀ slot ∈ l, slot.child ∈ t.children p := fun slot hs => by
    rw [children, Node.children, hg.slots_eq]
    exact List.mem_map_of_mem (List.mem_append_left _ hs)
  have hnode := hg.node_old p hlt
  rw [if_pos rfl] at hnode
  have hslots : (t'.node p).slots = l ++ ⟨gap, t.size⟩ :: r' := by rw [hnode]
  have hend : (t'.node p).ending = (t.node p).ending := by rw [hnode]
  rw [(hg.onlyAt.spot h h' hp).render_eq h', h'.text_of_slots hslots, hg.onlyAt.rowText_eq h h' hl,
    hg.onlyAt.rowText_eq h h' hr', hend]

/-- A new attribute is put in front of the token that ends the attributes. -/
theorem insertsBefore_insertAttribute (h : t.WellFormed) {tag : NodeId}
    (htag : tag ∈ t.descendants root) (a : Assignment)
    (happ : (t.insertAttribute tag a).1 = .applied) :
    ∃ i stop, t.attributesEnd? tag = some i ∧ (t.node tag).slots[i]? = some stop
      ∧ t.kind stop.child = .token ∧ t.text stop.child ∈ [">", "/", "/>"]
      ∧ t.InsertsBefore (t.insertAttribute tag a).2 stop
        (t.attributeGap tag ++ a.name ++ "=" ++ quoted '"' a.value) := by
  rcases insertAttribute_cases h tag a with ⟨-, heq⟩ | ⟨i, hend, -, hg⟩
  · rw [heq] at happ
    cases happ
  · obtain ⟨front, name, between, stop, back, hslots, hlen, -, -, -, hstop⟩ :=
      exists_of_attributesEnd? hend
    rw [hslots, ← hlen, List.take_left, List.drop_left] at hg
    set l := front ++ name :: between
    have hmem : ∀ slot ∈ stop :: back, slot.child ∈ t.children tag := fun slot hs => by
      rw [children, Node.children, hslots]
      exact List.mem_map_of_mem (List.mem_append_right _ hs)
    -- The tag's spot carries over to the slot of the closing token: the same text stands around
    -- it, and the new attribute between the two.
    obtain ⟨pre, post, hspot⟩ := h.exists_spot htag
    have hrender := hg.render_eq h hspot (lt_size_of_mem (hmem stop List.mem_cons_self)) hmem
    rw [hg.text_top rfl rfl rfl, piecesText_attribute, rowText_cons] at hrender
    have hspot' := hspot.child hslots
    have hget : (t.node tag).slots[i]? = some stop := by
      rw [hslots, ← hlen, List.getElem?_append_right le_rfl, Nat.sub_self]
      rfl
    simp only [endsAttributes, Bool.and_eq_true, decide_eq_true_eq, List.contains_iff_mem] at hstop
    refine ⟨i, stop, hend, hget, hstop.1, hstop.2, pre ++ t.rowText l,
      t.rowText back ++ (t.node tag).ending ++ post, ?_, ?_, ?_⟩
    · rw [String.append_assoc]
      exact hspot'
    · rw [hspot'.render_eq h]
      simp only [String.append_assoc]
    · rw [hrender]
      simp only [String.append_assoc]

/-- A document renders the slots of its root, then the ending. -/
lemma Document.render_eq (h : t.Document) {l r : List Slot}
    (hslots : (t.node root).slots = l ++ r) :
    t.render = t.rowText l ++ (t.rowText r ++ (t.node root).ending) := by
  have hrow : t.textBelow root = t.rowText (t.node root).slots ++ (t.node root).ending := rfl
  rw [render, h.text_of_no_literal h.literal_root, hrow, hslots, rowText_append,
    String.append_assoc]

/-- A statement in front of another one takes over the layout of that, which moves to the next
line. -/
lemma Grafted.inserts_front (h : t.Document) {row : List Node} {l rest : List Slot} {slot : Slot}
    (hg : Grafted t t' row root l (slot :: rest) (⟨"
", slot.child⟩ :: rest) slot.gap) :
    t.Inserts t' (t'.text t.size ++ "
") := by
  have hmem : ∀ s ∈ (⟨"
", slot.child⟩ : Slot) :: rest, s.child ∈ t.children root := by
    have hold : ∀ s ∈ slot :: rest, s.child ∈ t.children root := fun s hs => by
      rw [children, Node.children, hg.slots_eq]
      exact List.mem_map_of_mem (List.mem_append_right _ hs)
    intro s hs
    rcases List.mem_cons.mp hs with rfl | hs
    · exact hold slot List.mem_cons_self
    · exact hold s (List.mem_cons_of_mem _ hs)
  refine ⟨t.rowText l ++ slot.gap, t.text slot.child ++ t.rowText rest ++ (t.node root).ending,
    ?_, ?_⟩
  · rw [h.render_eq hg.slots_eq, rowText_cons]
    simp only [String.append_assoc]
  · rw [hg.render_eq h.toWellFormed .root h.root_lt hmem, rowText_cons]
    simp only [String.append_assoc, String.empty_append, String.append_empty]

/-- A statement behind all others stands behind its layout. -/
lemma Grafted.inserts_back (h : t.Document) {row : List Node} {l : List Slot} {gap : String}
    (hg : Grafted t t' row root l [] [] gap) : t.Inserts t' (gap ++ t'.text t.size) := by
  refine ⟨t.rowText l, (t.node root).ending, ?_, ?_⟩
  · rw [h.render_eq hg.slots_eq, rowText_nil, String.empty_append]
  · rw [hg.render_eq h.toWellFormed .root h.root_lt fun s hs => absurd hs List.not_mem_nil,
      rowText_nil]
    simp only [String.append_assoc, String.empty_append, String.append_empty]

/-- A new import is put into the module with one line break beside it, or none if the module is
empty. -/
theorem inserts_requireImport (h : t.Document) {settings : TransformSettings}
    (hins : (t.requireImport settings).1 = .inserted) :
    ∃ new, t.Inserts (t.requireImport settings).2 new
      ∧ if t.children root = [] then new = settings.importLine
        else new = settings.importLine ++ "
" ∨ new = "
" ++ settings.importLine := by
  rcases requireImport_cases h settings with ⟨heq, -⟩ | ⟨-, l, r, r', gap, hseam, hg⟩
  · rw [heq] at hins
    cases hins
  have hline : (t.requireImport settings).2.text t.size = settings.importLine := by
    rw [hg.text_top rfl rfl rfl, piecesText_import]
  have hchildren : t.children root = l.map Slot.child ++ r.map Slot.child := by
    rw [children, Node.children, hg.slots_eq, List.map_append]
  -- In front of a statement, or behind all of them.
  rcases hseam with ⟨slot, rest, rfl, rfl, rfl⟩ | ⟨rfl, rfl, rfl⟩
  · refine ⟨_, hline ▸ hg.inserts_front h, ?_⟩
    rw [if_neg (by
      rw [hchildren]
      exact List.append_ne_nil_of_right_ne_nil _ (List.cons_ne_nil _ _))]
    exact .inl rfl
  · refine ⟨_, hline ▸ hg.inserts_back h, ?_⟩
    cases l with
    | nil =>
        rw [if_pos (by rw [hchildren]; rfl)]
        exact String.empty_append
    | cons slot l =>
        rw [if_neg (by rw [hchildren]; exact List.cons_ne_nil _ _)]
        exact .inr rfl

/-! ### Changes of trees that were read -/

/-- The trees that imports and modifications, in any order and at any points, lead to. -/
inductive Reachable (source : List Char) (tree : Syntax.Cst) : SyntaxTree → Prop where
  | read : Reachable source tree (ofConcrete source tree)
  | requireImport {t : SyntaxTree} (settings : TransformSettings) : Reachable source tree t →
      Reachable source tree (t.requireImport settings).2
  | applyAt {t : SyntaxTree} (settings : TransformSettings) (m : Modification) (point : Point) :
      Reachable source tree t → Reachable source tree (t.applyAt settings m point).2

/-- The tree of a source is a document. -/
theorem document_ofConcrete (source : List Char) (tree : Syntax.Cst) :
    (ofConcrete source tree).Document where
  toWellFormed := wellFormed_ofConcrete source tree
  kind_root := congrArg Node.kind (ofConcrete_spec source tree).2.1
  literal_root := congrArg Node.literal (ofConcrete_spec source tree).2.1

/-- Every reachable tree is a document. -/
theorem Reachable.document {source : List Char} {tree : Syntax.Cst}
    (h : Reachable source tree t) : t.Document := by
  induction h with
  | read => exact document_ofConcrete source tree
  | requireImport settings _ ih => exact ih.requireImport settings
  | applyAt settings m point _ ih => exact ih.applyAt settings m point

/-- What a modification does to the text of a module where it is applied at a point. The literal of
the class attribute that was located is replaced; the literal of the first attribute of the name is,
or a new attribute stands in front of the token that ends the tag's attributes and its layout; the
element of the tag is replaced by itself between two tags. -/
def ModifiesText (t t' : SyntaxTree) (m : Modification) (point : Point) : Prop :=
  match m.action with
  | .addClass => ∃ tag a literal quote classes, point = .classAttribute tag a
      ∧ t.stringValue? a = some (literal, quote, classes)
      ∧ t.Replaces t' literal (quoted quote
        (ClassList.append classes (ClassList.missing (ClassList.ofValue m.value) classes)))
  | .addProp => ∃ tag assigned, point.tag? = some tag ∧ Assignment.ofText? m.value = some assigned
      ∧ ((∃ a literal quote current, t.attribute? tag.node assigned.name = some a
          ∧ t.stringValue? a = some (literal, quote, current)
          ∧ t.Replaces t' literal
            (quoted (if assigned.value.toList.contains quote then '"' else quote) assigned.value))
        ∨ t.attribute? tag.node assigned.name = none
          ∧ ∃ i stop, t.attributesEnd? tag.node = some i ∧ (t.node tag.node).slots[i]? = some stop
            ∧ t.kind stop.child = .token ∧ t.text stop.child ∈ [">", "/", "/>"]
            ∧ t.InsertsBefore t' stop
              (t.attributeGap tag.node ++ assigned.name ++ "=" ++ quoted '"' assigned.value))
  | .wrapElement => ∃ tag element, point.tag? = some tag ∧ t.elementOfTag? tag.node = some element
      ∧ t.Replaces t' element ("<" ++ Text.trim m.value ++ ">" ++ t.text element
        ++ "</" ++ Text.trim m.value ++ ">")

/-- Adding classes writes the missing ones behind those the string has, in its quotes. -/
lemma Document.modifiesText_addClass (h : t.Document) {tag : Tag} (htag : t.Located tag)
    {classAttributes : List String} {a : NodeId}
    (ha : t.classHolder? classAttributes tag.node = some a) {value : String}
    (happ : (t.addClass a value).1 = .applied) :
    ∃ literal quote classes, t.stringValue? a = some (literal, quote, classes)
      ∧ t.Replaces (t.addClass a value).2 literal (quoted quote
        (ClassList.append classes (ClassList.missing (ClassList.ofValue value) classes))) := by
  rcases t.addClass_cases a value with ⟨hne, -⟩ | ⟨literal, q, v, hv, -, -, heq⟩
  · exact absurd happ hne
  · have hmem := child_mem_descendants h.toLinked
      (child_mem_descendants h.toLinked htag.mem (mem_of_findAttribute? ha).1)
      (stringValue?_spec hv).1
    refine ⟨literal, q, v, hv, ?_⟩
    rw [heq]
    exact replaces_overwrite h.toWellFormed hmem _

/-- Setting a property rewrites the value of the attribute of that name, or inserts one. -/
lemma Document.modifiesText_addProp (h : t.Document) {tag : Tag} (htag : t.Located tag)
    {m : Modification} (hm : m.action = .addProp) {synthesize : Bool}
    (happ : (t.addProp tag.node m.value synthesize).1 = .applied) {point : Point}
    (hpoint : point.tag? = some tag) :
    t.ModifiesText (t.addProp tag.node m.value synthesize).2 m point := by
  rw [ModifiesText, hm]
  rw [SyntaxTree.addProp] at happ ⊢
  cases hof : Assignment.ofText? m.value with
  | none =>
      rw [hof] at happ
      cases happ
  | some assigned =>
      rw [hof] at happ
      refine ⟨tag, assigned, hpoint, rfl, ?_⟩
      dsimp only at happ ⊢
      -- The attribute is there and its string is replaced, or it is put in front of the closing
      -- token.
      cases ha : t.attribute? tag.node assigned.name with
      | some a =>
          rw [ha] at happ
          dsimp only at happ ⊢
          rcases t.changeValue_cases a assigned.value with ⟨hne, -⟩ | ⟨literal, q, v, hv, -, heq⟩
          · exact absurd happ hne
          · have hmem := child_mem_descendants h.toLinked
              (child_mem_descendants h.toLinked htag.mem (mem_of_findAttribute? ha).1)
              (stringValue?_spec hv).1
            refine .inl ⟨a, literal, q, v, rfl, hv, ?_⟩
            rw [heq]
            exact replaces_overwrite h.toWellFormed hmem _
      | none =>
          rw [ha] at happ
          dsimp only at happ ⊢
          split at happ
          · next hsyn =>
              rw [if_pos hsyn]
              exact .inr ⟨rfl,
                insertsBefore_insertAttribute h.toWellFormed htag.mem assigned happ⟩
          · cases happ

/-- Wrapping puts an opening tag in front of the element and a closing tag behind it. -/
lemma Document.replaces_wrapElement (h : t.Document) {tag : Tag} (htag : t.Located tag)
    {value : String} (happ : (t.wrapElement tag value).1 = .applied) :
    t.Replaces (t.wrapElement tag value).2 tag.element
      ("<" ++ Text.trim value ++ ">" ++ t.text tag.element ++ "</" ++ Text.trim value ++ ">") := by
  rcases wrapElement_cases h.toWellFormed tag value with hun | ⟨-, -, -, -, p, l, r, gap, hw⟩
  · exact absurd happ hun.outcome_ne
  · exact hw.replaces h.toWellFormed (parent_mem_descendants h.toLinked
      (htag.element_mem h.toLinked h.kind_root) hw.parent_eq)

/-- Every change of a tree that changes led to is one splice of its text: a new import is inserted
with one line break beside it, or none into an empty module, and a modification that is applied at a
point that is located in the tree replaces or inserts what it is about. -/
theorem Reachable.splices {source : List Char} {tree : Syntax.Cst} (h : Reachable source tree t)
    (settings : TransformSettings) :
    ((t.requireImport settings).1 = .inserted →
      ∃ new, t.Inserts (t.requireImport settings).2 new
        ∧ if t.children root = [] then new = settings.importLine
          else new = settings.importLine ++ "\n" ∨ new = "\n" ++ settings.importLine)
    ∧ ∀ m, ∀ point ∈ t.points settings.actualClassAttributes m,
      (t.applyAt settings m point).1 = .applied →
        t.ModifiesText (t.applyAt settings m point).2 m point := by
  have hd := h.document
  refine ⟨inserts_requireImport hd, fun m point hpoint happ => ?_⟩
  obtain ⟨tag, htag, rfl⟩ := exists_of_mem_points hpoint
  obtain ⟨target, action, value⟩ := m
  -- One case for each action, at the point of a located tag.
  cases action with
  | addClass =>
      cases ha : t.classHolder? settings.actualClassAttributes tag.node with
      | none =>
          rw [pointAt, ha] at happ
          cases happ
      | some a =>
          rw [pointAt, ha] at happ ⊢
          obtain ⟨literal, quote, classes, hspliced⟩ := hd.modifiesText_addClass htag ha happ
          exact ⟨tag, a, literal, quote, classes, rfl, hspliced⟩
  | addProp =>
      have happly : t.applyAt settings ⟨target, .addProp, value⟩ (.openingTag tag)
          = t.addProp tag.node value settings.actualSynthesizeMissingProps := rfl
      rw [pointAt, happly] at happ ⊢
      exact hd.modifiesText_addProp (m := ⟨target, .addProp, value⟩) htag rfl happ rfl
  | wrapElement =>
      obtain ⟨name, element, -, helement, heq⟩ := tagAt?_eq_some.mp htag.tagAt
      have hel : tag.element = element := congrArg Tag.element heq
      have happly : t.applyAt settings ⟨target, .wrapElement, value⟩ (.openingTag tag)
          = t.wrapElement tag value := rfl
      rw [pointAt, happly] at happ ⊢
      exact ⟨tag, tag.element, rfl, hel ▸ helement, hd.replaces_wrapElement htag happ⟩

/-- The concrete tree of a module that is a single tag, `<a x='b'/>`. -/
def soleTag : Syntax.Cst :=
  .node (.named .program) none 0 10
    [.node (.named .selfClosingElement) none 0 10
      [.node (.token "<") none 0 1 [], .node (.named .identifier) (some .name) 1 2 [],
        .node (.named .attribute) (some .attribute) 3 8
          [.node (.named .propertyName) none 3 4 [], .node (.token "=") none 4 5 [],
            .node (.named .string) none 5 8 []],
        .node (.token "/>") none 8 10 []]]

/-- A new attribute of the only tag of a module. -/
theorem splices_soleTag :
    let t := ofConcrete "<a x='b'/>".toList soleTag
    let m : Modification := ⟨"a", .addProp, "y=c"⟩
    let point := Point.openingTag ⟨1, 1, "a", some ⟨1, 1⟩⟩
    point ∈ t.points (TransformSettings.actualClassAttributes {}) m
      ∧ (t.applyAt {} m point).1 = .applied
      ∧ (t.applyAt {} m point).2.render = "<a x='b' y=\"c\"/>"
      ∧ t.ModifiesText (t.applyAt {} m point).2 m point := by
  intro t m point
  have hpoint : point ∈ t.points (TransformSettings.actualClassAttributes {}) m := by
    decide +kernel
  have happ : (t.applyAt {} m point).1 = .applied := by decide +kernel
  exact ⟨hpoint, happ, by decide +kernel, (Reachable.splices .read {}).2 m point hpoint happ⟩

end Restyle.SyntaxTree
