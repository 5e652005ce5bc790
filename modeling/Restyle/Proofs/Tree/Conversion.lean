import Restyle.Proofs.Tree.Marking
import Restyle.Tree.OfConcrete

/-!
Taking over a concrete tree loses nothing, whatever stretches its nodes claim.

* `ofConcrete?`: the conversion that has no answer as soon as the lower bound of a `clamp` is above
  the upper one;
* `Copies`: the nodes behind a node are those of a concrete tree in order;
* `wellFormed_ofConcrete`: the editable tree is well formed, so that what each node was read from is
  what its children were read from with the layout around them;
* `ofConcrete_lossless`: both ways to write the tree agree on every node, whichever nodes are
  marked.
-/

namespace Restyle.SyntaxTree

open Syntax (Cst)

/-! ### The conversion with its bounds checked -/

/-- The nearest number between two bounds, if they are in order. -/
def clamp? (low high x : Nat) : Option Nat :=
  if low ≤ high then some (clamp low high x) else none

mutual

/-- `addBelow` where no bounds may be out of order. -/
def addBelow? (source : List Char) (id : NodeId) (start stop : Nat) (tree : Cst)
    (t : SyntaxTree) : Option SyntaxTree :=
  match tree with
  | .node label _ _ _ children =>
    addChildren? source id (label.kind = .attribute) stop children ⟨start, false, false⟩ t

/-- `addChildren` where no bounds may be out of order. -/
def addChildren? (source : List Char) (parent : NodeId) (inAttribute : Bool) (stop : Nat)
    (children : List Cst) (progress : Progress) (t : SyntaxTree) : Option SyntaxTree :=
  match children with
  | [] => some (t.setEnd parent (slice source progress.stop stop))
  | child :: rest => do
    let childStart ← clamp? progress.stop stop child.start
    let childStop ← clamp? childStart stop child.stop
    let (id, t) := t.add
      { Node.made child.label.kind with
        role := slotRole inAttribute progress child
        asRead := some (slice source childStart childStop)
        position := some (Position.ofOffset source child.start) }
    let t := t.appendChild parent id (slice source progress.stop childStart)
    let t ← addBelow? source id childStart childStop child t
    addChildren? source parent inAttribute stop rest
      ⟨childStop, progress.seenNamed || child.label.isNamed,
        child.label = .token "="⟩ t

end

/-- `ofConcrete` where no bounds may be out of order. -/
def ofConcrete? (source : List Char) (tree : Cst) : Option SyntaxTree :=
  addBelow? source root 0 source.length tree
    ⟨#[{ Node.made .program with
        asRead := some (String.ofList source)
        position := some .start }]⟩

lemma le_clamp (low high x : Nat) : low ≤ clamp low high x :=
  Nat.le_max_left _ _

lemma clamp_le {low high : Nat} (h : low ≤ high) (x : Nat) : clamp low high x ≤ high :=
  Nat.max_le.mpr ⟨h, Nat.min_le_right _ _⟩

lemma clamp?_eq {low high : Nat} (h : low ≤ high) (x : Nat) :
    clamp? low high x = some (clamp low high x) :=
  if_pos h

mutual

/-- No bounds are out of order below a node whose own are not. -/
lemma addBelow?_eq (source : List Char) (id : NodeId) {start stop : Nat} (h : start ≤ stop)
    (tree : Cst) (t : SyntaxTree) :
    addBelow? source id start stop tree t = some (addBelow source id start stop tree t) := by
  match tree with
  | .node label _ _ _ children =>
    rw [addBelow?, addBelow]
    exact addChildren?_eq source id _ children h t

/-- The clamps of a row do not fail as long as the row has not passed its end. -/
lemma addChildren?_eq (source : List Char) (parent : NodeId) (inAttribute : Bool) {stop : Nat}
    (children : List Cst) {progress : Progress} (h : progress.stop ≤ stop) (t : SyntaxTree) :
    addChildren? source parent inAttribute stop children progress t
      = some (addChildren source parent inAttribute stop children progress t) := by
  match children with
  | [] => rw [addChildren?, addChildren]
  | child :: rest =>
    have hstart := clamp_le h child.start
    have hstop := clamp_le hstart child.stop
    rw [addChildren?, addChildren, clamp?_eq h, Option.bind_eq_bind, Option.bind_some,
      clamp?_eq hstart, Option.bind_eq_bind, Option.bind_some]
    dsimp only
    rw [addBelow?_eq source _ (le_clamp _ _ _) child, Option.bind_some]
    exact addChildren?_eq source parent inAttribute rest hstop _

end

/-- No clamp of the conversion fails: its bounds are always in order. -/
theorem ofConcrete?_eq (source : List Char) (tree : Cst) :
    ofConcrete? source tree = some (ofConcrete source tree) :=
  addBelow?_eq source root (Nat.zero_le _) tree _

/-! ### Stretches of the source -/

lemma slice_append (source : List Char) {a b c : Nat} (hab : a ≤ b) (hbc : b ≤ c) :
    slice source a b ++ slice source b c = slice source a c := by
  have hsplit : (source.drop a).take (c - a)
      = (source.drop a).take (b - a) ++ (source.drop b).take (c - b) := by
    have hlen : c - a = (b - a) + (c - b) := by omega
    rw [hlen, List.take_add, List.drop_drop, Nat.add_sub_cancel' hab]
  rw [slice, slice, slice, hsplit, String.ofList_append]

/-! ### The nodes that are taken over -/

/-- How far the children are taken over after one more. -/
def Progress.after (progress : Progress) (stop : Nat) (child : Cst) : Progress :=
  ⟨clamp (clamp progress.stop stop child.start) stop child.stop,
    progress.seenNamed || child.label.isNamed, child.label = .token "="⟩

/-- The node that is made for a child, before anything is put below it. -/
def copiedNode (source : List Char) (inAttribute : Bool) (stop : Nat) (progress : Progress)
    (child : Cst) : Node :=
  { Node.made child.label.kind with
    role := slotRole inAttribute progress child
    asRead := some (slice source (clamp progress.stop stop child.start)
      (progress.after stop child).stop)
    position := some (Position.ofOffset source child.start) }

lemma addChildren_cons (source : List Char) (parent : NodeId) (inAttribute : Bool) (stop : Nat)
    (child : Cst) (rest : List Cst) (progress : Progress) (t : SyntaxTree) :
    addChildren source parent inAttribute stop (child :: rest) progress t
      = addChildren source parent inAttribute stop rest (progress.after stop child)
        (addBelow source t.size (clamp progress.stop stop child.start)
          (progress.after stop child).stop child
          ((t.add (copiedNode source inAttribute stop progress child)).2.appendChild parent t.size
            (slice source progress.stop (clamp progress.stop stop child.start)))) := by
  rw [addChildren]
  rfl

mutual

/-- What lies below a node is copied from a concrete tree, and the nodes there are those behind
it. -/
def Copies (source : List Char) (t : SyntaxTree) (id start stop : Nat) : Cst → Prop
  | .node label _ _ _ children =>
    CopiesAll source t id (label.kind = .attribute) stop (id + 1) (t.node id).slots
      (t.node id).ending ⟨start, false, false⟩ children

/-- `Copies` for the remaining children of a node, which are to be found from the node `next` on. -/
def CopiesAll (source : List Char) (t : SyntaxTree) (parent : Nat) (inAttribute : Bool)
    (stop next : Nat) (slots : List Slot) (ending : String) (progress : Progress) :
    List Cst → Prop
  | [] => slots = [] ∧ ending = slice source progress.stop stop
  | child :: rest =>
    ∃ slots',
      slots = ⟨slice source progress.stop (clamp progress.stop stop child.start), next⟩ :: slots'
      ∧ t.node next = { copiedNode source inAttribute stop progress child with
          slots := (t.node next).slots, ending := (t.node next).ending, parent := some parent }
      ∧ Copies source t next (clamp progress.stop stop child.start)
          (progress.after stop child).stop child
      ∧ CopiesAll source t parent inAttribute stop (next + child.preorder.length) slots' ending
          (progress.after stop child) rest

end

variable {source : List Char} {t t' : SyntaxTree}

lemma length_preorder (label : Syntax.Label) (role : Option Role) (start stop : Nat)
    (children : List Cst) :
    (Cst.node label role start stop children).preorder.length
      = (Cst.preorderAll children).length + 1 := by
  rw [Cst.preorder, List.length_cons]

lemma length_preorderAll_cons (child : Cst) (rest : List Cst) :
    (Cst.preorderAll (child :: rest)).length
      = child.preorder.length + (Cst.preorderAll rest).length := by
  rw [Cst.preorderAll, List.length_append]

lemma one_le_length_preorder (tree : Cst) : 1 ≤ tree.preorder.length := by
  match tree with
  | .node _ _ _ _ _ =>
    rw [length_preorder]
    exact Nat.le_add_left _ _

lemma mem_preorder_self (tree : Cst) : tree ∈ tree.preorder := by
  match tree with
  | .node _ _ _ _ _ =>
    rw [Cst.preorder]
    exact List.mem_cons_self

mutual

/-- A copy depends only on the nodes of its own span. -/
lemma Copies.congr {id start stop : Nat} {tree : Cst}
    (h : Copies source t id start stop tree)
    (hnode : ∀ x : Nat, id ≤ x → x < id + tree.preorder.length → t'.node x = t.node x) :
    Copies source t' id start stop tree := by
  match tree, h with
  | .node label role start' stop' children, h =>
    rw [length_preorder] at hnode
    rw [Copies] at h ⊢
    rw [hnode id le_rfl (by simp)]
    exact CopiesAll.congr h fun x hx hlt => hnode x (Nat.le_of_succ_le hx) (by omega)

lemma CopiesAll.congr {parent next stop : Nat} {inAttribute : Bool} {slots : List Slot}
    {ending : String} {progress : Progress} {children : List Cst}
    (h : CopiesAll source t parent inAttribute stop next slots ending progress children)
    (hnode : ∀ x : Nat, next ≤ x → x < next + (Cst.preorderAll children).length →
      t'.node x = t.node x) :
    CopiesAll source t' parent inAttribute stop next slots ending progress children := by
  match children, h with
  | [], h =>
    rw [CopiesAll] at h ⊢
    exact h
  | child :: rest, h =>
    rw [length_preorderAll_cons] at hnode
    have hpos := one_le_length_preorder child
    rw [CopiesAll] at h ⊢
    obtain ⟨slots', hslots, hnext, hchild, hrest⟩ := h
    refine ⟨slots', hslots, ?_, hchild.congr fun x hx hlt => hnode x hx (by omega),
      CopiesAll.congr hrest fun x hx hlt => hnode x (by omega) (by omega)⟩
    rw [hnode next le_rfl (by omega)]
    exact hnext

end

lemma node_appendChild_add (t : SyntaxTree) (n : Node) {parent : Nat} (hp : parent < t.size)
    (gap : String) (x : Nat) :
    ((t.add n).2.appendChild parent t.size gap).node x
      = if x = parent then { t.node x with slots := (t.node x).slots ++ [⟨gap, t.size⟩] }
        else if x = t.size then { n with parent := some parent } else t.node x := by
  have hlast : t.size < (t.add n).2.size := by rw [size_add]; exact Nat.lt_succ_self _
  rw [appendChild, node_update_of_lt _ (by rw [size_update]; exact hp.trans hlast),
    node_update_of_lt _ hlast]
  by_cases hx : x = parent
  · subst hx
    rw [if_pos rfl, if_pos rfl, if_neg (Nat.ne_of_lt hp), node_add_of_lt t hp]
  · rw [if_neg hx, if_neg hx]
    by_cases hs : x = t.size
    · rw [if_pos hs, if_pos hs, hs, node_add_self]
    · rw [if_neg hs, if_neg hs, node_add, if_neg hs]

mutual

/-- Below the last node of a tree, a concrete tree is taken over. -/
lemma addBelow_spec (source : List Char) {id : Nat} (start stop : Nat) (tree : Cst)
    (t : SyntaxTree) (hsize : t.size = id + 1) (hslots : (t.node id).slots = []) :
    (addBelow source id start stop tree t).size = id + tree.preorder.length
      ∧ (∀ x : Nat, x < id → (addBelow source id start stop tree t).node x = t.node x)
      ∧ (addBelow source id start stop tree t).node id
        = { t.node id with
            slots := ((addBelow source id start stop tree t).node id).slots
            ending := ((addBelow source id start stop tree t).node id).ending }
      ∧ Copies source (addBelow source id start stop tree t) id start stop tree := by
  match tree with
  | .node label _ _ _ children =>
    rw [addBelow, length_preorder, Copies]
    obtain ⟨hsz, hold, slots, ending, hid, hall⟩ :=
      addChildren_spec source id (label.kind = .attribute) stop children ⟨start, false, false⟩ t
        (by omega)
    refine ⟨by omega, fun x hx => hold x (by omega) (Nat.ne_of_lt hx), ?_, ?_⟩
    · rw [hid]
    · rw [hid, hslots, List.nil_append, ← hsize]
      exact hall

/-- Adding a row of children writes behind what is there, fills the slots of the parent, and
copies each child. -/
lemma addChildren_spec (source : List Char) (parent : Nat) (inAttribute : Bool) (stop : Nat)
    (children : List Cst) (progress : Progress) (t : SyntaxTree) (hp : parent < t.size) :
    (addChildren source parent inAttribute stop children progress t).size
        = t.size + (Cst.preorderAll children).length
      ∧ (∀ x : Nat, x < t.size → x ≠ parent →
        (addChildren source parent inAttribute stop children progress t).node x = t.node x)
      ∧ ∃ slots ending,
        (addChildren source parent inAttribute stop children progress t).node parent
          = { t.node parent with slots := (t.node parent).slots ++ slots, ending := ending }
        ∧ CopiesAll source (addChildren source parent inAttribute stop children progress t) parent
          inAttribute stop t.size slots ending progress children := by
  match children with
  | [] =>
    rw [addChildren]
    refine ⟨by rw [size_setEnd]; rfl, fun x _ hx => ?_, [], slice source progress.stop stop, ?_, ?_⟩
    · rw [setEnd, node_update_of_ne t hx]
    · rw [setEnd, node_update_self t hp, List.append_nil]
    · rw [CopiesAll]
      exact ⟨rfl, rfl⟩
  | child :: rest =>
    rw [addChildren_cons, length_preorderAll_cons]
    set gap := slice source progress.stop (clamp progress.stop stop child.start)
    set n := copiedNode source inAttribute stop progress child with hn
    set u := (t.add n).2.appendChild parent t.size gap with hu
    -- First the new node, then what is below it, then the rest of the row; each leaves the earlier
    -- nodes alone.
    have hnode := node_appendChild_add t n hp gap
    rw [← hu] at hnode
    have husize : u.size = t.size + 1 := by rw [hu, size_appendChild, size_add]
    have hlast : u.node t.size = { n with parent := some parent } := by
      rw [hnode, if_neg (Nat.ne_of_gt hp), if_pos rfl]
    obtain ⟨hwsize, hwold, hwlast, hwcopies⟩ := addBelow_spec source
      (clamp progress.stop stop child.start) (progress.after stop child).stop child u husize
      (by rw [hlast, hn]; rfl)
    set w := addBelow source t.size (clamp progress.stop stop child.start)
      (progress.after stop child).stop child u
    have hpos := one_le_length_preorder child
    obtain ⟨hsz, hold, slots, ending, hpar, hall⟩ := addChildren_spec source parent inAttribute stop
      rest (progress.after stop child) w (by omega)
    set v := addChildren source parent inAttribute stop rest (progress.after stop child) w
    have hpw : w.node parent = { t.node parent with
        slots := (t.node parent).slots ++ [⟨gap, t.size⟩] } := by
      rw [hwold parent hp, hnode, if_pos rfl]
    refine ⟨by omega, fun x hx hne => ?_, ⟨gap, t.size⟩ :: slots, ending, ?_, ?_⟩
    · rw [hold x (by omega) hne, hwold x hx, hnode, if_neg hne, if_neg (Nat.ne_of_lt hx)]
    · rw [hpar, hpw, List.append_assoc]
      rfl
    -- The rest of the row comes behind the child's span, so the child's copy is still one.
    · have hkeep : ∀ x : Nat, t.size ≤ x → x < t.size + child.preorder.length →
          v.node x = w.node x := fun x hx hlt => hold x (by omega) (by omega)
      rw [CopiesAll]
      refine ⟨slots, rfl, ?_, hwcopies.congr hkeep, hwsize ▸ hall⟩
      rw [hkeep t.size le_rfl (by omega), hwlast, hlast]

end

/-- The tree of a concrete one: its root has the whole source, and below it is the concrete tree. -/
theorem ofConcrete_spec (source : List Char) (tree : Cst) :
    (ofConcrete source tree).size = tree.preorder.length
      ∧ (ofConcrete source tree).node root
        = { Node.made .program with
            asRead := some (String.ofList source)
            position := some .start
            slots := ((ofConcrete source tree).node root).slots
            ending := ((ofConcrete source tree).node root).ending }
      ∧ Copies source (ofConcrete source tree) root 0 source.length tree := by
  obtain ⟨hsize, -, hroot, hcopies⟩ := @addBelow_spec source root 0 source.length tree
    ⟨#[{ Node.made .program with
        asRead := some (String.ofList source)
        position := some .start }]⟩ rfl rfl
  exact ⟨by rw [ofConcrete, hsize]; exact Nat.zero_add _, hroot, hcopies⟩

/-! ### What the nodes that are taken over hold -/

/-- The slots of a copied node hold its stretch of the source, and name later nodes in order. -/
lemma CopiesAll.row {parent next stop : Nat} {inAttribute : Bool} {slots : List Slot}
    {ending : String} {progress : Progress} {children : List Cst}
    (h : CopiesAll source t parent inAttribute stop next slots ending progress children)
    (hstop : progress.stop ≤ stop) :
    String.join (slots.map fun slot => slot.gap ++ (t.node slot.child).asRead.getD "") ++ ending
        = slice source progress.stop stop
      ∧ (slots.map Slot.child).Pairwise (· < ·)
      ∧ ∀ c ∈ slots.map Slot.child, next ≤ c ∧ t.parent c = some parent
        ∧ (t.node c).asRead.isSome = true := by
  match children, h with
  | [], h =>
    rw [CopiesAll] at h
    obtain ⟨rfl, rfl⟩ := h
    exact ⟨String.empty_append, .nil, fun c hc => nomatch hc⟩
  | child :: rest, h =>
    rw [CopiesAll] at h
    obtain ⟨slots', rfl, hnext, -, hrest⟩ := h
    have hstart := clamp_le hstop child.start
    -- A child ends where the next gap begins, also where its own bounds had to be moved.
    have hafter : (progress.after stop child).stop ≤ stop := clamp_le hstart child.stop
    obtain ⟨hjoin, hsorted, hall⟩ := CopiesAll.row hrest hafter
    have hread : (t.node next).asRead = some (slice source (clamp progress.stop stop child.start)
        (progress.after stop child).stop) := by
      rw [hnext]
      rfl
    have hpos := one_le_length_preorder child
    refine ⟨?_, ?_, fun c hc => ?_⟩
    · rw [List.map_cons, String.join_cons, hread, Option.getD_some, String.append_assoc,
        String.append_assoc, hjoin]
      have hbefore : clamp progress.stop stop child.start ≤ (progress.after stop child).stop :=
        le_clamp _ _ _
      rw [slice_append source hbefore hafter, slice_append source (le_clamp _ _ _) hstart]
    · rw [List.map_cons, List.pairwise_cons]
      exact ⟨fun c hc => lt_of_lt_of_le (Nat.lt_add_of_pos_right hpos) (hall c hc).1, hsorted⟩
    · rcases List.mem_cons.mp hc with rfl | hc
      · exact ⟨le_rfl, by rw [SyntaxTree.parent, hnext], by rw [hread]; rfl⟩
      · obtain ⟨hle, hrest⟩ := hall c hc
        exact ⟨le_trans (Nat.le_add_right _ _) hle, hrest⟩

mutual

/-- Every node behind a copied one is a copy itself. -/
lemma Copies.exists_copy {id start stop : Nat} {tree : Cst}
    (h : Copies source t id start stop tree) (hle : start ≤ stop) {x : Nat} (hx : id < x)
    (hlt : x < id + tree.preorder.length) :
    ∃ parent sub a b role position, id ≤ parent ∧ parent < x ∧ x ∈ t.children parent ∧ a ≤ b
      ∧ sub ∈ tree.preorder
      ∧ t.node x = { Node.made sub.label.kind with
          role := role, asRead := some (slice source a b), position := position,
          slots := (t.node x).slots, ending := (t.node x).ending, parent := some parent }
      ∧ Copies source t x a b sub := by
  match tree, h with
  | .node label role start' stop' children, h =>
    rw [Copies] at h
    rw [length_preorder] at hlt
    obtain ⟨parent, sub, a, b, role, position, hp, hpx, hab, hsub, hnode, hcopies⟩ :=
      CopiesAll.exists_copy h (Nat.lt_succ_self id) hle hx (by omega)
    refine ⟨parent, sub, a, b, role, position, ?_, hpx, ?_, hab, ?_, hnode, hcopies⟩
    · rcases hp with ⟨rfl, -⟩ | ⟨hp, -⟩
      · exact le_rfl
      · exact Nat.le_of_succ_le hp
    · rcases hp with ⟨rfl, hmem⟩ | ⟨-, hmem⟩
      · exact hmem
      · exact hmem
    · rw [Cst.preorder]
      exact List.mem_cons_of_mem _ hsub

lemma CopiesAll.exists_copy {parent next stop : Nat} {inAttribute : Bool} {slots : List Slot}
    {ending : String} {progress : Progress} {children : List Cst}
    (h : CopiesAll source t parent inAttribute stop next slots ending progress children)
    (hp : parent < next) (hle : progress.stop ≤ stop) {x : Nat} (hx : next ≤ x)
    (hlt : x < next + (Cst.preorderAll children).length) :
    ∃ parent' sub a b role position,
      (parent' = parent ∧ x ∈ slots.map Slot.child ∨ next ≤ parent' ∧ x ∈ t.children parent')
      ∧ parent' < x ∧ a ≤ b ∧ sub ∈ Cst.preorderAll children
      ∧ t.node x = { Node.made sub.label.kind with
          role := role, asRead := some (slice source a b), position := position,
          slots := (t.node x).slots, ending := (t.node x).ending, parent := some parent' }
      ∧ Copies source t x a b sub := by
  match children, h with
  | [], _ => exact absurd hlt (Nat.not_lt.mpr hx)
  | child :: rest, h =>
    rw [length_preorderAll_cons] at hlt
    rw [CopiesAll] at h
    obtain ⟨slots', rfl, hnext, hchild, hrest⟩ := h
    rw [Cst.preorderAll, List.map_cons]
    have hstart := clamp_le hle child.start
    have hafter : (progress.after stop child).stop ≤ stop := clamp_le hstart child.stop
    have hbefore : clamp progress.stop stop child.start ≤ (progress.after stop child).stop :=
      le_clamp _ _ _
    -- `x` is the copy of the child itself, of a node in it, or of one in the rest
    rcases Nat.eq_or_lt_of_le hx with rfl | hx
    · refine ⟨parent, child, _, _, _, _, .inl ⟨rfl, List.mem_cons_self⟩, hp, hbefore, ?_, hnext,
        hchild⟩
      exact List.mem_append_left _ (mem_preorder_self child)
    · rcases Nat.lt_or_ge x (next + child.preorder.length) with hin | hout
      · obtain ⟨p, sub, a, b, role, position, hnp, hpx, hmem, hab, hsub, hnode, hcopies⟩ :=
          hchild.exists_copy hbefore hx hin
        exact ⟨p, sub, a, b, role, position, .inr ⟨hnp, hmem⟩, hpx, hab,
          List.mem_append_left _ hsub, hnode, hcopies⟩
      · obtain ⟨p, sub, a, b, role, position, hnp, hpx, hab, hsub, hnode, hcopies⟩ :=
          CopiesAll.exists_copy hrest (Nat.lt_add_right _ hp) hafter hout (by omega)
        refine ⟨p, sub, a, b, role, position, ?_, hpx, hab, List.mem_append_right _ hsub, hnode,
          hcopies⟩
        rcases hnp with ⟨rfl, hmem⟩ | ⟨hnp, hmem⟩
        · exact .inl ⟨rfl, List.mem_cons_of_mem _ hmem⟩
        · exact .inr ⟨le_trans (Nat.le_add_right _ _) hnp, hmem⟩

end

/-- A node of the tree of a concrete one, and which part of that it is a copy of. -/
structure CopyOf (source : List Char) (tree : Cst) (x a b : Nat) (sub : Cst) : Prop where
  mem : sub ∈ tree.preorder
  le : a ≤ b
  copies : Copies source (ofConcrete source tree) x a b sub
  asRead_eq : ((ofConcrete source tree).node x).asRead = some (slice source a b)
  literal_eq : ((ofConcrete source tree).node x).literal = none
  changed_eq : ((ofConcrete source tree).node x).changed = false
  /-- A node that is not the root stands behind its parent. -/
  root_or_child : x = root ∧ sub = tree
    ∨ (ofConcrete source tree).kind x = sub.label.kind
      ∧ ∃ p < x, (ofConcrete source tree).parent x = some p
        ∧ x ∈ (ofConcrete source tree).children p

/-- Every node of the tree of a concrete one is a copy. -/
lemma exists_copyOf (source : List Char) (tree : Cst) {x : Nat}
    (hx : x < (ofConcrete source tree).size) : ∃ sub a b, CopyOf source tree x a b sub := by
  obtain ⟨hsize, hroot, hcopies⟩ := ofConcrete_spec source tree
  rcases Nat.eq_zero_or_pos x with rfl | hpos
  · have hread : slice source 0 source.length = String.ofList source := by
      rw [slice, List.drop_zero, Nat.sub_zero, List.take_length]
    refine ⟨tree, 0, source.length, mem_preorder_self tree, Nat.zero_le _, hcopies, ?_, ?_, ?_,
      .inl ⟨rfl, rfl⟩⟩
    · rw [hread]
      exact congrArg Node.asRead hroot
    · exact congrArg Node.literal hroot
    · exact congrArg Node.changed hroot
  · obtain ⟨p, sub, a, b, role, position, -, hpx, hmem, hab, hsub, hnode, hcopy⟩ :=
      hcopies.exists_copy (Nat.zero_le _) hpos (by rw [hsize] at hx; exact Nat.lt_add_left _ hx)
    refine ⟨sub, a, b, hsub, hab, hcopy, ?_, ?_, ?_, .inr ⟨?_, p, hpx, ?_, hmem⟩⟩
    · exact congrArg Node.asRead hnode
    · exact congrArg Node.literal hnode
    · exact congrArg Node.changed hnode
    · exact congrArg Node.kind hnode
    · exact congrArg Node.parent hnode

/-- The children of a copied node. -/
lemma Copies.row {id start stop : Nat} {tree : Cst} (h : Copies source t id start stop tree)
    (hle : start ≤ stop) :
    t.readBelow id = slice source start stop
      ∧ (t.children id).Pairwise (· < ·)
      ∧ ∀ c ∈ t.children id, id < c ∧ t.parent c = some id
        ∧ (t.node c).asRead.isSome = true := by
  match tree, h with
  | .node label _ _ _ children, h =>
    rw [Copies] at h
    exact CopiesAll.row h hle

section OfConcrete

variable {source : List Char} {tree : Cst}

lemma parent_root_ofConcrete : (ofConcrete source tree).parent root = none :=
  congrArg Node.parent (ofConcrete_spec source tree).2.1

lemma row_ofConcrete {p c : NodeId} (hc : c ∈ (ofConcrete source tree).children p) :
    p < c ∧ (ofConcrete source tree).parent c = some p
      ∧ ((ofConcrete source tree).node c).asRead.isSome = true := by
  obtain ⟨sub, a, b, hcopy⟩ := exists_copyOf source tree (lt_size_of_mem hc)
  exact (hcopy.copies.row hcopy.le).2.2 c hc

/-- Nodes are made behind their parents. -/
lemma parent_lt_ofConcrete {c p : NodeId} (hp : (ofConcrete source tree).parent c = some p) :
    p < c := by
  obtain ⟨sub, a, b, hcopy⟩ := exists_copyOf source tree (lt_size_of_parent hp)
  rcases hcopy.root_or_child with ⟨rfl, -⟩ | ⟨-, q, hq, hcq, -⟩
  · rw [parent_root_ofConcrete] at hp
    cases hp
  · rw [hp, Option.some.injEq] at hcq
    exact hcq ▸ hq

lemma changed_ofConcrete (x : NodeId) : ((ofConcrete source tree).node x).changed = false := by
  rcases Nat.lt_or_ge x (ofConcrete source tree).size with hx | hx
  · obtain ⟨sub, a, b, hcopy⟩ := exists_copyOf source tree hx
    exact hcopy.changed_eq
  · rw [node_of_size_le _ hx]
    rfl

lemma literal_ofConcrete (x : NodeId) : ((ofConcrete source tree).node x).literal = none := by
  rcases Nat.lt_or_ge x (ofConcrete source tree).size with hx | hx
  · obtain ⟨sub, a, b, hcopy⟩ := exists_copyOf source tree hx
    exact hcopy.literal_eq
  · rw [node_of_size_le _ hx]
    rfl

lemma linked_ofConcrete (source : List Char) (tree : Cst) : (ofConcrete source tree).Linked where
  size_pos := (ofConcrete_spec source tree).1 ▸ one_le_length_preorder tree
  parent_root := parent_root_ofConcrete
  parent_of_mem := fun hc => (row_ofConcrete hc).2.1
  nodup := fun p => by
    rcases Nat.lt_or_ge p (ofConcrete source tree).size with hp | hp
    · obtain ⟨sub, a, b, hcopy⟩ := exists_copyOf source tree hp
      exact (hcopy.copies.row hcopy.le).2.1.imp fun h => Nat.ne_of_lt h
    · rw [children, node_of_size_le _ hp]
      exact List.nodup_nil
  parent_lt := fun hp => (parent_lt_ofConcrete hp).trans (lt_size_of_parent hp)
  -- A parent has the smaller number, so the levels come by induction on the number.
  exists_level := fun id => by
    induction id using Nat.strong_induction_on with
    | _ id ih =>
        cases hp : (ofConcrete source tree).parent id with
        | none => exact ⟨0, .top hp⟩
        | some p =>
            obtain ⟨n, hn⟩ := ih p (parent_lt_ofConcrete hp)
            exact ⟨n + 1, .under hp hn⟩
  slots_of_literal := fun {id s} hs => by
    rw [literal_ofConcrete] at hs
    cases hs

end OfConcrete

/-- The tree of a concrete one is well formed. -/
theorem wellFormed_ofConcrete (source : List Char) (tree : Cst) :
    (ofConcrete source tree).WellFormed where
  toLinked := linked_ofConcrete source tree
  changed_of_mem := fun {p c} _ hch => by
    rw [changed_ofConcrete] at hch
    cases hch
  asRead_of_unchanged := fun {id s} _ hs => by
    rcases Nat.lt_or_ge id (ofConcrete source tree).size with hid | hid
    · obtain ⟨sub, a, b, hcopy⟩ := exists_copyOf source tree hid
      rw [hcopy.asRead_eq, Option.some.injEq] at hs
      obtain ⟨hbelow, -, hall⟩ := hcopy.copies.row hcopy.le
      exact ⟨hcopy.literal_eq, by rw [hbelow, hs], fun c hc => (hall c hc).2.2⟩
    · rw [node_of_size_le _ hid] at hs
      cases hs

/-! ### Nothing is lost -/

/-- Marks any number of nodes, one after the other. -/
def markAll (t : SyntaxTree) (ids : List NodeId) : SyntaxTree :=
  ids.foldl markChanged t

lemma WellFormed.markAll (h : t.WellFormed) (ids : List NodeId) : (t.markAll ids).WellFormed := by
  induction ids generalizing t with
  | nil => exact h
  | cons id ids ih => exact ih (h.markChanged id)

lemma WellFormed.text_markAll (h : t.WellFormed) (ids : List NodeId) (x : NodeId) :
    (t.markAll ids).text x = t.text x := by
  induction ids generalizing t with
  | nil => rfl
  | cons id ids ih => exact (ih (h.markChanged id)).trans (h.text_markChanged id x)

/-- A tree that was read is written as what it was read from. -/
lemma render_ofConcrete (source : List Char) (tree : Cst) :
    (ofConcrete source tree).render = String.ofList source := by
  have hroot := (ofConcrete_spec source tree).2.1
  exact (wellFormed_ofConcrete source tree).text_of_asRead (congrArg Node.changed hroot)
    (congrArg Node.asRead hroot)

/-- Taking over a concrete tree loses nothing: no bounds are out of order on the way, what a node
was read from is what its children were read from with the layout around them, and whichever nodes
are marked, each is written as it was read and the whole as the source. -/
theorem ofConcrete_lossless (source : List Char) (tree : Cst) :
    ofConcrete? source tree = some (ofConcrete source tree)
      ∧ (∀ id < (ofConcrete source tree).size, ((ofConcrete source tree).node id).asRead
        = some ((ofConcrete source tree).readBelow id))
      ∧ (∀ ids, ∀ id < (ofConcrete source tree).size,
        some (((ofConcrete source tree).markAll ids).text id)
          = ((ofConcrete source tree).node id).asRead)
      ∧ ∀ ids, ((ofConcrete source tree).markAll ids).render = String.ofList source := by
  have hwf := wellFormed_ofConcrete source tree
  have hroot := (ofConcrete_spec source tree).2.1
  have hnode := @exists_copyOf source tree
  set t := ofConcrete source tree
  -- An unmarked node writes what it was read with; marking changes no text in a tree that is well
  -- formed.
  have htext : ∀ id < t.size, some (t.text id) = (t.node id).asRead := fun id hid => by
    obtain ⟨sub, a, b, hcopy⟩ := hnode hid
    rw [hcopy.asRead_eq, hwf.text_of_asRead hcopy.changed_eq hcopy.asRead_eq]
  refine ⟨ofConcrete?_eq source tree, fun id hid => ?_, fun ids id hid => ?_, fun ids => ?_⟩
  · obtain ⟨sub, a, b, hcopy⟩ := hnode hid
    rw [hcopy.asRead_eq, (hcopy.copies.row hcopy.le).1]
  · rw [hwf.text_markAll, htext id hid]
  · have hread : (t.node root).asRead = some (String.ofList source) := congrArg Node.asRead hroot
    have hrender := htext root hwf.root_lt
    rw [hread, Option.some.injEq] at hrender
    rw [render, hwf.text_markAll, hrender]

end Restyle.SyntaxTree
