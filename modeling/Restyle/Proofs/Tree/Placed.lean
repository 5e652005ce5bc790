import Restyle.Proofs.Tree.Conversion

/-!
Nodes that stand in order. Where the children of a concrete node follow each other within it,
nothing is cut off when they are taken over.

* `Cst.Ordered`: trees one behind the other, between two places;
* `slotted`: the children of a node with the roles that they get;
* `CopiesAll.slotted`: the children are taken over with these roles and their texts;
* `Copies.forall₂`: below a node that is no attribute, the roles are those of the concrete children;
* `childIn?_of_forall₂`: a child is found where the concrete one has it.
-/

namespace Restyle

/-- Trees one behind the other, between two places. -/
def Syntax.Cst.Ordered (stop : Nat) : Nat → List Cst → Prop
  | _, [] => True
  | place, t :: ts => place ≤ t.start ∧ t.start ≤ t.stop ∧ t.stop ≤ stop ∧ Ordered stop t.stop ts

instance Syntax.Cst.decidableOrdered (stop : Nat) :
    (place : Nat) → (trees : List Cst) → Decidable (Cst.Ordered stop place trees)
  | _, [] => .isTrue trivial
  | place, t :: ts =>
    have := decidableOrdered stop t.stop ts
    inferInstanceAs (Decidable (place ≤ t.start ∧ t.start ≤ t.stop ∧ t.stop ≤ stop ∧ _))

namespace SyntaxTree

open Syntax (Cst)

variable {source : List Char} {t : SyntaxTree}

lemma clamp_eq {low high x : Nat} (hlow : low ≤ x) (hhigh : x ≤ high) : clamp low high x = x := by
  rw [clamp]
  omega

/-- A node has the kind, the role and the text of a concrete one, and below it lies what lies
there. -/
structure CopiedAs (source : List Char) (t : SyntaxTree) (x : NodeId) (tree : Cst) : Prop where
  kind_eq : t.kind x = tree.label.kind
  role_eq : t.role x = tree.role
  asRead_eq : (t.node x).asRead = some (slice source tree.start tree.stop)
  copies : Copies source t x tree.start tree.stop tree

/-- `CopiedAs` with a role that need not be that of the concrete node. -/
structure CopiedWith (source : List Char) (t : SyntaxTree) (x : NodeId) (tree : Cst)
    (role : Option Role) : Prop where
  kind_eq : t.kind x = tree.label.kind
  role_eq : t.role x = role
  asRead_eq : (t.node x).asRead = some (slice source tree.start tree.stop)
  copies : Copies source t x tree.start tree.stop tree

/-- The children of a node, each with the role that it gets. -/
def slotted (inAttribute seenNamed afterEquals : Bool) : List Cst → List (Cst × Option Role)
  | [] => []
  | child :: rest =>
    (child, slotRole inAttribute ⟨0, seenNamed, afterEquals⟩ child)
      :: slotted inAttribute (seenNamed || child.label.isNamed) (child.label = .token "=") rest

/-- Outside of attributes the roles are those of the concrete children. -/
lemma slotted_of_not_attribute (seenNamed afterEquals : Bool) (children : List Cst) :
    slotted false seenNamed afterEquals children = children.map fun c => (c, c.role) := by
  induction children generalizing seenNamed afterEquals with
  | nil => rfl
  | cons child rest ih => rw [slotted, ih, List.map_cons, slotRole, Bool.false_and,
      if_neg Bool.false_ne_true]

/-- Where the children stand in order, they are taken over with their texts. -/
lemma CopiesAll.slotted {parent stop next : Nat} {inAttribute : Bool} {slots : List Slot}
    {ending : String} {progress : Progress} {children : List Cst}
    (h : CopiesAll source t parent inAttribute stop next slots ending progress children)
    (hordered : Cst.Ordered stop progress.stop children) :
    List.Forall₂ (fun x c => CopiedWith source t x c.1 c.2) (slots.map Slot.child)
      (slotted inAttribute progress.seenNamed progress.afterEquals children) := by
  match children, h, hordered with
  | [], h, _ =>
    rw [CopiesAll] at h
    rw [h.1]
    exact .nil
  | child :: rest, h, hordered =>
    obtain ⟨hstart, hspan, hstop, hrest⟩ := hordered
    rw [CopiesAll] at h
    obtain ⟨slots', rfl, hnode, hchild, h⟩ := h
    -- In a row that is in order the clamps move nothing.
    have hstart' := clamp_eq hstart (hspan.trans hstop)
    have hstop' : (progress.after stop child).stop = child.stop := by
      rw [Progress.after, hstart', clamp_eq hspan hstop]
    rw [hstart', hstop'] at hchild
    refine .cons ⟨congrArg Node.kind hnode, congrArg Node.role hnode, ?_, hchild⟩
      (h.slotted (hstop'.symm ▸ hrest))
    rw [congrArg Node.asRead hnode, copiedNode, hstart', hstop']

/-- Below a node that is no attribute, the children are taken over as they are. -/
lemma CopiesAll.forall₂ {parent stop next : Nat} {slots : List Slot} {ending : String}
    {progress : Progress} {children : List Cst}
    (h : CopiesAll source t parent false stop next slots ending progress children)
    (hordered : Cst.Ordered stop progress.stop children) :
    List.Forall₂ (CopiedAs source t) (slots.map Slot.child) children := by
  have hslotted := h.slotted hordered
  rw [slotted_of_not_attribute, List.forall₂_map_right_iff] at hslotted
  exact hslotted.imp fun x c hc => ⟨hc.kind_eq, hc.role_eq, hc.asRead_eq, hc.copies⟩

lemma Copies.forall₂ {x start stop : Nat} {tree : Cst} (h : Copies source t x start stop tree)
    (hkind : tree.label.kind ≠ .attribute) (hordered : Cst.Ordered stop start tree.children) :
    List.Forall₂ (CopiedAs source t) (t.children x) tree.children := by
  match tree, h, hkind, hordered with
  | .node label _ _ _ children, h, hkind, hordered =>
    have hfalse : decide (label.kind = .attribute) = false := decide_eq_false hkind
    rw [Copies, hfalse] at h
    exact h.forall₂ hordered

/-- A child is found where the concrete node has it. -/
lemma childIn?_of_forall₂ {x : NodeId} {children : List Cst} {child : Cst} (role : Role)
    (h : List.Forall₂ (CopiedAs source t) (t.children x) children)
    (hfind : children.find? (fun c => c.role = some role) = some child) :
    ∃ y, t.childIn? x role = some y ∧ CopiedAs source t y child := by
  rw [childIn?]
  generalize t.children x = ids at h
  induction h with
  | nil => cases hfind
  | @cons y c ids children hcopy _ ih =>
      by_cases hrole : c.role = some role
      · rw [List.find?_cons_of_pos (by simpa using hrole), Option.some.injEq] at hfind
        rw [List.find?_cons_of_pos (by simpa [hcopy.role_eq] using hrole)]
        exact ⟨y, rfl, hfind ▸ hcopy⟩
      · rw [List.find?_cons_of_neg (by simpa using hrole)] at hfind
        rw [List.find?_cons_of_neg (by simpa [hcopy.role_eq] using hrole)]
        exact ih hfind

end SyntaxTree

end Restyle
