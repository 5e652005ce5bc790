import Restyle.Proofs.Search.Grammar
import Restyle.Proofs.Syntax.Nesting

/-!
Concrete trees that lie in a source as they were read, and the texts of their nodes.

* `Cst.LaidOut`, `Cst.laidOut_of_reads`: a tree whose nodes stand in order, as every tree does that
  the grammar reads;
* `Copies.slotted`: below a node, the children are taken over in order with their texts;
* `exists_copiedWith`: so every node below the root has the text of a concrete one;
* `Portrays`: what that text is.
-/

namespace Restyle

namespace Syntax.Cst

/-- A tree lies in a source: its nodes stand in order. -/
structure LaidOut (source : List Char) (tree : Cst) : Prop where
  stop_le : tree.stop ≤ source.length
  ordered : ∀ sub ∈ tree.preorder, Ordered sub.stop sub.start sub.children

/-- What the grammar reads at the start of a source lies in it. -/
lemma laidOut_of_reads {reserved : String → Bool} {text rest : List Char} {tree : Cst}
    (h : Reads reserved none none (.the .program) 0 text rest [tree]) :
    tree.LaidOut (text ++ rest) := by
  have hrow := h.row
  refine ⟨?_, fun sub hsub => hrow.nested sub (mem_preorderAll_singleton.mpr hsub)⟩
  have hstop := hrow.ordered.2.2.1
  rw [Nat.zero_add] at hstop
  exact hstop.trans (List.length_append ▸ Nat.le_add_right _ _)

end Syntax.Cst

namespace SyntaxTree

open Syntax (Cst)

variable {source : List Char} {t : SyntaxTree} {tree tree' : Cst} {x : NodeId}

lemma Copies.slotted {a b : Nat} (h : Copies source t x a b tree)
    (hordered : Cst.Ordered b a tree.children) :
    List.Forall₂ (fun x c => CopiedWith source t x c.1 c.2) (t.children x)
      (slotted (tree.label.kind = .attribute) false false tree.children) := by
  match tree, h, hordered with
  | .node label _ _ _ children, h, hordered =>
    rw [Copies] at h
    exact h.slotted hordered

lemma fst_mem_of_mem_slotted {inAttribute seenNamed afterEquals : Bool} {children : List Cst}
    {c : Cst × Option Role} (h : c ∈ slotted inAttribute seenNamed afterEquals children) :
    c.1 ∈ children := by
  induction children generalizing seenNamed afterEquals with
  | nil => exact absurd h List.not_mem_nil
  | cons child rest ih =>
      rcases List.mem_cons.mp h with rfl | h
      · exact List.mem_cons_self
      · exact List.mem_cons_of_mem _ (ih h)

lemma exists_of_forall₂ {α β : Type} {R : α → β → Prop} {l : List α} {l' : List β}
    (h : List.Forall₂ R l l') {a : α} (ha : a ∈ l) : ∃ b ∈ l', R a b := by
  induction h with
  | nil => exact absurd ha List.not_mem_nil
  | cons hab _ ih =>
      rcases List.mem_cons.mp ha with rfl | ha
      · exact ⟨_, List.mem_cons_self, hab⟩
      · obtain ⟨b, hb, hab⟩ := ih ha
        exact ⟨b, List.mem_cons_of_mem _ hb, hab⟩

lemma exists_append_of_forall₂ {α β : Type} {R : α → β → Prop} {l : List α} {l₁ l₂ : List β}
    (h : List.Forall₂ R l (l₁ ++ l₂)) :
    ∃ k₁ k₂, l = k₁ ++ k₂ ∧ List.Forall₂ R k₁ l₁ ∧ List.Forall₂ R k₂ l₂ :=
  ⟨l.take l₁.length, l.drop l₁.length, (List.take_append_drop _ _).symm,
    List.forall₂_take_append l l₁ l₂ h, List.forall₂_drop_append l l₁ l₂ h⟩

/-- Every node below the root has the text of a concrete one. -/
lemma exists_copiedWith (hlaid : tree.LaidOut source) (hx : x < (ofConcrete source tree).size)
    (hne : x ≠ root) :
    ∃ sub ∈ tree.preorder, ∃ role, CopiedWith source (ofConcrete source tree) x sub role := by
  induction x using Nat.strong_induction_on with
  | _ x ih =>
      obtain ⟨_, _, _, hcopy⟩ := exists_copyOf source tree hx
      rcases hcopy.root_or_child with ⟨hroot, -⟩ | ⟨-, p, hp, -, hmem⟩
      · exact absurd hroot hne
      have hrow : ∃ sub ∈ tree.preorder, ∃ a b, Copies source (ofConcrete source tree) p a b sub
          ∧ Cst.Ordered b a sub.children := by
        by_cases hroot : p = root
        · have hordered := hlaid.ordered tree (mem_preorder_self tree)
          exact ⟨tree, mem_preorder_self tree, _, _, hroot ▸ (ofConcrete_spec source tree).2.2,
            (hordered.mono hlaid.stop_le).later (Nat.zero_le _)⟩
        · obtain ⟨sub, hsub, role, h⟩ := ih p hp (hp.trans hx) hroot
          exact ⟨sub, hsub, _, _, h.copies, hlaid.ordered sub hsub⟩
      obtain ⟨sub, hsub, a, b, hcopies, hordered⟩ := hrow
      obtain ⟨c, hc, hcopied⟩ := exists_of_forall₂ (hcopies.slotted hordered) hmem
      exact ⟨c.1, Cst.mem_preorder_of_mem_children hsub (fst_mem_of_mem_slotted hc), c.2, hcopied⟩

/-- A node has the kind and the text of a concrete one. -/
def Portrays (source : List Char) (t : SyntaxTree) (x : NodeId) (tree : Cst) : Prop :=
  t.kind x = tree.label.kind ∧ (t.node x).asRead = some (slice source tree.start tree.stop)

lemma Portrays.text_eq (h : Portrays source (ofConcrete source tree) x tree') :
    (ofConcrete source tree).text x = slice source tree'.start tree'.stop :=
  (wellFormed_ofConcrete source tree).text_of_asRead (changed_ofConcrete x) h.2

end SyntaxTree

end Restyle
