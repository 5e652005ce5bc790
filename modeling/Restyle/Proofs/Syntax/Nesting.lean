import Restyle.Proofs.Syntax.Reading
import Restyle.Proofs.Tree.Placed

/-!
Trees that the grammar reads lie where they were read.

* `Cst.Row`: trees that stand in order, and below them the children of every node within their
  parent;
* `Cst.Row.append`, `Cst.Row.enclose`: two rows one behind the other, and a node around the end of a
  row;
* `Reads.row`: what is read is such a row in the stretch that is read.
-/

namespace Restyle.Syntax

namespace Cst

variable {tree : Cst} {trees others : List Cst} {place middle stop : Nat}

/-- Trees in order up to a place are so up to a later one. -/
lemma Ordered.mono (h : Ordered middle place trees) (hle : middle ≤ stop) :
    Ordered stop place trees := by
  induction trees generalizing place with
  | nil => trivial
  | cons t ts ih =>
      obtain ⟨hstart, hspan, hstop, hrest⟩ := h
      exact ⟨hstart, hspan, hstop.trans hle, ih hrest⟩

lemma Ordered.later {earlier : Nat} (h : Ordered stop place trees) (hle : earlier ≤ place) :
    Ordered stop earlier trees := by
  cases trees with
  | nil => trivial
  | cons t ts => exact ⟨hle.trans h.1, h.2⟩

/-- Trees in order followed by others in order are in order. -/
lemma Ordered.append (h : Ordered middle place trees) (hothers : Ordered stop middle others)
    (hplace : place ≤ middle) (hmiddle : middle ≤ stop) : Ordered stop place (trees ++ others) := by
  induction trees generalizing place with
  | nil => exact hothers.later hplace
  | cons t ts ih =>
      obtain ⟨hstart, hspan, hstop, hrest⟩ := h
      exact ⟨hstart, hspan, hstop.trans hmiddle, ih hrest hstop⟩

/-- A node that takes in the end of a row stands where this did. -/
lemma Ordered.enclose (label : Label) (role : Option Role)
    (h : Ordered stop place (trees ++ others)) (hle : place ≤ stop) :
    Ordered stop place
        (trees ++ [.node label role ((others.head?.map start).getD stop) stop others])
      ∧ Ordered stop ((others.head?.map start).getD stop) others := by
  induction trees generalizing place with
  | nil =>
      cases others with
      | nil => exact ⟨⟨hle, le_rfl, le_rfl, trivial⟩, trivial⟩
      | cons t ts =>
          obtain ⟨hstart, hspan, hstop, hrest⟩ := h
          exact ⟨⟨hstart, hspan.trans hstop, le_rfl, trivial⟩, le_rfl, hspan, hstop, hrest⟩
  | cons t ts ih =>
      obtain ⟨hstart, hspan, hstop, hrest⟩ := h
      obtain ⟨hrow, hinner⟩ := ih hrest hstop
      exact ⟨⟨hstart, hspan, hstop, hrow⟩, hinner⟩

/-- The nodes of two lists of trees are those of one or of the other. -/
lemma mem_preorderAll_append {sub : Cst} :
    sub ∈ preorderAll (trees ++ others) ↔ sub ∈ preorderAll trees ∨ sub ∈ preorderAll others := by
  induction trees with
  | nil => simp [preorderAll]
  | cons t ts ih =>
      rw [List.cons_append, preorderAll, preorderAll, List.mem_append, List.mem_append,
      ih, or_assoc]

lemma mem_preorderAll_singleton {sub : Cst} : sub ∈ preorderAll [tree] ↔ sub ∈ tree.preorder := by
  simp [preorderAll]

/-- Trees that stand in order between two places, as the children of every node below them do within
their parent. -/
structure Row (stop place : Nat) (trees : List Cst) : Prop where
  ordered : Ordered stop place trees
  nested : ∀ sub ∈ preorderAll trees, Ordered sub.stop sub.start sub.children

lemma Row.nil : Row stop place [] :=
  ⟨trivial, fun _ h => nomatch h⟩

lemma Row.append (h : Row middle place trees) (hothers : Row stop middle others)
    (hplace : place ≤ middle) (hmiddle : middle ≤ stop) : Row stop place (trees ++ others) :=
  ⟨h.ordered.append hothers.ordered hplace hmiddle, fun sub hsub =>
    (mem_preorderAll_append.mp hsub).elim (h.nested sub) (hothers.nested sub)⟩

/-- A leaf alone is a row. -/
lemma Row.leaf {label : Label} {role : Option Role} (hplace : place ≤ middle)
    (hmiddle : middle ≤ stop) : Row stop place [.node label role middle stop []] := by
  refine ⟨⟨hplace, hmiddle, le_rfl, trivial⟩, fun sub hsub => ?_⟩
  simp only [preorderAll, preorder, List.append_nil, List.mem_singleton] at hsub
  rw [hsub]
  exact trivial

/-- A node around the end of a row makes a row with what is in front of it. -/
lemma Row.enclose {label : Label} {role : Option Role} (h : Row stop place (trees ++ others))
    (hle : place ≤ stop) :
    Row stop place
      (trees ++ [.node label role ((others.head?.map start).getD stop) stop others]) := by
  obtain ⟨hrow, hinner⟩ := h.ordered.enclose label role hle
  refine ⟨hrow, fun sub hsub => ?_⟩
  rcases mem_preorderAll_append.mp hsub with hsub | hsub
  · exact h.nested sub (mem_preorderAll_append.mpr (.inl hsub))
  · rw [mem_preorderAll_singleton, preorder, List.mem_cons] at hsub
    rcases hsub with rfl | hsub
    · exact hinner
    · exact h.nested sub (mem_preorderAll_append.mpr (.inr hsub))

end Cst

open Cst

variable {reserved : String → Bool} {name : Option Construct} {role : Option Role} {r : Rule}
  {place : Nat} {text rest : List Char} {trees : List Cst}

/-- Comments stand in order. -/
lemma Layout.row (h : Layout place text rest trees) : Row (place + text.length) place trees := by
  induction h with
  | nothing => exact .nil
  | @blank place c text _ _ _ _ ih =>
      have hlength : place + (c :: text).length = place + 1 + text.length := by
        rw [List.length_cons]
        omega
      rw [hlength]
      exact ⟨ih.ordered.later (Nat.le_succ _), ih.nested⟩
  | @comment place body text _ _ _ _ ih =>
      rw [List.length_append, ← Nat.add_assoc]
      exact (Row.leaf le_rfl (Nat.le_add_right _ _)).append ih (Nat.le_add_right _ _)
        (Nat.le_add_right _ _)

/-- What is read stands in order where it is read. -/
theorem Reads.row (h : Reads reserved name role r place text rest trees) :
    Row (place + text.length) place trees := by
  -- By induction on the reading: layout, then the token or the parts, one behind the other.
  induction h with
  | blank => exact .nil
  | semicolon hlayout _ _ => exact hlayout.row
  | signature hlayout _ _ => exact hlayout.row
  | @spelled _ _ spelling place layout _ _ hlayout _ =>
      rw [List.length_append, String.length_toList, ← Nat.add_assoc]
      exact hlayout.row.append (.leaf le_rfl (Nat.le_add_right _ _)) (Nat.le_add_right _ _)
        (Nat.le_add_right _ _)
  | @token _ _ _ _ _ place layout text _ _ _ hlayout _ _ =>
      rw [List.length_append, ← Nat.add_assoc]
      exact hlayout.row.append (.leaf le_rfl (Nat.le_add_right _ _)) (Nat.le_add_right _ _)
        (Nat.le_add_right _ _)
  | opens _ _ _ ih => exact ih
  | hides _ _ _ _ ih => exact ih
  | shows _ _ _ _ _ _ ih => exact ih.enclose (Nat.le_add_right _ _)
  | @seq _ _ _ _ place text more _ _ _ _ _ ih ih' =>
      rw [List.length_append, ← Nat.add_assoc]
      exact ih.append ih' (Nat.le_add_right _ _) (Nat.le_add_right _ _)
  | first _ ih => exact ih
  | second _ ih => exact ih
  | once _ ih => exact ih
  | @again _ _ _ place text more _ _ _ _ _ ih ih' =>
      rw [List.length_append, ← Nat.add_assoc]
      exact ih.append ih' (Nat.le_add_right _ _) (Nat.le_add_right _ _)
  | bound _ ih => exact ih
  | weighed _ ih => exact ih
  | shown _ ih => exact ih
  | slot _ ih => exact ih

end Restyle.Syntax
