import Restyle.Proofs.Search.Shape
import Restyle.Proofs.Tree.Conversion

/-!
Concrete trees that obey the grammar of components.

* `Orderly`, `Grammatical`: what the grammar says of one node and of a whole tree, as far as
  searches rely on it;
* `Copies.child`, `Copies.quiet`: what lies below a node that is taken over;
* `shaped_ofConcrete`: the tree of a grammatical concrete one is shaped.
-/

namespace Restyle

/-! ### What the grammar says -/

namespace Syntax.Cst

/-- Whether no tag and no attribute is in a tree. -/
def isQuiet (tree : Cst) : Bool :=
  tree.preorder.all fun sub => !sub.label.kind.isTag && sub.label.kind != .attribute

/-- What the grammar says of a node. -/
structure Orderly (tree : Cst) : Prop where
  leaf : tree.label.kind = .text ∨ tree.label.kind = .token → tree.children = []
  opening_in_element : ∀ c ∈ tree.children, c.label.kind = .openingTag →
    tree.label.kind = .element ∧ c.role = some .openTag
  /-- An element has one opening tag, which comes first. -/
  opening_first : tree.label.kind = .element →
    (∀ c ∈ tree.children, c.role = some .openTag → c.label.kind = .openingTag)
      ∧ some .openTag ∉ (tree.children.map role).tail
  no_element_in_tag : tree.label.kind.isTag = true → ∀ c ∈ tree.children,
    c.label.kind.isElement = false
  quiet_string : tree.label.kind = .stringLiteral → tree.isQuiet = true
  quiet_name : tree.label.kind.isTag = true → ∀ c ∈ tree.children, c.role = some .name →
    c.isQuiet = true
  quiet_attribute_name : tree.label.kind = .attribute →
    (tree.children.find? fun c => c.label.isNamed).all isQuiet = true
  /-- Behind its first token, a tag has no attribute behind a token. -/
  attributes_first : tree.label.kind.isTag = true →
    .attribute ∉ (tree.children.map fun c => c.label.kind).tail.dropWhile (· != .token)

instance (tree : Cst) : Decidable tree.Orderly :=
  decidable_of_iff
    ((tree.label.kind = .text ∨ tree.label.kind = .token → tree.children.isEmpty = true)
      ∧ (∀ c ∈ tree.children, c.label.kind = .openingTag →
        tree.label.kind = .element ∧ c.role = some .openTag)
      ∧ (tree.label.kind = .element →
        (∀ c ∈ tree.children, c.role = some .openTag → c.label.kind = .openingTag)
          ∧ some .openTag ∉ (tree.children.map role).tail)
      ∧ (tree.label.kind.isTag = true → ∀ c ∈ tree.children, c.label.kind.isElement = false)
      ∧ (tree.label.kind = .stringLiteral → tree.isQuiet = true)
      ∧ (tree.label.kind.isTag = true → ∀ c ∈ tree.children, c.role = some .name →
        c.isQuiet = true)
      ∧ (tree.label.kind = .attribute →
        (tree.children.find? fun c => c.label.isNamed).all isQuiet = true)
      ∧ (tree.label.kind.isTag = true →
        .attribute ∉ (tree.children.map fun c => c.label.kind).tail.dropWhile (· != .token)))
    ⟨fun ⟨h₁, h₂, h₃, h₄, h₅, h₆, h₇, h₈⟩ =>
        ⟨fun h => List.isEmpty_iff.mp (h₁ h), h₂, h₃, h₄, h₅, h₆, h₇, h₈⟩,
      fun ⟨h₁, h₂, h₃, h₄, h₅, h₆, h₇, h₈⟩ =>
        ⟨fun h => List.isEmpty_iff.mpr (h₁ h), h₂, h₃, h₄, h₅, h₆, h₇, h₈⟩⟩

/-- A tree that obeys the grammar. -/
structure Grammatical (tree : Cst) : Prop where
  isProgram : tree.label.kind = .program
  orderly : ∀ sub ∈ tree.preorder, sub.Orderly

instance (tree : Cst) : Decidable tree.Grammatical :=
  decidable_of_iff (tree.label.kind = .program ∧ ∀ sub ∈ tree.preorder, sub.Orderly)
    ⟨fun ⟨h₁, h₂⟩ => ⟨h₁, h₂⟩, fun ⟨h₁, h₂⟩ => ⟨h₁, h₂⟩⟩

/-- Each tree of a list is listed among its nodes. -/
lemma mem_preorderAll_of_mem {trees : List Cst} {tree : Cst} (h : tree ∈ trees) :
    tree ∈ preorderAll trees := by
  match trees with
  | [] => exact absurd h List.not_mem_nil
  | first :: trees =>
    rw [preorderAll, List.mem_append]
    rcases List.mem_cons.mp h with rfl | h
    · exact .inl (SyntaxTree.mem_preorder_self tree)
    · exact .inr (mem_preorderAll_of_mem h)

mutual

/-- What lies below a node of a tree is in the tree. -/
lemma mem_preorder_of_mem_children {tree sub child : Cst} (h : sub ∈ tree.preorder)
    (hc : child ∈ sub.children) : child ∈ tree.preorder := by
  match tree with
  | .node label role start stop children =>
    rw [preorder, List.mem_cons] at h ⊢
    rcases h with rfl | h
    · exact .inr (mem_preorderAll_of_mem hc)
    · exact .inr (mem_preorderAll_of_mem_children h hc)

/-- The children of a node that is listed are listed. -/
lemma mem_preorderAll_of_mem_children {trees : List Cst} {sub child : Cst}
    (h : sub ∈ preorderAll trees) (hc : child ∈ sub.children) : child ∈ preorderAll trees := by
  match trees with
  | [] => exact absurd h List.not_mem_nil
  | tree :: trees =>
    rw [preorderAll, List.mem_append] at h ⊢
    exact h.imp (fun h => mem_preorder_of_mem_children h hc)
      fun h => mem_preorderAll_of_mem_children h hc

end

end Syntax.Cst

namespace SyntaxTree

open Syntax (Cst)

variable {source : List Char} {t : SyntaxTree} {tree : Cst}

/-! ### Rows of children -/

/-- The children of a copied node are copies of the children. -/
lemma CopiesAll.child {parent next stop : Nat} {inAttribute : Bool} {slots : List Slot}
    {ending : String} {progress : Progress} {children : List Cst}
    (h : CopiesAll source t parent inAttribute stop next slots ending progress children)
    {c : NodeId} (hc : c ∈ slots.map Slot.child) :
    ∃ child ∈ children, ∃ a b, Copies source t c a b child ∧ t.kind c = child.label.kind
      ∧ (inAttribute = false → t.role c = child.role)
      ∧ (t.role c = some .name → inAttribute = true → child.label.isNamed = true →
        progress.seenNamed = false ∧ children.find? (fun c => c.label.isNamed) = some child) := by
  match children, h with
  | [], h =>
    rw [CopiesAll] at h
    obtain ⟨rfl, -⟩ := h
    exact absurd hc List.not_mem_nil
  | child :: rest, h =>
    rw [CopiesAll] at h
    obtain ⟨slots', rfl, hnext, hchild, hrest⟩ := h
    rw [List.map_cons, List.mem_cons] at hc
    rcases hc with rfl | hc
    · have hrole : t.role c = slotRole inAttribute progress child := by
        rw [role, hnext]
        rfl
      refine ⟨child, List.mem_cons_self, _, _, hchild, by rw [kind, hnext]; rfl, fun hin => ?_,
        fun hname hin hnamed => ?_⟩
      · rw [hrole, slotRole, hin]
        rfl
      · rw [hrole, slotRole, hin, hnamed] at hname
        refine ⟨?_, List.find?_cons_of_pos hnamed⟩
        -- behind a named child the slot is that of a value, if it is any
        by_contra hseen
        rw [Bool.not_eq_false] at hseen
        cases hafter : progress.afterEquals with
        | false => simp [hseen, hafter] at hname
        | true => simp [hseen, hafter] at hname
    · obtain ⟨child', hmem, a, b, hcopies, hkind, hrole, hname⟩ := CopiesAll.child hrest hc
      refine ⟨child', List.mem_cons_of_mem _ hmem, a, b, hcopies, hkind, hrole,
        fun hr hin hnamed => ?_⟩
      obtain ⟨hseen, hfind⟩ := hname hr hin hnamed
      rw [Progress.after, Bool.or_eq_false_iff] at hseen
      exact ⟨hseen.1, by rw [List.find?_cons_of_neg (by rw [hseen.2]; decide), hfind]⟩

/-- The kinds and the roles of the children of a copied node. -/
lemma CopiesAll.kinds {parent next stop : Nat} {inAttribute : Bool} {slots : List Slot}
    {ending : String} {progress : Progress} {children : List Cst}
    (h : CopiesAll source t parent inAttribute stop next slots ending progress children) :
    (slots.map Slot.child).map t.kind = children.map (fun c => c.label.kind)
      ∧ (inAttribute = false → (slots.map Slot.child).map t.role = children.map Cst.role) := by
  -- By recursion on the children, in the order they are copied.
  match children, h with
  | [], h =>
    rw [CopiesAll] at h
    obtain ⟨rfl, -⟩ := h
    exact ⟨rfl, fun _ => rfl⟩
  | child :: rest, h =>
    rw [CopiesAll] at h
    obtain ⟨slots', rfl, hnext, -, hrest⟩ := h
    obtain ⟨hkinds, hroles⟩ := CopiesAll.kinds hrest
    have hkind : t.kind next = child.label.kind := by
      rw [kind, hnext]
      rfl
    refine ⟨?_, fun hin => ?_⟩
    · rw [List.map_cons, List.map_cons, List.map_cons, hkinds, hkind]
    · have hrole : t.role next = child.role := by
        rw [role, hnext]
        dsimp only [copiedNode]
        rw [slotRole, hin]
        rfl
      rw [List.map_cons, List.map_cons, List.map_cons, hroles hin, hrole]

/-- A child of a copied node is a copy of a child. -/
lemma Copies.child {x a b : Nat} {sub : Cst} (h : Copies source t x a b sub) {c : NodeId}
    (hc : c ∈ t.children x) :
    ∃ child ∈ sub.children, ∃ a b, Copies source t c a b child ∧ t.kind c = child.label.kind
      ∧ (sub.label.kind ≠ .attribute → t.role c = child.role)
      ∧ (t.role c = some .name → sub.label.kind = .attribute → child.label.isNamed = true →
        sub.children.find? (fun c => c.label.isNamed) = some child) := by
  match sub, h with
  | .node label _ _ _ children, h =>
    rw [Copies] at h
    obtain ⟨child, hmem, a, b, hcopies, hkind, hrole, hname⟩ := CopiesAll.child h hc
    exact ⟨child, hmem, a, b, hcopies, hkind, fun hne => hrole (decide_eq_false hne),
      fun hr hattr hnamed => (hname hr (decide_eq_true hattr) hnamed).2⟩

/-- A copy has the kinds of its children, and their roles unless it is an attribute. -/
lemma Copies.kinds {x a b : Nat} {sub : Cst} (h : Copies source t x a b sub) :
    (t.children x).map t.kind = sub.children.map (fun c => c.label.kind)
      ∧ (sub.label.kind ≠ .attribute → (t.children x).map t.role = sub.children.map Cst.role) := by
  match sub, h with
  | .node label _ _ _ children, h =>
    rw [Copies] at h
    exact ⟨(CopiesAll.kinds h).1, fun hne => (CopiesAll.kinds h).2 (decide_eq_false hne)⟩

/-! ### The tree of a grammatical concrete one -/

/-- Every node is a copy of one of the same kind. -/
lemma exists_copies (hg : tree.Grammatical) {x : NodeId} (hx : x < (ofConcrete source tree).size) :
    ∃ sub ∈ tree.preorder, ∃ a b, Copies source (ofConcrete source tree) x a b sub
      ∧ (ofConcrete source tree).kind x = sub.label.kind := by
  obtain ⟨sub, a, b, hcopy⟩ := exists_copyOf source tree hx
  refine ⟨sub, hcopy.mem, a, b, hcopy.copies, ?_⟩
  rcases hcopy.root_or_child with ⟨rfl, rfl⟩ | ⟨hkind, -⟩
  · rw [hg.isProgram]
    exact congrArg Node.kind (ofConcrete_spec source sub).2.1
  · exact hkind

/-- In the tree of a source each node is a child of its parent. -/
lemma mem_children_ofConcrete {p d : NodeId} (hp : (ofConcrete source tree).parent d = some p) :
    d ∈ (ofConcrete source tree).children p := by
  obtain ⟨sub, a, b, hcopy⟩ := exists_copyOf source tree (lt_size_of_parent hp)
  rcases hcopy.root_or_child with ⟨rfl, -⟩ | ⟨-, q, -, hq, hmem⟩
  · rw [(wellFormed_ofConcrete source tree).parent_root] at hp
    cases hp
  · rw [hp, Option.some.injEq] at hq
    exact hq ▸ hmem

/-- What lies under a copied node is a copy of what lies below the tree. -/
lemma Copies.under {x d : NodeId} {a b : Nat} {sub : Cst}
    (h : Copies source (ofConcrete source tree) x a b sub)
    (hkind : (ofConcrete source tree).kind x = sub.label.kind)
    (hd : (ofConcrete source tree).Under x d) :
    ∃ below ∈ sub.preorder, ∃ a b, Copies source (ofConcrete source tree) d a b below
      ∧ (ofConcrete source tree).kind d = below.label.kind := by
  induction hd with
  | refl => exact ⟨sub, mem_preorder_self sub, a, b, h, hkind⟩
  | step hp _ ih =>
      obtain ⟨above, hmem, a, b, hcopies, -⟩ := ih
      obtain ⟨child, hchild, a, b, hcopies', hkind', -⟩ :=
        hcopies.child (mem_children_ofConcrete hp)
      exact ⟨child, Cst.mem_preorder_of_mem_children hmem hchild, a, b, hcopies', hkind'⟩

/-- The copy of a quiet tree is quiet. -/
lemma Copies.quiet {x : NodeId} {a b : Nat} {sub : Cst}
    (h : Copies source (ofConcrete source tree) x a b sub)
    (hkind : (ofConcrete source tree).kind x = sub.label.kind) (hq : sub.isQuiet = true) :
    (ofConcrete source tree).Quiet x := by
  intro d hd
  obtain ⟨below, hmem, -, -, -, hd⟩ := h.under hkind hd
  have := List.all_eq_true.mp hq below hmem
  rw [Bool.and_eq_true, Bool.not_eq_true', bne_iff_ne] at this
  rw [hd]
  exact this

/-- A token is quiet. -/
lemma isQuiet_of_not_isNamed {child : Cst} (h : ¬ child.label.isNamed = true)
    (ho : child.Orderly) : child.isQuiet = true := by
  have htoken : child.label.kind = .token := by
    cases hl : child.label with
    | named construct =>
        rw [hl] at h
        exact absurd rfl h
    | token spelling => rfl
    | missing spelling => rfl
  match child, htoken, ho.leaf (.inr htoken) with
  | .node label _ _ _ children, htoken, hleaf =>
    have hlabel : label.kind = .token := htoken
    have hchildren : children = [] := hleaf
    rw [Cst.isQuiet, Cst.preorder, hchildren, Cst.preorderAll, List.all_cons, List.all_nil,
      Cst.label, hlabel]
    rfl

/-- What stands behind a member of a list that passes a test is among what stands behind the first
one. -/
lemma mem_dropWhile_of_mem_drop {α : Type} {l : List α} {test : α → Bool} {i : Nat} {x y : α}
    (hi : l[i]? = some x) (hx : test x = false) (hy : y ∈ l.drop i) :
    y ∈ l.dropWhile test := by
  induction l generalizing i with
  | nil => cases hi
  | cons z l ih =>
      by_cases hz : test z = true
      · rw [List.dropWhile_cons_of_pos hz]
        cases i with
        | zero =>
            rw [List.getElem?_cons_zero, Option.some.injEq] at hi
            rw [hi, hx] at hz
            cases hz
        | succ i => exact ih hi hy
      · rw [List.dropWhile_cons_of_neg hz]
        exact List.mem_of_mem_drop hy

/-- The place behind the attributes is that of a closing token, and not the first one. -/
lemma attributesEnd?_spec {id : NodeId} {i : Nat} (h : t.attributesEnd? id = some i) :
    ∃ j, i = j + 1 ∧ ∃ c, (t.children id)[j + 1]? = some c ∧ t.endsAttributes c = true := by
  rw [attributesEnd?] at h
  split at h
  · cases h
  · next name _ =>
      obtain ⟨j, hj, rfl⟩ := Option.map_eq_some_iff.mp h
      obtain ⟨hlt, hends, -⟩ := List.findIdx?_eq_some_iff_getElem.mp hj
      refine ⟨name + j, by omega, _, ?_, hends⟩
      rw [List.getElem_drop, ← List.getElem?_eq_getElem]
      congr 1
      omega

/-- A child in a role that no later child has is the first one in it. -/
lemma childIn?_of_tail {p c : NodeId} {r : Role} (hc : c ∈ t.children p) (hr : t.role c = some r)
    (htail : some r ∉ ((t.children p).map t.role).tail) : t.childIn? p r = some c := by
  rw [childIn?]
  cases hl : t.children p with
  | nil =>
      rw [hl] at hc
      exact absurd hc List.not_mem_nil
  | cons first rest =>
      rw [hl, List.map_cons, List.tail_cons] at htail
      rw [hl, List.mem_cons] at hc
      rcases hc with rfl | hc
      · exact List.find?_cons_of_pos (decide_eq_true hr)
      · exact absurd (hr ▸ List.mem_map_of_mem hc) htail

section Regular

variable {id : NodeId} {sub : Cst} {a b : Nat}

/-- What an opening tag stands in is an element, and finds it as its opening tag. -/
lemma opening_ofConcrete (hg : tree.Grammatical) (hlt : id < (ofConcrete source tree).size)
    (hopening : (ofConcrete source tree).kind id = .openingTag) :
    ∃ e, (ofConcrete source tree).parent id = some e
      ∧ (ofConcrete source tree).kind e = .element
      ∧ (ofConcrete source tree).childIn? e .openTag = some id := by
  obtain ⟨sub, a, b, hcopy⟩ := exists_copyOf source tree hlt
  rcases hcopy.root_or_child with ⟨rfl, -⟩ | ⟨-, p, -, hp, hidp⟩
  · rw [kind, (ofConcrete_spec source tree).2.1] at hopening
    cases hopening
  · obtain ⟨above, habove, _, _, hcopyp, hkindp⟩ := exists_copies hg (lt_size_of_mem hidp)
    obtain ⟨child, hchild, -, -, -, hkindc, hrole, -⟩ := hcopyp.child hidp
    have hop := hg.orderly above habove
    obtain ⟨helement, hopen⟩ := hop.opening_in_element child hchild (hkindc ▸ hopening)
    have hne : above.label.kind ≠ .attribute := by
      rw [helement]
      decide
    refine ⟨p, hp, hkindp.trans helement, childIn?_of_tail hidp ((hrole hne).trans hopen) ?_⟩
    rw [hcopyp.kinds.2 hne]
    exact (hop.opening_first helement).2

/-- The name of a tag or an attribute has no tag and no attribute in it. -/
lemma Copies.quiet_name (h : Copies source (ofConcrete source tree) id a b sub)
    (ho : sub.Orderly) (hchildren : ∀ child ∈ sub.children, child.Orderly)
    (hname : sub.label.kind.isTag = true ∨ sub.label.kind = .attribute) {c : NodeId}
    (hc : (ofConcrete source tree).childIn? id .name = some c) :
    (ofConcrete source tree).Quiet c := by
  obtain ⟨hmemc, hrolec⟩ := childIn?_spec hc
  obtain ⟨child, hchild, _, _, hcopyc, hkindc, hrole, hfirst⟩ := h.child hmemc
  refine hcopyc.quiet hkindc ?_
  rcases hname with htag | hattr
  · have hne : sub.label.kind ≠ .attribute := fun heq => by
      rw [heq] at htag
      cases htag
    exact ho.quiet_name htag child hchild ((hrole hne).symm.trans hrolec)
  · by_cases hnamed : child.label.isNamed = true
    · have hquiet := ho.quiet_attribute_name hattr
      rw [hfirst hrolec hattr hnamed] at hquiet
      exact hquiet
    · exact isQuiet_of_not_isNamed hnamed (hchildren child hchild)

/-- No attribute stands behind the token that ends the attributes. -/
lemma Copies.attributes_first (h : Copies source (ofConcrete source tree) id a b sub)
    (ho : sub.Orderly) (htag : sub.label.kind.isTag = true) {i : Nat}
    (hi : (ofConcrete source tree).attributesEnd? id = some i) :
    ∀ c ∈ ((ofConcrete source tree).children id).drop i,
      (ofConcrete source tree).kind c ≠ .attribute := by
  intro c hc hattr
  obtain ⟨j, rfl, e, he, hends⟩ := attributesEnd?_spec hi
  have hfirst := ho.attributes_first htag
  rw [← h.kinds.1] at hfirst
  rw [endsAttributes, Bool.and_eq_true, decide_eq_true_eq] at hends
  refine hfirst (mem_dropWhile_of_mem_drop (i := j) (x := .token) ?_ rfl ?_)
  · rw [List.getElem?_tail, List.getElem?_map, he, Option.map_some, hends.1]
  · rw [← List.drop_one, List.drop_drop, ← List.map_drop, Nat.add_comm 1 j]
    exact List.mem_map.mpr ⟨c, hc, hattr⟩

/-- Every node of a grammatical source is regular. -/
lemma regular_ofConcrete (hg : tree.Grammatical) (hlt : id < (ofConcrete source tree).size) :
    (ofConcrete source tree).Regular id := by
  obtain ⟨sub, hmem, a, b, hcopy, hkind⟩ := exists_copies hg hlt
  -- The node is a copy, and has its kinds and roles from an orderly tree.
  have ho := hg.orderly sub hmem
  constructor
  case element_of_opening => exact opening_ofConcrete hg hlt
  case opening_of_element =>
    intro helement c hc
    obtain ⟨hmemc, hrolec⟩ := childIn?_spec hc
    obtain ⟨child, hchild, -, -, -, hkindc, hrole, -⟩ := hcopy.child hmemc
    rw [hkind] at helement
    have hne : sub.label.kind ≠ .attribute := by
      rw [helement]
      decide
    rw [hkindc]
    exact (ho.opening_first helement).1 child hchild ((hrole hne).symm.trans hrolec)
  case no_element_in_tag =>
    intro htag c hc
    obtain ⟨child, hchild, -, -, -, hkindc, -⟩ := hcopy.child hc
    rw [hkindc]
    exact ho.no_element_in_tag (hkind ▸ htag) child hchild
  case leaf =>
    intro hleaf d hd
    obtain ⟨child, hchild, -⟩ := hcopy.child (mem_children_ofConcrete hd)
    rw [ho.leaf (hkind ▸ hleaf)] at hchild
    exact absurd hchild List.not_mem_nil
  case quiet_string => exact fun hstring => hcopy.quiet hkind (ho.quiet_string (hkind ▸ hstring))
  case quiet_name =>
    intro hname c hc
    rw [hkind] at hname
    exact hcopy.quiet_name ho (fun child hchild =>
      hg.orderly child (Cst.mem_preorder_of_mem_children hmem hchild)) hname hc
  case attributes_first => exact fun htag _ hi => hcopy.attributes_first ho (hkind ▸ htag) hi

end Regular

/-- The tree of a grammatical concrete one is shaped. -/
theorem shaped_ofConcrete (source : List Char) (hg : tree.Grammatical) :
    (ofConcrete source tree).Shaped where
  toWellFormed := wellFormed_ofConcrete source tree
  kind_root := congrArg Node.kind (ofConcrete_spec source tree).2.1
  literal_root := congrArg Node.literal (ofConcrete_spec source tree).2.1
  regular := fun id => by
    rcases Nat.lt_or_ge id (ofConcrete source tree).size with hlt | hge
    · exact regular_ofConcrete hg hlt
    · have hother : (ofConcrete source tree).kind id = .other := by
        rw [kind, node_of_size_le _ hge]
        rfl
      constructor <;> simp [hother, NodeKind.isTag]

end SyntaxTree

end Restyle
