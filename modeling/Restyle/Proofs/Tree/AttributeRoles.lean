import Restyle.Change.ClassList
import Restyle.Proofs.Syntax.AttributeRow
import Restyle.Proofs.Tree.Portrait

/-!
The roles of the parts of an attribute.

* `Cst.ReadIn`, `Cst.readIn_of_reads`: a tree that is read in a source, as every tree is that the
  grammar reads;
* `slotted_assigned`: the child directly behind the equals sign gets the role of the value, whatever
  it is;
* `AttributeParts`, `AttributeRoles`: the children of an attribute and their roles;
* `exists_attributeRow`: the children of an attribute are those of a concrete one;
* `ofConcrete_attribute_roles`: the name is told apart always, and the value exactly if no comment
  stands directly behind the equals sign.
-/

namespace Restyle

namespace Syntax.Cst

/-- A tree is read in a source: it lies there, and the attributes are written as the grammar has
them. -/
structure ReadIn (source : List Char) (tree : Cst) : Prop extends tree.LaidOut source where
  attributes : ∀ sub ∈ tree.preorder, sub.label.kind = .attribute →
    AttributeRow source sub.children

/-- What the grammar reads at the start of a source is read in it. -/
lemma readIn_of_reads {reserved : String → Bool} {text rest : List Char} {tree : Cst}
    (h : Reads reserved none none (.the .program) 0 text rest [tree]) :
    tree.ReadIn (text ++ rest) where
  toLaidOut := laidOut_of_reads h
  attributes := fun sub hsub hkind =>
    (h.grown rfl (List.nil_append _).symm rfl sub (mem_preorderAll_singleton.mpr hsub)).attributeRow
      hkind

end Syntax.Cst

namespace SyntaxTree

open Syntax (Cst)

variable {source : List Char} {t : SyntaxTree} {tree tree' : Cst} {x : NodeId}

/-! ### The roles of a row -/

section Roles

variable {inAttribute seenNamed afterEquals : Bool} {children comments rest : List Cst}

lemma map_fst_slotted :
    (slotted inAttribute seenNamed afterEquals children).map Prod.fst = children := by
  induction children generalizing seenNamed afterEquals with
  | nil => rfl
  | cons child children ih => rw [slotted, List.map_cons, ih]

/-- Behind the name, named children get no role until an equals sign comes. -/
lemma slotted_named (hnamed : ∀ c ∈ comments, c.label.isNamed = true) :
    (slotted true true false (comments ++ rest)).map Prod.snd
      = List.replicate comments.length none ++ (slotted true true false rest).map Prod.snd := by
  induction comments with
  | nil => rfl
  | cons c comments ih =>
      obtain ⟨hc, hnamed⟩ := List.forall_mem_cons.mp hnamed
      have hnot : decide (c.label = .token "=") = false :=
        decide_eq_false fun h => by
          rw [h] at hc
          cases hc
      rw [List.cons_append, slotted, List.map_cons, hnot, Bool.true_or, ih hnamed,
        List.length_cons, List.replicate_succ, List.cons_append, slotRole, hc]
      rfl

/-- Directly behind the equals sign, a named child gets the role of the value, and those behind it
none. -/
lemma slotted_behind_equals {first : Cst} {more : List Cst} (hfirst : first.label.isNamed = true)
    (hmore : ∀ c ∈ more, c.label.isNamed = true) :
    (slotted true true true (first :: more)).map Prod.snd
      = some .value :: List.replicate more.length none := by
  have hnot : decide (first.label = .token "=") = false :=
    decide_eq_false fun h => by
      rw [h] at hfirst
      cases hfirst
  have hrest : (slotted true true false (more ++ [])).map Prod.snd = _ := slotted_named hmore
  rw [List.append_nil] at hrest
  rw [slotted, List.map_cons, hnot, Bool.true_or, hrest, slotRole, hfirst]
  simp [slotted]

lemma isNamed_of_isComment {c : Cst} (h : c.isComment = true) : c.label.isNamed = true := by
  rw [Cst.isComment, Bool.or_eq_true, decide_eq_true_eq, decide_eq_true_eq] at h
  obtain h | h := h
  all_goals
    rw [h]
    rfl

/-- The roles of the parts of an attribute that has a value. -/
lemma slotted_assigned {name equals value : Cst} {before after : List Cst}
    (hname : name.label.isNamed = true) (hbefore : ∀ c ∈ before, c.isComment = true)
    (hequals : equals.label = .token "=") (hrole : equals.role = none)
    (hafter : ∀ c ∈ after, c.isComment = true) (hvalue : value.label.isNamed = true) :
    (slotted true false false (name :: (before ++ equals :: (after ++ [value])))).map Prod.snd
      = some .name :: (List.replicate before.length none ++ none :: some .value
        :: List.replicate after.length none) := by
  have hnot : decide (name.label = .token "=") = false :=
    decide_eq_false fun h => by
      rw [h] at hname
      cases hname
  -- Behind the equals sign the first named child gets the value role, a comment as well as the
  -- value.
  have hsign : (slotted true true false (equals :: (after ++ [value]))).map Prod.snd
      = none :: some .value :: List.replicate after.length none := by
    have hbehind : (slotted true true true (after ++ [value])).map Prod.snd
        = some .value :: List.replicate after.length none := by
      cases after with
      | nil => exact slotted_behind_equals hvalue nofun
      | cons first more =>
          obtain ⟨hfirst, hmore⟩ := List.forall_mem_cons.mp hafter
          have hnamed : ∀ c ∈ more ++ [value], c.label.isNamed = true :=
            List.forall_mem_append.mpr ⟨fun c hc => isNamed_of_isComment (hmore c hc),
              List.forall_mem_singleton.mpr hvalue⟩
          rw [List.cons_append, slotted_behind_equals (isNamed_of_isComment hfirst) hnamed,
            List.length_append, List.length_singleton, List.length_cons]
    rw [slotted, List.map_cons, hequals, Bool.true_or, decide_eq_true rfl, hbehind, slotRole,
      hequals, hrole]
    rfl
  rw [slotted, List.map_cons, hnot, hname, Bool.or_true,
    slotted_named fun c hc => isNamed_of_isComment (hbefore c hc), hsign, slotRole, hname]
  rfl

end Roles

/-! ### The parts of an attribute -/

/-- The children of an attribute that has a value: its name, the equals sign and the value, with
comments on both sides of the sign. A comment of the older form has no kind of its own. -/
structure AttributeParts (t : SyntaxTree) (x name : NodeId) (before : List NodeId)
    (equals : NodeId) (after : List NodeId) (value : NodeId) : Prop where
  children_eq : t.children x = name :: (before ++ equals :: (after ++ [value]))
  comments : ∀ c ∈ before ++ after, t.kind c = .comment ∨ t.kind c = .other
  sign : t.kind equals = .token ∧ t.text equals = "="
  value_kind : t.kind value ≠ .comment ∧ t.kind value ≠ .token

/-- The roles of these children: the child directly behind the equals sign gets that of the value,
and a string is found only there. -/
structure AttributeRoles (t : SyntaxTree) (x name : NodeId) (before : List NodeId)
    (equals : NodeId) (after : List NodeId) (value : NodeId) : Prop
    extends t.AttributeParts x name before equals after value where
  roles_eq : (t.children x).map t.role
    = some .name :: (List.replicate before.length none ++ none :: some .value
      :: List.replicate after.length none)
  value_iff : t.role value = some .value ↔ after = []
  string_of_direct : after = [] → t.kind value = .stringLiteral →
    ∃ quote inner, t.stringValue? x = some (value, quote, inner)
  no_string : after ≠ [] → t.stringValue? x = none

namespace AttributeParts

variable {name equals value : NodeId} {before after : List NodeId}

/-- The roles of an attribute's parts tell what is taken for the value. -/
lemma childIn?_value (h : t.AttributeParts x name before equals after value)
    (hroles : (t.children x).map t.role
      = some .name :: (List.replicate before.length none ++ none :: some .value
        :: List.replicate after.length none)) :
    t.childIn? x .value = (after ++ [value]).head?
      ∧ (t.role value = some .value ↔ after = []) := by
  rw [h.children_eq, List.map_cons, List.cons.injEq, List.map_append] at hroles
  obtain ⟨hname, hroles⟩ := hroles
  obtain ⟨hbefore, hroles⟩ := List.append_inj hroles (by simp)
  rw [List.map_cons, List.cons.injEq] at hroles
  obtain ⟨hequals, hroles⟩ := hroles
  have hnone : ∀ c ∈ before, t.role c = none := fun c hc =>
    List.eq_of_mem_replicate (hbefore ▸ List.mem_map_of_mem hc)
  -- the value is looked for behind the sign, where the first of what stands there has the slot
  have hskip : t.childIn? x .value = (after ++ [value]).find? fun c => t.role c = some .value := by
    rw [childIn?, h.children_eq, List.find?_cons_of_neg (by simp [hname]), List.find?_append,
      List.find?_eq_none.mpr (fun c hc => by simp [hnone c hc]), Option.none_or,
      List.find?_cons_of_neg (by simp [hequals])]
  cases after with
  | nil =>
      have hvalue : t.role value = some .value := by simpa using hroles
      exact ⟨by rw [hskip, List.nil_append, List.find?_cons_of_pos (by simp [hvalue])]; rfl,
        iff_of_true hvalue rfl⟩
  | cons c more =>
      rw [List.cons_append, List.map_cons, List.cons.injEq] at hroles
      have hlast : t.role value = none := List.eq_of_mem_replicate
        (hroles.2 ▸ List.mem_map_of_mem (List.mem_append_right _ List.mem_cons_self))
      have hne : t.role value ≠ some .value := by
        rw [hlast]
        exact (Option.some_ne_none _).symm
      exact ⟨by rw [hskip, List.cons_append, List.find?_cons_of_pos (by simp [hroles.1])]; rfl,
        iff_of_false hne (List.cons_ne_nil _ _)⟩

/-- A comment behind the equals sign is no string. -/
lemma stringValue?_eq_none (h : t.AttributeParts x name before equals after value)
    (hchild : t.childIn? x .value = (after ++ [value]).head?) (hafter : after ≠ []) :
    t.stringValue? x = none := by
  obtain ⟨c, more, rfl⟩ := List.exists_cons_of_ne_nil hafter
  have hkind : t.kind c ≠ .stringLiteral := by
    obtain hc | hc := h.comments c (by simp)
    all_goals
      rw [hc]
      exact nofun
  rw [stringValue?, hchild, List.cons_append, List.head?_cons]
  simp only [quotation?, if_neg hkind, Option.map_none]

end AttributeParts

/-- What portrays comments is of a kind that comments have. -/
lemma kind_of_portrays {ids : List NodeId} {comments : List Cst}
    (h : List.Forall₂ (Portrays source t) ids comments)
    (hcomments : ∀ c ∈ comments, c.isComment = true) {y : NodeId} (hy : y ∈ ids) :
    t.kind y = .comment ∨ t.kind y = .other := by
  obtain ⟨c, hc, hkind, -⟩ := exists_of_forall₂ h hy
  have hcomment := hcomments c hc
  rw [Cst.isComment, Bool.or_eq_true, decide_eq_true_eq, decide_eq_true_eq] at hcomment
  rw [hkind]
  obtain hlabel | hlabel := hcomment
  · exact .inl (hlabel ▸ rfl)
  · exact .inr (hlabel ▸ rfl)

/-- Only comments and tokens have these kinds. -/
lemma kind_of_isNamed {c : Cst} (hnamed : c.label.isNamed = true) (hplain : c.isComment = false) :
    c.label.kind ≠ .comment ∧ c.label.kind ≠ .token := by
  rw [Cst.isComment, Bool.or_eq_false_iff, decide_eq_false_iff_not] at hplain
  cases hlabel : c.label with
  | token | missing =>
      rw [hlabel] at hnamed
      cases hnamed
  | named construct =>
      have hne : construct ≠ .comment := fun h => hplain.1 (hlabel.trans (congrArg _ h))
      clear hnamed hplain hlabel
      cases construct
      all_goals first
        | exact absurd rfl hne
        | decide

/-- The children of an attribute are those of a concrete one, and their roles follow from their
order. -/
lemma exists_attributeRow (hread : tree.ReadIn source)
    (hx : (ofConcrete source tree).kind x = .attribute) :
    ∃ children, Cst.AttributeRow source children
      ∧ List.Forall₂ (Portrays source (ofConcrete source tree))
        ((ofConcrete source tree).children x)
        children
      ∧ ((ofConcrete source tree).children x).map (ofConcrete source tree).role
        = (slotted true false false children).map Prod.snd := by
  have hlt : x < (ofConcrete source tree).size := by
    by_contra hge
    rw [kind, node_of_size_le _ (Nat.le_of_not_lt hge)] at hx
    cases hx
  -- The root is the program, so the node is the copy of a concrete tree below it.
  have hne : x ≠ root := by
    rintro rfl
    rw [kind, (ofConcrete_spec source tree).2.1] at hx
    cases hx
  obtain ⟨sub, hsub, role, hcopy⟩ := exists_copiedWith hread.toLaidOut hlt hne
  have hattribute : sub.label.kind = .attribute := hcopy.kind_eq ▸ hx
  have hslotted := hcopy.copies.slotted (hread.ordered sub hsub)
  rw [hattribute] at hslotted
  refine ⟨sub.children, hread.attributes sub hsub hattribute, ?_, ?_⟩
  · have hchildren : (slotted true false false sub.children).map Prod.fst = sub.children :=
      map_fst_slotted
    rw [← hchildren, List.forall₂_map_right_iff]
    exact hslotted.imp fun y c h => ⟨h.kind_eq, h.asRead_eq⟩
  · rw [← List.forall₂_eq_eq_eq, List.forall₂_map_left_iff, List.forall₂_map_right_iff]
    exact hslotted.imp fun y c h => h.role_eq

/-- The name of an attribute is told apart from its other parts, and so is its value, unless a
comment stands directly behind the equals sign: this is taken for the value then, and what is a
string is not seen as one. -/
theorem ofConcrete_attribute_roles (hread : tree.ReadIn source)
    (hx : (ofConcrete source tree).kind x = .attribute) :
    let t := ofConcrete source tree
    (∃ name, t.children x = [name] ∧ t.role name = some .name)
      ∨ ∃ name before equals after value, t.AttributeRoles x name before equals after value := by
  intro t
  obtain ⟨children, hrow, hportrays, hroles⟩ := exists_attributeRow hread hx
  cases hrow with
  | @bare name hname =>
      obtain ⟨n, ids, -, hids, heq⟩ := List.forall₂_cons_right_iff.mp hportrays
      rw [List.forall₂_nil_right_iff.mp hids] at heq
      rw [heq] at hroles
      refine .inl ⟨n, heq, ?_⟩
      simpa [slotted, slotRole, hname] using hroles
  | @assigned name equals value before after hname hbefore hequals hrole hspelled hafter hvalue
      hplain hquoted =>
      rw [slotted_assigned hname hbefore hequals hrole hafter hvalue] at hroles
      -- The nodes are taken apart as the row is: name, comments, equals sign, comments, value.
      obtain ⟨n, _, -, hids₁, heq⟩ := List.forall₂_cons_right_iff.mp hportrays
      obtain ⟨b, _, rfl, hb, hids₂⟩ := exists_append_of_forall₂ hids₁
      obtain ⟨e, _, he, hids₃, rfl⟩ := List.forall₂_cons_right_iff.mp hids₂
      obtain ⟨a, _, rfl, ha, hids₄⟩ := exists_append_of_forall₂ hids₃
      obtain ⟨v, _, hv, hids₅, rfl⟩ := List.forall₂_cons_right_iff.mp hids₄
      obtain rfl := List.forall₂_nil_right_iff.mp hids₅
      have hparts : t.AttributeParts x n b e a v :=
        ⟨heq, fun c hc => (List.mem_append.mp hc).elim (kind_of_portrays hb hbefore)
          (kind_of_portrays ha hafter), ⟨by rw [he.1, hequals]; rfl, by rw [he.text_eq, hspelled]⟩,
          by rw [hv.1]; exact kind_of_isNamed hvalue hplain⟩
      rw [← hb.length_eq, ← ha.length_eq] at hroles
      obtain ⟨hchild, hiff⟩ := hparts.childIn?_value hroles
      refine .inr ⟨n, b, e, a, v, hparts, hroles, hiff, fun hnil hstring => ?_,
        hparts.stringValue?_eq_none hchild⟩
      obtain ⟨⟨quote, inner⟩, hquote⟩ := Option.isSome_iff_exists.mp (hquoted (hv.1 ▸ hstring))
      refine ⟨quote, inner, ?_⟩
      rw [stringValue?, hchild, hnil, List.nil_append, List.head?_cons]
      simp only [quotation?]
      rw [if_pos hstring, hv.text_eq, hquote, Option.map_some]

/-! ### A comment on either side of the sign -/

/-- The concrete tree of a module that is a tag of fourteen characters with one attribute. -/
def tagWith (parts : List Cst) : Cst :=
  .node (.named .program) none 0 14
    [.node (.named .expressionStatement) none 0 14
      [.node (.named .selfClosingElement) none 0 14
        [.node (.token "<") none 0 1 [], .node (.named .identifier) (some .name) 1 2 [],
          .node (.named .attribute) (some .attribute) 3 12 parts,
          .node (.token "/>") none 12 14 []]]]

/-- `<a x/**/='b'/>` -/
def commentBefore : Cst :=
  tagWith [.node (.named .propertyName) none 3 4 [], .node (.named .comment) none 4 8 [],
    .node (.token "=") none 8 9 [], .node (.named .string) none 9 12 []]

/-- `<a x=/**/'b'/>` -/
def commentBehind : Cst :=
  tagWith [.node (.named .propertyName) none 3 4 [], .node (.token "=") none 4 5 [],
    .node (.named .comment) none 5 9 [], .node (.named .string) none 9 12 []]

/-- The only attribute of such a tag has these parts. -/
lemma readIn_tagWith {parts : List Cst} (hstop : source.length = 14)
    (hordered : ∀ sub ∈ (tagWith parts).preorder, Cst.Ordered sub.stop sub.start sub.children)
    (hparts : ∀ sub ∈ Cst.preorderAll parts, sub.label.kind ≠ .attribute)
    (hrow : Cst.AttributeRow source parts) : (tagWith parts).ReadIn source := by
  refine ⟨⟨hstop.ge, hordered⟩, fun sub hsub hkind => ?_⟩
  simp only [tagWith, Cst.preorder, Cst.preorderAll, List.append_nil, List.cons_append,
    List.nil_append, List.mem_cons, List.mem_append, List.not_mem_nil, or_false] at hsub
  rcases hsub with rfl | rfl | rfl | rfl | rfl | rfl | hsub | rfl
  case inr.inr.inr.inr.inr.inl => exact hrow
  case inr.inr.inr.inr.inr.inr.inl => exact absurd hkind (hparts sub hsub)
  all_goals cases hkind

lemma readIn_commentBefore : commentBefore.ReadIn "<a x/**/='b'/>".toList := by
  have hrow : Cst.AttributeRow "<a x/**/='b'/>".toList
      (.node (.named .propertyName) none 3 4 [] :: ([.node (.named .comment) none 4 8 []]
        ++ .node (.token "=") none 8 9 [] :: ([] ++ [.node (.named .string) none 9 12 []]))) :=
    .assigned rfl (by decide) rfl rfl rfl nofun rfl rfl fun _ => rfl
  exact readIn_tagWith rfl (by decide +kernel) (by decide +kernel) hrow

/-- A comment in front of the sign changes nothing. -/
theorem attribute_roles_commentBefore :
    let t := ofConcrete "<a x/**/='b'/>".toList commentBefore
    commentBefore.ReadIn "<a x/**/='b'/>".toList ∧ t.kind 5 = .attribute
      ∧ ((∃ name, t.children 5 = [name] ∧ t.role name = some .name)
        ∨ ∃ name before equals after value, t.AttributeRoles 5 name before equals after value) :=
  have hkind : (ofConcrete "<a x/**/='b'/>".toList commentBefore).kind 5 = .attribute := by
    decide +kernel
  ⟨readIn_commentBefore, hkind, ofConcrete_attribute_roles readIn_commentBefore hkind⟩

lemma readIn_commentBehind : commentBehind.ReadIn "<a x=/**/'b'/>".toList := by
  have hrow : Cst.AttributeRow "<a x=/**/'b'/>".toList
      (.node (.named .propertyName) none 3 4 [] :: ([] ++ .node (.token "=") none 4 5 []
        :: ([.node (.named .comment) none 5 9 []] ++ [.node (.named .string) none 9 12 []]))) :=
    .assigned rfl nofun rfl rfl rfl (by decide) rfl rfl fun _ => rfl
  exact readIn_tagWith rfl (by decide +kernel) (by decide +kernel) hrow

/-- A comment directly behind the sign is taken for the value, so that no class is added to the
string. -/
theorem attribute_roles_commentBehind :
    let t := ofConcrete "<a x=/**/'b'/>".toList commentBehind
    commentBehind.ReadIn "<a x=/**/'b'/>".toList
      ∧ t.children 5 = [6, 7, 8, 9] ∧ t.kind 8 = .comment ∧ t.text 9 = "'b'"
      ∧ t.role 8 = some .value ∧ t.role 9 = none
      ∧ (t.addClass 5 "c").1 = .unsupportedAttributeForm :=
  ⟨readIn_commentBehind, by decide +kernel, by decide +kernel, by decide +kernel,
    by decide +kernel, by decide +kernel, by decide +kernel⟩

end SyntaxTree

end Restyle
