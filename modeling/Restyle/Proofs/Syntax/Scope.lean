import Restyle.Proofs.Syntax.Nesting

/-!
What a rule can read, told from what it refers to.

* `Scope`, `Rule.isWithin`: constructs, spellings and slots, and the rules that refer to no others;
* `Reads.forall_trees`, `Reads.forall_nodes`: what holds of the leaves and is handed up holds of all
  trees that a rule within a scope reads, and what holds of each node as it is read holds of all
  nodes;
* `Reads.tops`, `Reads.labels`: the labels of the trees that are read, and those of all nodes in
  them;
* `Scope.of`, `Scope.without`: some constructs, and all but some;
* `Grown`, `Reads.grown`: every node that is read is a leaf or came from the rule of a construct.
-/

namespace Restyle.Syntax

open Grammar Cst

variable {reserved : String → Bool} {name : Option Construct} {role : Option Role} {r : Rule}
  {place : Nat} {source front text rest : List Char} {trees : List Cst} {c : Construct}

/-! ### Rules within a scope -/

/-- What rules may refer to: constructs and spellings, with the name that these show under, and
slots. -/
structure Scope where
  construct : Option Construct → Construct → Bool
  spelling : Option Construct → Bool
  slot : Role → Bool

/-- Whether a rule, read under a name, refers to nothing outside a scope. -/
def Rule.isWithin (s : Scope) (name : Option Construct) : Rule → Bool
  | .blank => true
  | .spelled _ => s.spelling name
  | .the c => s.construct name c
  | .seq r r' | .alt r r' => r.isWithin s name && r'.isWithin s name
  | .many r | .bound _ _ r | .weighed _ r => r.isWithin s name
  | .shown c r => r.isWithin s (name <|> some c)
  | .slot role r => s.slot role && r.isWithin s name

/-- The name that a construct hands down to its rule. -/
def handedDown (name : Option Construct) (c : Construct) : Option Construct :=
  if isInlined c then name else none

/-- Whether a construct never shows. -/
def isPassedOver (c : Construct) : Bool :=
  isInlined c || c.isHidden

/-- With a construct that is entered, a scope holds what its rule refers to. All constructs are
entered that do not show. -/
structure Scope.Closed (s : Scope) (enters : Construct → Bool) : Prop where
  rule : ∀ name c, s.construct name c = true → enters c = true → ∀ r, rule? c = some r →
    r.isWithin s (handedDown name c) = true
  hidden : ∀ c, isPassedOver c = true → enters c = true

/-! ### Comments -/

/-- The trees of layout are comments without children or roles. -/
lemma Layout.eq_comment (h : Layout place text rest trees) :
    ∀ t ∈ trees, ∃ start stop, t = .node (.named .comment) none start stop [] := by
  induction h with
  | nothing => exact fun t ht => nomatch ht
  | blank _ _ ih => exact ih
  | comment _ _ ih => exact List.forall_mem_cons.mpr ⟨⟨_, _, rfl⟩, ih⟩

/-- The names under which a rule shows what it reads. -/
def Rule.names : Rule → List Construct
  | .blank | .spelled _ | .the _ => []
  | .seq r s | .alt r s => r.names ++ s.names
  | .many r | .bound _ _ r | .weighed _ r | .slot _ r => r.names
  | .shown c r => c :: r.names

/-- A token is labelled by the name it is read under, or by its own construct. -/
lemma tokenLabel_eq_named {c' : Construct} (h : tokenLabel name c = .named c') :
    name = some c' ∨ name = none ∧ c = c' := by
  cases name with
  | some name => exact .inl (congrArg some (Label.named.inj h))
  | none =>
      unfold tokenLabel at h
      split at h
      · next heq => cases heq
      · cases h
      · cases h
      · exact .inr ⟨rfl, Label.named.inj h⟩

/-- No rule reads anything under the name of a comment. -/
lemma comment_not_mem_names (hrule : rule? c = some r) : .comment ∉ r.names := by
  have hnone : ((rule? c).all fun r => decide (.comment ∉ r.names)) = true := by
    cases c
    all_goals rfl
  rw [hrule] at hnone
  exact of_decide_eq_true hnone

/-- What shows as a comment is one that stood between two tokens. -/
lemma Reads.eq_comment (h : Reads reserved name role r place text rest trees)
    (hname : name ≠ some .comment) (hr : .comment ∉ r.names) :
    ∀ t ∈ trees, t.label = .named .comment →
      ∃ start stop, t = .node (.named .comment) none start stop [] := by
  -- a comment is read as layout only: no rule shows anything under that name, and a token of that
  -- name has no scan
  induction h with
  | blank => exact fun t ht => nomatch ht
  | semicolon hlayout _ _ => exact fun t ht _ => hlayout.eq_comment t ht
  | signature hlayout _ _ => exact fun t ht _ => hlayout.eq_comment t ht
  | @spelled name _ _ _ _ _ _ hlayout _ =>
      intro t ht hlabel
      rcases List.mem_append.mp ht with ht | ht
      · exact hlayout.eq_comment t ht
      · rw [List.mem_singleton] at ht
        subst ht
        cases name with
        | none => cases hlabel
        | some c => exact absurd (congrArg some (Label.named.inj hlabel)) hname
  | @token name _ c _ _ _ _ _ _ _ hscan hlayout _ _ =>
      intro t ht hlabel
      rcases List.mem_append.mp ht with ht | ht
      · exact hlayout.eq_comment t ht
      · rw [List.mem_singleton] at ht
        subst ht
        rcases tokenLabel_eq_named hlabel with rfl | ⟨-, rfl⟩
        · exact absurd rfl hname
        · cases hscan
  | opens hrule _ _ ih => exact ih hname (comment_not_mem_names hrule)
  | hides hrule _ _ _ ih => exact ih nofun (comment_not_mem_names hrule)
  | @shows name _ c _ _ _ _ comments _ hrule _ _ _ hcomments _ ih =>
      intro t ht hlabel
      rcases List.mem_append.mp ht with ht | ht
      · exact ih nofun (comment_not_mem_names hrule) t (List.mem_append_left _ ht) hlabel
      · rw [List.mem_singleton] at ht
        subst ht
        cases name with
        | some c => exact absurd (congrArg some (Label.named.inj hlabel)) hname
        | none =>
            obtain rfl : c = .comment := Label.named.inj hlabel
            cases hrule
  | seq _ _ ih ih' =>
      rw [Rule.names, List.mem_append, not_or] at hr
      intro t ht
      exact (List.mem_append.mp ht).elim (ih hname hr.1 t) (ih' hname hr.2 t)
  | first _ ih => exact ih hname fun h => hr (List.mem_append_left _ h)
  | second _ ih => exact ih hname fun h => hr (List.mem_append_right _ h)
  | once _ ih => exact ih hname hr
  | again _ _ ih ih' =>
      intro t ht
      exact (List.mem_append.mp ht).elim (ih hname hr t) (ih' hname hr t)
  | bound _ ih => exact ih hname hr
  | weighed _ ih => exact ih hname hr
  | @shown name _ c _ _ _ _ _ _ ih =>
      rw [Rule.names, List.mem_cons, not_or] at hr
      refine ih ?_ hr.2
      cases name with
      | none => exact fun h => hr.1 (Option.some.inj h).symm
      | some c' => exact hname
  | slot _ ih => exact ih hname hr

/-! ### All trees that are read -/

lemma mem_preorderAll {sub : Cst} : sub ∈ preorderAll trees ↔ ∃ t ∈ trees, sub ∈ t.preorder := by
  induction trees with
  | nil => simp [preorderAll]
  | cons t trees ih => rw [preorderAll, List.mem_append, ih, List.exists_mem_cons_iff]

/-- The rule of a construct reads these children in a source, behind comments. -/
structure ReadBy (reserved : String → Bool) (source : List Char) (c : Construct) (r : Rule)
    (children : List Cst) : Prop where
  rule_eq : rule? c = some r
  shows : isInlined c = false
  exists_reads : ∃ comments front text rest, source = front ++ (text ++ rest)
    ∧ Reads reserved none none r front.length text rest (comments ++ children)
    ∧ (∀ t ∈ comments, t.label = .named .comment)
    ∧ ∀ t ∈ children.head?, t.label ≠ .named .comment

/-- The two pieces of a text stand in the source one behind the other. -/
lemma sources_of_append {more : List Char}
    (hsource : source = front ++ ((text ++ more) ++ rest)) (hplace : front.length = place) :
    source = front ++ (text ++ (more ++ rest))
      ∧ source = (front ++ text) ++ (more ++ rest)
      ∧ (front ++ text).length = place + text.length := by
  refine ⟨?_, ?_, ?_⟩
  · rw [hsource, List.append_assoc]
  · rw [hsource]
    simp only [List.append_assoc]
  · rw [List.length_append, hplace]

/-- What holds of comments and of all leaves in a scope, and of every node whose construct is in the
scope once it holds of the children, holds of all trees that a rule within the scope reads. -/
theorem Reads.forall_trees {s : Scope} {enters : Construct → Bool} {P : Cst → Prop}
    (hs : s.Closed enters)
    (hcomment : ∀ start stop, P (.node (.named .comment) none start stop []))
    (hspelling : ∀ name spelling role start stop, s.spelling name = true →
      (∀ own ∈ role, s.slot own = true) →
      P (.node ((name.map Label.named).getD (.token spelling)) role start stop []))
    (htoken : ∀ name c role start stop, s.construct name c = true → rule? c = none →
      (∀ own ∈ role, s.slot own = true) → P (.node (tokenLabel name c) role start stop []))
    (hshown : ∀ name c r role start stop children, s.construct name c = true →
      (∀ own ∈ role, s.slot own = true) → ReadBy reserved source c r children →
      (enters c = true → ∀ t ∈ children, P t) →
      P (.node (.named (name.getD c)) role start stop children))
    (h : Reads reserved name role r place text rest trees) (hr : r.isWithin s name = true)
    (hrole : ∀ own ∈ role, s.slot own = true) (hsource : source = front ++ (text ++ rest))
    (hplace : front.length = place) : ∀ t ∈ trees, P t := by
  have hlayout : ∀ {place text rest trees}, Layout place text rest trees → ∀ t ∈ trees, P t := by
    intro _ _ _ _ h t ht
    obtain ⟨start, stop, rfl⟩ := h.eq_comment t ht
    exact hcomment start stop
  -- on how the rule reads; `front` grows with the parts, so that every node is read in the one
  -- source
  induction h generalizing front with
  | blank => exact fun t ht => nomatch ht
  | semicolon h _ _ => exact hlayout h
  | signature h _ _ => exact hlayout h
  | spelled h _ =>
      exact List.forall_mem_append.mpr ⟨hlayout h, List.forall_mem_singleton.mpr
        (hspelling _ _ _ _ _ hr hrole)⟩
  | @token name _ c _ _ _ _ _ _ _ hscan h _ _ =>
      exact List.forall_mem_append.mpr ⟨hlayout h, List.forall_mem_singleton.mpr
        (htoken _ _ _ _ _ hr (rule?_eq_none hscan) hrole)⟩
  | @opens name _ c _ _ _ _ _ hrule hinlined _ ih =>
      have hwithin := hs.rule name c hr (hs.hidden c (by rw [isPassedOver, hinlined]; rfl)) _ hrule
      rw [handedDown, if_pos hinlined] at hwithin
      exact ih hwithin hrole hsource hplace
  | @hides _ c _ _ _ _ _ hrule hnot hhidden _ ih =>
      have hwithin := hs.rule none c hr
        (hs.hidden c (by rw [isPassedOver, hhidden, Bool.or_true])) _ hrule
      rw [handedDown, hnot, if_neg Bool.false_ne_true] at hwithin
      exact ih hwithin hrole hsource hplace
  | @shows name role c r place text rest comments children hrule hnot _ h hcomments hhead ih =>
      have hread : ReadBy reserved source c r children :=
        ⟨hrule, hnot, comments, front, text, rest, hsource, hplace.symm ▸ h, hcomments, hhead⟩
      refine List.forall_mem_append.mpr ⟨fun t ht => ?_, List.forall_mem_singleton.mpr
        (hshown _ _ _ _ _ _ _ hr hrole hread fun henters t ht => ?_)⟩
      · obtain ⟨start, stop, rfl⟩ := h.eq_comment nofun (comment_not_mem_names hrule) t
          (List.mem_append_left _ ht) (hcomments t ht)
        exact hcomment start stop
      · have hwithin := hs.rule name c hr henters r hrule
        rw [handedDown, hnot, if_neg Bool.false_ne_true] at hwithin
        exact ih hwithin nofun hsource hplace t (List.mem_append_right _ ht)
  | seq _ _ ih ih' =>
      rw [Rule.isWithin, Bool.and_eq_true] at hr
      obtain ⟨hfirst, hsecond⟩ := sources_of_append hsource hplace
      exact List.forall_mem_append.mpr ⟨ih hr.1 hrole hfirst hplace,
        ih' hr.2 hrole hsecond.1 hsecond.2⟩
  | first _ ih =>
      rw [Rule.isWithin, Bool.and_eq_true] at hr
      exact ih hr.1 hrole hsource hplace
  | second _ ih =>
      rw [Rule.isWithin, Bool.and_eq_true] at hr
      exact ih hr.2 hrole hsource hplace
  | once _ ih => exact ih hr hrole hsource hplace
  | again _ _ ih ih' =>
      obtain ⟨hfirst, hsecond⟩ := sources_of_append hsource hplace
      exact List.forall_mem_append.mpr ⟨ih hr hrole hfirst hplace,
        ih' hr hrole hsecond.1 hsecond.2⟩
  | bound _ ih => exact ih hr hrole hsource hplace
  | weighed _ ih => exact ih hr hrole hsource hplace
  | shown _ ih => exact ih hr hrole hsource hplace
  | slot _ ih =>
      rw [Rule.isWithin, Bool.and_eq_true] at hr
      refine ih hr.2 (fun own hown => ?_) hsource hplace
      rw [Option.mem_some] at hown
      exact hown ▸ hr.1

/-- What holds of all leaves in a scope, and of every node whose construct is in the scope, holds of
all nodes that a rule within the scope reads. -/
theorem Reads.forall_nodes {s : Scope} {P : Cst → Prop} (hs : s.Closed fun _ => true)
    (hcomment : ∀ start stop, P (.node (.named .comment) none start stop []))
    (hspelling : ∀ name spelling role start stop, s.spelling name = true →
      P (.node ((name.map Label.named).getD (.token spelling)) role start stop []))
    (htoken : ∀ name c role start stop, s.construct name c = true → rule? c = none →
      P (.node (tokenLabel name c) role start stop []))
    (hshown : ∀ name c r role start stop children, s.construct name c = true →
      ReadBy reserved source c r children →
      P (.node (.named (name.getD c)) role start stop children))
    (h : Reads reserved name role r place text rest trees) (hr : r.isWithin s name = true)
    (hrole : ∀ own ∈ role, s.slot own = true) (hsource : source = front ++ (text ++ rest))
    (hplace : front.length = place) : ∀ sub ∈ preorderAll trees, P sub := by
  have hleaf : ∀ {label : Label} {role : Option Role} {start stop : Nat},
      P (.node label role start stop []) →
      ∀ sub ∈ (Cst.node label role start stop []).preorder, P sub := by
    intro label role start stop hnode sub hsub
    rw [preorder, preorderAll, List.mem_singleton] at hsub
    exact hsub ▸ hnode
  have hall := h.forall_trees (P := fun t => ∀ sub ∈ t.preorder, P sub) hs
    (fun _ _ => hleaf (hcomment _ _))
    (fun _ _ _ _ _ hname _ => hleaf (hspelling _ _ _ _ _ hname))
    (fun _ _ _ _ _ hname hnone _ => hleaf (htoken _ _ _ _ _ hname hnone)) ?shown hr hrole hsource
    hplace
  -- The node itself is in scope, and its children were read by its rule.
  case shown =>
    intro name c r role start stop children hname _ hread hchildren sub hsub
    rw [preorder, List.mem_cons] at hsub
    rcases hsub with rfl | hsub
    · exact hshown name c r role start stop children hname hread
    · obtain ⟨t, ht, hsub⟩ := mem_preorderAll.mp hsub
      exact hchildren rfl t ht sub hsub
  intro sub hsub
  obtain ⟨t, ht, hsub⟩ := mem_preorderAll.mp hsub
  exact hall t ht sub hsub

/-! ### Labels -/

/-- The constructs that have a kind for themselves. -/
def singular : List Construct :=
  [.program, .element, .selfClosingElement, .openingTag, .attribute, .string, .object, .text]

/-- A construct that alone has its kind is known by the kind. -/
lemma Label.eq_of_kind {label : Label} {c : Construct} (hc : c ∈ singular)
    (h : label.kind = c.kind) : label = .named c := by
  have hkinds : ∀ c', ∀ c ∈ singular, c'.kind = c.kind → c' = c := fun c' => by
    cases c'
    all_goals decide
  have htoken : ∀ c ∈ singular, c.kind ≠ .token := by decide
  cases label with
  | named c' => exact congrArg _ (hkinds c' c hc h)
  | token | missing => exact absurd h.symm (htoken c hc)

/-- What is read within a scope has labels of a kind. -/
structure Scope.Admits (s : Scope) (L : Label → Prop) : Prop where
  comment : L (.named .comment)
  spelling : ∀ name spelling, s.spelling name = true →
    L ((name.map Label.named).getD (.token spelling))
  token : ∀ name c, s.construct name c = true → L (tokenLabel name c)
  node : ∀ name c, s.construct name c = true → L (.named (name.getD c))

/-- The labels and slots of the trees that a rule within a scope reads. -/
theorem Reads.tops {s : Scope} {L : Label → Prop}
    (h : Reads reserved name role r place text rest trees) (hs : s.Closed isPassedOver)
    (hL : s.Admits L) (hr : r.isWithin s name = true) (hrole : ∀ own ∈ role, s.slot own = true) :
    ∀ t ∈ trees, L t.label ∧ ∀ own ∈ t.role, s.slot own = true := by
  -- labels do not depend on the source, so what stands in front may be anything
  have hplace : (List.replicate place ' ').length = place := List.length_replicate
  exact h.forall_trees (P := fun t => L t.label ∧ ∀ own ∈ t.role, s.slot own = true) hs
    (fun _ _ => ⟨hL.comment, nofun⟩)
    (fun _ _ _ _ _ hname hrole => ⟨hL.spelling _ _ hname, hrole⟩)
    (fun _ _ _ _ _ hname _ hrole => ⟨hL.token _ _ hname, hrole⟩)
    (fun _ _ _ _ _ _ _ hname hrole _ _ => ⟨hL.node _ _ hname, hrole⟩) hr hrole rfl hplace

/-- The labels of all nodes that a rule within a scope reads. -/
theorem Reads.labels {s : Scope} {L : Label → Prop}
    (h : Reads reserved name role r place text rest trees) (hs : s.Closed fun _ => true)
    (hL : s.Admits L) (hr : r.isWithin s name = true) (hrole : ∀ own ∈ role, s.slot own = true) :
    ∀ sub ∈ preorderAll trees, L sub.label := by
  have hplace : (List.replicate place ' ').length = place := List.length_replicate
  exact h.forall_nodes (P := fun t => L t.label) hs (fun _ _ => hL.comment)
    (fun _ _ _ _ _ hname => hL.spelling _ _ hname)
    (fun _ _ _ _ _ hname _ => hL.token _ _ hname)
    (fun _ _ _ _ _ _ _ hname _ => hL.node _ _ hname) hr hrole rfl hplace

/-- The scope of some constructs, under their own names and others. -/
def Scope.of (constructs names : List Construct) (spelled : Bool) (slots : List Role) : Scope where
  construct name c := constructs.contains c && name.all names.contains
  spelling name := spelled && name.all names.contains
  slot := slots.contains

/-- Whether the rules of the entered constructs stay within such a scope. -/
def Scope.closes (constructs names : List Construct) (spelled : Bool) (slots : List Role)
    (enters : Construct → Bool) : Bool :=
  constructs.all fun c => !enters c || (none :: names.map some).all fun name =>
    (rule? c).all fun r => r.isWithin (.of constructs names spelled slots) (handedDown name c)

section Of

variable {constructs names : List Construct} {spelled : Bool} {slots : List Role}

/-- A scope given by lists is closed if the check on them says so. -/
lemma Scope.of_closed {enters : Construct → Bool}
    (h : Scope.closes constructs names spelled slots enters = true)
    (hhidden : ∀ c, isPassedOver c = true → enters c = true) :
    (Scope.of constructs names spelled slots).Closed enters where
  rule := fun name c hc henters r hrule => by
    simp only [Scope.of, Bool.and_eq_true, List.contains_iff_mem] at hc
    have hall := List.all_eq_true.mp h c hc.1
    rw [henters, Bool.not_true, Bool.false_or] at hall
    have hname : name ∈ none :: names.map some := by
      cases name with
      | none => exact List.mem_cons_self
      | some name =>
          refine List.mem_cons_of_mem _ (List.mem_map_of_mem ?_)
          exact List.contains_iff_mem.mp hc.2
    have := List.all_eq_true.mp hall name hname
    rwa [hrule] at this
  hidden := hhidden

/-- A scope given by lists admits what holds of their labels. -/
lemma Scope.of_admits {L : Label → Prop}
    (h : ∀ c ∈ .comment :: (constructs ++ names), L (.named c))
    (htoken : ∀ c ∈ constructs, tokenLabel none c = .named c)
    (hspelled : spelled = true → ∀ spelling, L (.token spelling)) :
    (Scope.of constructs names spelled slots).Admits L := by
  have hname : ∀ name c, (Scope.of constructs names spelled slots).construct name c = true →
      L (.named (name.getD c)) ∧ tokenLabel name c = .named (name.getD c) := fun name c hc => by
    simp only [Scope.of, Bool.and_eq_true, List.contains_iff_mem] at hc
    cases name with
    | none => exact ⟨h c (by simp [hc.1]), htoken c hc.1⟩
    | some name =>
        have hmem : name ∈ names := List.contains_iff_mem.mp hc.2
        exact ⟨h name (by simp [hmem]), rfl⟩
  refine ⟨h _ List.mem_cons_self, fun name spelling hs => ?_, fun name c hc => ?_,
    fun name c hc => (hname name c hc).1⟩
  · simp only [Scope.of, Bool.and_eq_true] at hs
    cases name with
    | none => exact hspelled hs.1 spelling
    | some name =>
        have hmem : name ∈ names := List.contains_iff_mem.mp hs.2
        exact h name (by simp [hmem])
  · rw [(hname name c hc).2]
    exact (hname name c hc).1

end Of

/-- The scope of everything but some constructs. -/
def Scope.without (constructs : List Construct) : Scope where
  construct name c := !constructs.contains c && name.all fun name => !constructs.contains name
  spelling name := name.all fun name => !constructs.contains name
  slot _ := true

/-- A scope that leaves constructs out has none of their labels. -/
lemma Scope.without_admits {constructs : List Construct} (h : .comment ∉ constructs) :
    (Scope.without constructs).Admits fun label => ∀ c ∈ constructs, label ≠ .named c := by
  have hname : ∀ name : Option Construct, (name.all fun name => !constructs.contains name) = true →
      ∀ c ∈ constructs, name ≠ some c := by
    rintro _ hname c hc rfl
    rw [Option.all_some, Bool.not_eq_true', List.contains_eq_mem, decide_eq_false_iff_not] at hname
    exact hname hc
  have hboth : ∀ name c, (Scope.without constructs).construct name c = true →
      c ∉ constructs ∧ ∀ c ∈ constructs, name ≠ some c := fun name c hc => by
    simp only [Scope.without, Bool.and_eq_true, Bool.not_eq_true', List.contains_eq_mem,
      decide_eq_false_iff_not] at hc
    exact ⟨hc.1, hname name (by simpa only [List.contains_eq_mem] using hc.2)⟩
  constructor
  case comment =>
    intro c hc heq
    exact h (Label.named.inj heq ▸ hc)
  case spelling =>
    intro name spelling hs c hc heq
    cases name with
    | none => cases heq
    | some name =>
        exact hname (some name) hs c hc (congrArg some (Label.named.inj heq))
  -- A token is labelled by the name it is read under, and that is left out too.
  case token =>
    intro name c' hc' c hc heq
    rcases tokenLabel_eq_named heq with rfl | ⟨-, rfl⟩
    · exact (hboth _ _ hc').2 c hc rfl
    · exact (hboth _ _ hc').1 hc
  case node =>
    intro name c' hc' c hc heq
    cases name with
    | none =>
        obtain rfl : c' = c := Label.named.inj heq
        exact (hboth _ _ hc').1 hc
    | some name => exact (hboth _ _ hc').2 c hc (congrArg some (Label.named.inj heq))

/-- A name from outside is as good as any. -/
lemma Rule.isWithin_without {constructs : List Construct} {own : Construct}
    (hown : own ∉ constructs) (h : r.isWithin (.without constructs) name = true) :
    r.isWithin (.without constructs) (some own) = true := by
  induction r generalizing name with
  | blank => rfl
  | spelled => simpa [Rule.isWithin, Scope.without] using hown
  | the c =>
      simp only [Rule.isWithin, Scope.without, Bool.and_eq_true] at h ⊢
      exact ⟨h.1, by simpa using hown⟩
  | seq r r' ih ih' | alt r r' ih ih' =>
      rw [Rule.isWithin, Bool.and_eq_true] at h ⊢
      exact ⟨ih h.1, ih' h.2⟩
  | many r ih | bound _ _ r ih | weighed _ r ih => exact ih h
  | shown c r ih => exact ih h
  | slot role r ih =>
      rw [Rule.isWithin, Bool.and_eq_true] at h ⊢
      exact ⟨h.1, ih h.2⟩

/-- Such a scope is closed if the constructs that never show refer to none of those left out. -/
lemma Scope.without_closed {constructs : List Construct}
    (h : ∀ c, (constructs.contains c || !isPassedOver c
      || (rule? c).all fun r => r.isWithin (.without constructs) none) = true) :
    (Scope.without constructs).Closed isPassedOver where
  rule := fun name c hc hpassed r hrule => by
    simp only [Scope.without, Bool.and_eq_true, Bool.not_eq_true'] at hc
    have hwithin := h c
    rw [hc.1, hpassed, hrule, Bool.not_true, Bool.false_or, Bool.false_or,
      Option.all_some] at hwithin
    rw [handedDown]
    cases name with
    | none =>
        split
        · exact hwithin
        · exact hwithin
    | some own =>
        split
        · exact Rule.isWithin_without (by simpa using hc.2) hwithin
        · exact hwithin
  hidden := fun _ h => h

/-! ### Nodes of all trees that are read -/

/-- The constructs that show under another name, behind that. -/
def aliases : List (Construct × Construct) :=
  [(.labelName, .identifier), (.labelName, .reservedIdentifier),
    (.identifier, .reservedIdentifier), (.identifier, .dashedName), (.identifier, .predefinedType),
    (.shorthandName, .identifier), (.shorthandName, .reservedIdentifier),
    (.shorthandPattern, .identifier), (.shorthandPattern, .reservedIdentifier),
    (.propertyName, .identifier), (.propertyName, .anyMarkupName), (.propertyName, .dashedName),
    (.propertyName, .reservedIdentifier), (.typeName, .identifier),
    (.string, .markupString), (.stringFragment, .doubleMarkupFragment),
    (.stringFragment, .singleMarkupFragment), (.stringFragment, .doubleFragment),
    (.stringFragment, .singleFragment), (.stringFragment, .templateChars),
    (.member, .nestedIdentifier), (.member, .decoratorMember), (.member, .importedMember),
    (.member, .queriedMember), (.call, .decoratorCall), (.call, .importedCall),
    (.call, .queriedCall), (.subscript, .queriedSubscript), (.instantiation, .queriedInstantiation),
    (.parenthesizedExpression, .decoratorParenthesized), (.unaryExpression, .signedNumber),
    (.requiredParameter, .tupleParameter), (.optionalParameter, .optionalTupleParameter),
    (.interfaceBody, .objectType), (.thisType, .thisExpression)]

/-- All that the grammar refers to. -/
def Scope.whole : Scope where
  construct name c := name.all fun name => aliases.contains (name, c)
  spelling name := name.all fun name => (rule? name).isNone
  slot _ := true

/-- The scope of everything is closed. -/
lemma Scope.whole_closed : Scope.whole.Closed fun _ => true where
  rule := fun name c hc _ r hrule => by
    cases name with
    | none =>
        have hwithin : ((rule? c).all fun r => r.isWithin .whole (handedDown none c)) = true := by
          cases c
          all_goals rfl
        rwa [hrule] at hwithin
    | some name =>
        have hwithin : ∀ p ∈ aliases,
            ((rule? p.2).all fun r => r.isWithin .whole (handedDown (some p.1) p.2)) = true := by
          decide
        have := hwithin (name, c) (List.contains_iff_mem.mp hc)
        rwa [hrule] at this
  hidden := fun _ _ => rfl

lemma isNone_of_mem_aliases :
    ∀ p ∈ aliases, (rule? p.2).isNone = true → (rule? p.1).isNone = true := by
  decide

/-- How a node came to be: as a leaf, which has no rule, or by the rule of a construct, which may
show under another name. -/
inductive Grown (reserved : String → Bool) (source : List Char) (tree : Cst) : Prop where
  | leaf : tree.children = [] → (∀ c, tree.label = .named c → rule? c = none) →
      Grown reserved source tree
  | branch {c : Construct} {r : Rule} :
      tree.label = .named c ∨ (∃ name, (name, c) ∈ aliases ∧ tree.label = .named name) →
      ReadBy reserved source c r tree.children → Grown reserved source tree

/-- A node that shows as a construct that nothing else shows as was read by its rule. -/
lemma Grown.readBy {tree : Cst} (h : Grown reserved source tree) (hlabel : tree.label = .named c)
    (hrule : rule? c = some r) (halias : ∀ p ∈ aliases, p.1 ≠ c) :
    ReadBy reserved source c r tree.children := by
  cases h with
  | leaf _ hnone =>
      rw [hnone c hlabel] at hrule
      cases hrule
  | @branch c' r' hown hread =>
      obtain rfl : c' = c := by
        rcases hown with hown | ⟨name, hmem, hown⟩
        · exact Label.named.inj (hown.symm.trans hlabel)
        · exact absurd (Label.named.inj (hown.symm.trans hlabel)) (halias _ hmem)
      exact Option.some.inj (hread.rule_eq.symm.trans hrule) ▸ hread

/-- Every node of what a rule reads came to be in one of these ways. -/
theorem Reads.grown (h : Reads reserved name role r place text rest trees)
    (hr : r.isWithin .whole name = true) (hsource : source = front ++ (text ++ rest))
    (hplace : front.length = place) : ∀ sub ∈ preorderAll trees, Grown reserved source sub := by
  refine h.forall_nodes Scope.whole_closed ?comment ?spelling ?token ?shown hr (fun _ _ => rfl)
    hsource hplace
  case comment => exact fun _ _ => .leaf rfl fun c hc => Label.named.inj hc ▸ rfl
  case spelling =>
    intro name _ _ _ _ hname
    refine .leaf rfl fun c hc => ?_
    cases name with
    | none => cases hc
    | some name =>
        rw [← Label.named.inj hc]
        exact Option.isNone_iff_eq_none.mp hname
  -- A token read under another name has no rule there either.
  case token =>
    intro name c _ _ _ hname hnone
    refine .leaf rfl fun c' hc => ?_
    rcases tokenLabel_eq_named hc with rfl | ⟨rfl, rfl⟩
    · exact Option.isNone_iff_eq_none.mp (isNone_of_mem_aliases (c', c)
        (List.contains_iff_mem.mp hname) (Option.isNone_iff_eq_none.mpr hnone))
    · exact hnone
  case shown =>
    intro name c r role start stop children hname hread
    refine .branch ?_ hread
    cases name with
    | none => exact .inl rfl
    | some name => exact .inr ⟨name, List.contains_iff_mem.mp hname, rfl⟩

end Restyle.Syntax
