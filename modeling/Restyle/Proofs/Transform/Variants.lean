import Restyle.Proofs.Search.Component
import Restyle.Proofs.Search.Declared
import Restyle.Proofs.Transform.Imports

/-!
The variant groups that a component declares, when a pipeline is run on it.

* `Grafted.additions`, `Wrapped.additions`: what an attribute, an import and a wrapper add to a
  module;
* `KeepsGroups`, `Step.keepsGroups`: applying a modification at a point keeps the groups;
* `Declarative.keepsGroups_restyle`: so does a pipeline;
* `declarative_ofConcrete`: the module of a component keeps markup out of its declarations;
* `ofConcrete_declaredGroups_restyle`: no pipeline changes the groups of a component.
-/

namespace Restyle

namespace SyntaxTree

variable {t t' t'' : SyntaxTree}

/-! ### What edits add -/

/-- The kinds of the leaves that edits make. -/
def leafKinds : List NodeKind :=
  [.token, .identifier, .stringLiteral, .other]

lemma of_mem_leafKinds : ∀ k ∈ leafKinds,
    (k ≠ .call ∧ k ≠ .object ∧ k ≠ .pair) ∧ k ≠ .attribute ∧ k.isTag = false := by
  decide

/-- An edit that adds no node adds nothing. -/
lemma additions_of_size_eq (h : t'.size = t.size) : Additions t t' := by
  have hother : ∀ x, t.size ≤ x → t'.kind x = .other := fun x hx => kind_of_size_le (h ▸ hx)
  constructor
  case plain =>
    intro x hx
    rw [hother x hx]
    decide
  case attribute_in_tag =>
    intro a ha hk
    rw [hother a ha] at hk
    cases hk
  all_goals
    intro g hg htag
    rw [hother g hg] at htag
    cases htag

namespace Grafted

variable {n : Node} {pieces : List Piece} {p : NodeId} {l r r' : List Slot} {gap : String}

/-- The nodes behind the top of a row are of the kinds of pieces. -/
lemma kind_mem_leafKinds (hg : Grafted t t' (n :: pieces.map (leaf t.size)) p l r r' gap)
    (hpieces : ∀ piece ∈ pieces, piece.kind ∈ leafKinds) {x : NodeId} (hx : t.size < x) :
    t'.kind x ∈ leafKinds := by
  rcases hg.node_leaf hx with ⟨piece, hmem, hnode⟩ | hnode
  · rw [kind, hnode]
    exact hpieces piece hmem
  · have hother : t'.kind x = .other := by
      rw [kind, hnode]
      rfl
    rw [hother]
    decide

/-- Leaves below an import, or below an attribute of a tag. -/
lemma additions (hg : Grafted t t' (n :: pieces.map (leaf t.size)) p l r r' gap)
    (hp : p < t.size) (hpieces : ∀ piece ∈ pieces, piece.kind ∈ leafKinds)
    (hn : n.kind = .importStatement ∨ n.kind = .attribute ∧ (t.kind p).isTag = true) :
    Additions t t' := by
  have htop : t'.kind t.size = n.kind := by
    rw [kind, hg.node_top]
    rfl
  have hleaf : ∀ x, t.size ≤ x → x ≠ t.size → t'.kind x ∈ leafKinds := fun x hx hne =>
    hg.kind_mem_leafKinds hpieces (lt_of_le_of_ne hx hne.symm)
  -- The row has no tag: its top is an import or an attribute, and the rest are pieces.
  have htag : ∀ g, t.size ≤ g → (t'.kind g).isTag = false := fun g hg => by
    by_cases heq : g = t.size
    · rw [heq, htop]
      rcases hn with hn | ⟨hn, -⟩ <;> rw [hn] <;> rfl
    · exact (of_mem_leafKinds _ (hleaf g hg heq)).2.2
  constructor
  case plain =>
    intro x hx
    by_cases heq : x = t.size
    · rw [heq, htop]
      rcases hn with hn | ⟨hn, -⟩ <;> rw [hn] <;> decide
    · exact (of_mem_leafKinds _ (hleaf x hx heq)).1
  case attribute_in_tag =>
    intro a ha hk
    by_cases heq : a = t.size
    · rw [heq, htop] at hk
      rcases hn with hn | ⟨-, hn⟩
      · rw [hn] at hk
        cases hk
      · refine ⟨p, ?_, by rwa [hg.kind_old hp]⟩
        rw [heq, parent, hg.node_top]
    · exact absurd hk (of_mem_leafKinds _ (hleaf a ha heq)).2.1
  all_goals
    intro g hg hk
    rw [htag g hg] at hk
    cases hk

end Grafted

namespace Wrapped

variable {name gap : String} {e p : NodeId} {l r : List Slot}

/-- The kinds of the nodes that a wrapper is made of. -/
def wrapperKinds : List NodeKind :=
  .element :: .openingTag :: .closingTag :: leafKinds

/-- Of what a wrapper is made of, only its opening tag holds attributes. -/
lemma kind_mem_wrapperKinds (hw : Wrapped t t' name e p l r gap) {x : NodeId} (hx : t.size ≤ x) :
    t'.kind x ∈ wrapperKinds ∧ ((t'.kind x).isTag = true → x = t.size + 1) := by
  have hclosing : t'.kind (t.size + 5) = .closingTag := by
    rw [kind, hw.node_closing]
    rfl
  rcases Nat.eq_or_lt_of_le hx with rfl | hgt
  · rw [hw.kind_outer]
    exact ⟨by decide, fun h => by cases h⟩
  · rcases hw.node_new hgt with ⟨rfl | rfl, -⟩ | ⟨hleaf, -⟩
    · rw [hw.kind_opening]
      exact ⟨by decide, fun _ => rfl⟩
    · rw [hclosing]
      exact ⟨by decide, fun h => by cases h⟩
    · rcases hleaf with hleaf | hleaf | hleaf
      all_goals
        rw [hleaf]
        exact ⟨by decide, fun h => by cases h⟩

/-- A wrapper, whose opening tag stands in the module. -/
lemma additions (hw : Wrapped t t' name e p l r gap) (h : t.Shaped) (he : e ∈ t.descendants root)
    (hk : (t.kind e).isElement = true) (hq : ¬ t.Quiet e) : Additions t t' := by
  have ha := hw.amends h he hk hq
  have hkinds : ∀ k ∈ wrapperKinds, (k ≠ .call ∧ k ≠ .object ∧ k ≠ .pair) ∧ k ≠ .attribute := by
    decide
  constructor
  case plain => exact fun x hx => (hkinds _ (hw.kind_mem_wrapperKinds hx).1).1
  case attribute_in_tag =>
    exact fun x hx hattr => absurd hattr (hkinds _ (hw.kind_mem_wrapperKinds hx).1).2
  case tag_mem =>
    intro g hg hk
    obtain rfl := (hw.kind_mem_wrapperKinds hg).2 hk
    -- the outer element takes the place of the wrapped one, below a node that was not cut
    have hp := parent_mem_descendants h.toLinked he hw.parent_eq
    have hqp : ¬ t.Quiet p := fun hquiet => hq (hquiet.of_under (.step hw.parent_eq .refl))
    have houter := ha.heir_mem (mem_children_of_parent h.toLinked he hw.parent_eq)
      fun hstring => hqp ((h.regular p).quiet_string hstring)
    rw [wrapperOf_self] at houter
    have hl' := ha.document.toLinked
    refine child_mem_descendants hl'
      (child_mem_descendants hl' (ha.mem_descendants h hp hqp) houter) ?_
    rw [hw.children_outer]
    exact List.mem_cons_self
  case tag_opens =>
    intro g hg hk
    obtain rfl := (hw.kind_mem_wrapperKinds hg).2 hk
    have hnode := hw.node_row 2 (by decide)
    refine ⟨t.size + 2, ?_, ?_, hw.wellFormed.text_of_literal ?_⟩
    · rw [children, hw.node_opening]
      exact List.mem_cons_self
    · rw [kind, hnode]
      rfl
    · rw [hnode]
      rfl

end Wrapped

/-! ### What modifications keep -/

/-- A module that another one came from declares what that did, apart from markup. -/
structure KeepsGroups (t t' : SyntaxTree) : Prop where
  declarative : t'.Declarative
  groups_eq : t'.declaredGroups = t.declaredGroups

/-- A tree keeps its own groups. -/
theorem KeepsGroups.refl (h : t.Declarative) : KeepsGroups t t := ⟨h, rfl⟩

/-- Keeping groups goes through a tree between. -/
theorem KeepsGroups.trans (h : KeepsGroups t t') (h' : KeepsGroups t' t'') : KeepsGroups t t'' :=
  ⟨h'.declarative, h'.groups_eq.trans h.groups_eq⟩

lemma Amends.keepsGroups {place : NodeId} {heir : NodeId → NodeId} (ha : Amends t t' place heir)
    (h : t.Declarative) (h' : t'.Shaped) (hadds : Additions t t') : KeepsGroups t t' :=
  have hdeclarative := ha.declarative h h' hadds
  ⟨hdeclarative, ha.declaredGroups_eq h hdeclarative hadds⟩

/-- What a modification does at a point keeps the groups. -/
theorem Step.keepsGroups {m : Modification} {point : Point} {r : Outcome × SyntaxTree}
    (hs : Step t m point r) (h : t.Declarative) (hp : t.Holds point) : KeepsGroups t r.2 := by
  have hshaped := h.toShaped
  -- One case for each step; what it adds declares nothing.
  cases hs with
  | leftOut _ => exact .refl h
  | present _ => exact .refl h
  | extended hm hpoint hv hlacking =>
      subst hpoint
      exact (hshaped.amends_overwrite hp.2.2 hv _).keepsGroups h (hshaped.overwrite hp.2.2 hv _)
        (additions_of_size_eq (size_overwrite ..))
  | assigned hm htag hof ha hv hne =>
      have hattr := (mem_of_findAttribute? ha).2
      exact (hshaped.amends_overwrite hattr hv _).keepsGroups h (hshaped.overwrite hattr hv _)
        (additions_of_size_eq (size_overwrite ..))
  | added hm htag hof ha hend hins hg =>
      have hisTag := (hp.located htag).isTag
      refine (hg.amends_attribute hshaped hisTag hend).keepsGroups h
        (.grafted_attribute hg hshaped hisTag hend) ?_
      exact Grafted.additions hg (lt_size_of_attributesEnd? hend).1
        (by simp [attributePieces, leafKinds]) (.inr ⟨rfl, hisTag⟩)
  | wrapped hm htag hw =>
      have ht := hp.located htag
      obtain ⟨-, -, helement, hunder, -⟩ := hshaped.element_spec ht.isTag ht.tagAt
      have hmem := ht.element_mem h.toLinked h.kind_root
      have hquiet := fun hq : t.Quiet _ => hq.not_under_tag ht.isTag hunder
      exact (hw.amends hshaped hmem helement hquiet).keepsGroups h
        (.wrapped hw hshaped hmem helement hquiet) (hw.additions hshaped hmem helement hquiet)

/-- Requiring the import keeps the groups. -/
lemma keepsGroups_requireImport (h : t.Declarative) (settings : TransformSettings) :
    KeepsGroups t (t.requireImport settings).2 := by
  have hshaped := h.toShaped
  rcases requireImport_cases h.toDocument settings with ⟨heq, -⟩ | ⟨-, l, r, r', gap, hs, hg⟩
  · rw [heq]
    exact .refl h
  · refine (hg.amends_import hshaped hs).keepsGroups h (.grafted_import hg hshaped hs) ?_
    exact Grafted.additions hg h.root_lt (by simp [importPieces, leafKinds]) (.inl rfl)

/-- Applying a modification at points that were found together keeps the groups. -/
theorem keepsGroups_applyAtAll (h : t.Declarative) (settings : TransformSettings)
    (m : Modification) {points : List Point} (hpoints : ∀ point ∈ points, t.Holds point) :
    KeepsGroups t (t.applyAtAll settings m points).2 := by
  induction points generalizing t with
  | nil => exact .refl h
  | cons point points ih =>
      rw [applyAtAll]
      dsimp only
      have hp := hpoints point List.mem_cons_self
      have hstep := h.toDocument.step_applyAt settings m hp
      have hfirst := hstep.keepsGroups h hp
      exact hfirst.trans (ih hfirst.declarative fun point' hmem =>
        (hstep.keeps h.toShaped hp).holds point' (hpoints point' (List.mem_cons_of_mem _ hmem)))

/-- A run keeps the groups, at each of its stages. -/
theorem keepsGroups_stage (h : t.Declarative) (settings : TransformSettings)
    (later first : List Modification) : KeepsGroups t (t.stage settings later first) := by
  induction first generalizing t with
  | nil => exact .refl h
  | cons m first ih =>
      have hpoints : ∀ point ∈ t.pointsBefore settings.actualClassAttributes m (first ++ later),
          t.Holds point := fun _ => holds_of_mem_pointsBefore
      have hfirst := keepsGroups_applyAtAll h settings m hpoints
      rw [stage]
      exact hfirst.trans (ih hfirst.declarative)

/-- A pipeline keeps the groups. -/
theorem Declarative.keepsGroups_restyle (h : t.Declarative) (settings : TransformSettings)
    (needsImport : Bool) (ms : List Modification) :
    KeepsGroups t (t.restyle settings needsImport ms).2 := by
  have himport : KeepsGroups t (t.importIfNeeded settings needsImport).2 := by
    cases needsImport with
    | false => exact .refl h
    | true => exact keepsGroups_requireImport h settings
  rw [restyle_snd, stageOfRestyle]
  exact himport.trans (keepsGroups_stage himport.declarative settings [] ms)

/-! ### Components that are read -/

open Syntax (Cst)

section Read

variable {source : List Char} {tree : Cst}

/-- All nodes of a tree that was read are in the module. -/
lemma mem_descendants_ofConcrete {x : NodeId} (hx : x < (ofConcrete source tree).size) :
    x ∈ (ofConcrete source tree).descendants root := by
  have hl := (wellFormed_ofConcrete source tree).toLinked
  induction x using Nat.strong_induction_on with
  | _ x ih =>
      obtain ⟨_, _, _, hcopy⟩ := exists_copyOf source tree hx
      rcases hcopy.root_or_child with ⟨rfl, -⟩ | ⟨-, p, hp, -, hmem⟩
      · exact mem_descendants_self hl hx
      · exact child_mem_descendants hl (ih p hp (hp.trans hx)) hmem

/-- An attribute of a component stands in a tag. -/
lemma attribute_in_tag_ofConcrete (h : tree.Component source) {a : NodeId}
    (ha : (ofConcrete source tree).kind a = .attribute) :
    ∃ g, (ofConcrete source tree).parent a = some g
      ∧ ((ofConcrete source tree).kind g).isTag = true := by
  have hlt := lt_size_of_kind (by rw [ha]; decide)
  obtain ⟨_, _, _, hcopy⟩ := exists_copyOf source tree hlt
  rcases hcopy.root_or_child with ⟨rfl, -⟩ | ⟨-, p, hp, hparent, hmem⟩
  · rw [(shaped_ofConcrete source h.toGrammatical).kind_root] at ha
    cases ha
  · refine ⟨p, hparent, ?_⟩
    obtain ⟨sub, hsub, _, _, hcopies, hkind⟩ := exists_copies h.toGrammatical (hp.trans hlt)
    obtain ⟨child, hchild, -, -, -, hkind', -⟩ := hcopies.child hmem
    by_contra htag
    rw [hkind, Bool.not_eq_true] at htag
    exact (h.marked sub hsub).attribute_in_tag htag child hchild (hkind' ▸ ha)

/-- A tag of a component opens with an angle bracket. -/
lemma tag_opens_ofConcrete (h : tree.Component source) {g : NodeId}
    (hg : ((ofConcrete source tree).kind g).isTag = true) :
    ∃ c ∈ (ofConcrete source tree).children g, (ofConcrete source tree).kind c = .token
      ∧ (ofConcrete source tree).text c = "<" := by
  have hlt := lt_size_of_isTag hg
  have hne : g ≠ root := by
    rintro rfl
    rw [(shaped_ofConcrete source h.toGrammatical).kind_root] at hg
    cases hg
  obtain ⟨sub, hsub, _, hcopied⟩ := exists_copiedWith h.toLaidOut hlt hne
  have hattr : sub.label.kind ≠ .attribute := fun hk => by
    rw [hcopied.kind_eq, hk] at hg
    cases hg
  obtain ⟨c, hc, htoken, hspelled⟩ := (h.marked sub hsub).tag_opens (hcopied.kind_eq ▸ hg)
  have hrow := (hcopied.copies.forall₂ hattr (h.ordered sub hsub)).flip
  obtain ⟨y, hy, hcopy⟩ := exists_of_forall₂ hrow hc
  refine ⟨y, hy, hcopy.kind_eq.trans htoken, ?_⟩
  rw [(wellFormed_ofConcrete source tree).text_of_asRead (changed_ofConcrete y) hcopy.asRead_eq,
    hspelled]

/-- A key that holds no element is quiet: a tag or an attribute in it would lie in an element
there. -/
lemma quiet_of_no_element (h : t.Shaped)
    (hattr : ∀ a, t.kind a = .attribute → ∃ g, t.parent a = some g ∧ (t.kind g).isTag = true)
    {key p : NodeId} (hp : t.parent key = some p) (hk : t.kind p = .pair)
    (hkey : ∀ d, t.Under key d → (t.kind d).isElement = false) : t.Quiet key := by
  -- who goes up from a node in the key leaves the key only into the pair
  have hup : ∀ d q, t.Under key d → t.parent d = some q → t.kind q ≠ .pair → t.Under key q := by
    intro d q hd hq hne
    cases hd with
    | refl =>
        rw [hp, Option.some.injEq] at hq
        exact absurd (hq ▸ hk) hne
    | step hq' hd =>
        rw [hq, Option.some.injEq] at hq'
        exact hq' ▸ hd
  have htag : ∀ d, t.Under key d → (t.kind d).isTag = false := fun d hd => by
    by_contra htag
    rw [Bool.not_eq_false] at htag
    obtain ⟨e, he, helement, -, -⟩ := h.elementOfTag?_spec htag
    have hunder : t.Under key e := by
      rw [elementOfTag?] at he
      split at he
      · exact Option.some.inj he ▸ hd
      · refine hup d e hd he fun hpair => ?_
        rw [hpair] at helement
        cases helement
      · cases he
    rw [hkey e hunder] at helement
    cases helement
  refine fun d hd => ⟨htag d hd, fun hattribute => ?_⟩
  obtain ⟨g, hg, hgtag⟩ := hattr d hattribute
  have hunder : t.Under key g := hup d g hd hg fun hpair => by
    rw [hpair] at hgtag
    cases hgtag
  rw [htag g hunder] at hgtag
  cases hgtag

/-- The module of a component keeps markup out of its declarations if there is none in the keys of
its objects. -/
theorem declarative_ofConcrete (h : tree.Component source) (hkeys : tree.KeysApart) :
    (ofConcrete source tree).Declarative where
  toShaped := shaped_ofConcrete source h.toGrammatical
  -- A key is copied from a key, and the side condition says that no element is below that one.
  key_quiet := fun p hp key hkey => by
    have hshaped := shaped_ofConcrete source h.toGrammatical
    obtain ⟨hmem, hrole⟩ := childIn?_spec hkey
    obtain ⟨sub, hsub, _, _, hcopies, hkind⟩ :=
      exists_copies h.toGrammatical (lt_size_of_mem hmem)
    obtain ⟨child, hchild, _, _, hbelow, hkind', hrole', -⟩ := hcopies.child hmem
    rw [hkind] at hp
    have hchildRole : child.role = some .key :=
      (hrole' (by rw [hp]; decide)).symm.trans hrole
    refine quiet_of_no_element hshaped (fun a => attribute_in_tag_ofConcrete h)
      (hshaped.parent_of_mem hmem) (hkind.trans hp) fun d hd => ?_
    obtain ⟨below, hmem', _, _, _, hkindd⟩ := hbelow.under hkind' hd
    rw [hkindd]
    exact hkeys sub hsub hp child hchild hchildRole below hmem'
  string_bare := fun s hs d hd => by
    obtain ⟨sub, hsub, _, _, hcopies, hkind⟩ :=
      exists_copies h.toGrammatical (lt_size_of_kind (by rw [hs]; decide))
    obtain ⟨below, hmem, _, _, _, hkindd⟩ := hcopies.under hkind hd
    rw [hkindd]
    exact (h.marked sub hsub).string_bare (hkind ▸ hs) below hmem
  element_bare := fun x hx c hc => by
    obtain ⟨sub, hsub, _, _, hcopies, hkind⟩ :=
      exists_copies h.toGrammatical (lt_size_of_mem hc)
    obtain ⟨child, hchild, -, -, -, hkind', -⟩ := hcopies.child hc
    rw [hkind']
    exact (h.marked sub hsub).element_bare (hkind ▸ hx) child hchild
  attribute_in_tag := fun _ => attribute_in_tag_ofConcrete h
  tag_mem := fun _ hg => mem_descendants_ofConcrete (lt_size_of_isTag hg)
  tag_opens := fun _ => tag_opens_ofConcrete h

/-- A pipeline leaves the variant groups that a component declares, names and order, if no element
lies in the key of an object. -/
theorem ofConcrete_declaredGroups_restyle (h : tree.Component source) (hkeys : tree.KeysApart)
    (settings : TransformSettings) (bundle : Bundle) :
    ((ofConcrete source tree).restyle settings bundle.needsMotion
        bundle.modifications).2.declaredGroups
      = (ofConcrete source tree).declaredGroups :=
  ((declarative_ofConcrete h hkeys).keepsGroups_restyle settings bundle.needsMotion
    bundle.modifications).groups_eq

end Read

/-- `cva(\x7bvariants:\x7bk:<a/>\x7d\x7d)` -/
def variantInMarkup : Cst :=
  .node (.named .program) none 0 24
    [.node (.named .expressionStatement) none 0 24
      [.node (.named .call) none 0 24
        [.node (.named .identifier) (some .function) 0 3 [],
          .node (.named .arguments) (some .arguments) 3 24
            [.node (.token "(") none 3 4 [],
              .node (.named .object) none 4 23
                [.node (.token "\x7b") none 4 5 [],
                  .node (.named .pair) none 5 22
                    [.node (.named .propertyName) (some .key) 5 13 [],
                      .node (.token ":") none 13 14 [],
                      .node (.named .object) (some .value) 14 22
                        [.node (.token "\x7b") none 14 15 [],
                          .node (.named .pair) none 15 21
                            [.node (.named .propertyName) (some .key) 15 16 [],
                              .node (.token ":") none 16 17 [],
                              .node (.named .selfClosingElement) (some .value) 17 21
                                [.node (.token "<") none 17 18 [],
                                  .node (.named .identifier) (some .name) 18 19 [],
                                  .node (.token "/>") none 19 21 []]],
                          .node (.token "\x7d") none 21 22 []]],
                  .node (.token "\x7d") none 22 23 []],
              .node (.token ")") none 23 24 []]]]]

/-- An element in a declaration is wrapped, and an import is inserted in front. -/
theorem declaredGroups_variantInMarkup :
    let source := "cva(\x7bvariants:\x7bk:<a/>\x7d\x7d)".toList
    let lift : Animation := ⟨"lift", .motionConfig, .motion [], .hover⟩
    let bundle : Bundle := ⟨.empty, [lift], [], [⟨"a", .wrapElement, "w"⟩]⟩
    let result := (ofConcrete source variantInMarkup).restyle {} bundle.needsMotion
      bundle.modifications
    variantInMarkup.Component source ∧ variantInMarkup.KeysApart
      ∧ result.2.render = "import \x7b motion \x7d from \"framer-motion\";\n"
        ++ "cva(\x7bvariants:\x7bk:<w><a/></w>\x7d\x7d)"
      ∧ result.2.declaredGroups = ["k"] := by
  intro source lift bundle result
  have hcomponent : variantInMarkup.Component source :=
    ⟨⟨by decide +kernel, by decide +kernel⟩, by decide +kernel, by decide +kernel⟩
  have hkeys : variantInMarkup.KeysApart := by decide +kernel
  exact ⟨hcomponent, hkeys, by decide +kernel,
    (ofConcrete_declaredGroups_restyle hcomponent hkeys {} bundle).trans (by decide +kernel)⟩

end SyntaxTree

end Restyle
