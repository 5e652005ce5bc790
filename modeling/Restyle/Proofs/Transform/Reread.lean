import Restyle.Proofs.Search.Mirror
import Restyle.Proofs.Transform.Twice
import Restyle.Transform.Component

/-!
Components that are transformed twice, with their text read again in between.

* `Restyled.ofSourceWith`, `ofSource_eq`: transforming with some reader of texts;
* `Mirrors.settled`, `Mirrors.firm_iff`: a module and what is read from its text are settled and
  firm alike;
* `Restyled.ofSourceWith_again`: the second transform gives the text again, if what it reads mirrors
  what the first one wrote and no attribute was sticky.
-/

namespace Restyle

open Syntax (Cst)

namespace SyntaxTree

variable {t t' : SyntaxTree} {image : NodeId → NodeId}

/-! ### What tags see in a module that was read again -/

namespace Mirrors

variable (hm : Mirrors t t' image) (h : t.Shaped) (h' : t'.Shaped)
include hm h h'

section Tags

variable {tag tag' : Tag} (ht : t.Located tag) (hmirror : Mirrored image tag tag')
include ht hmirror

/-- A modification sees the image of a tag just when it sees the tag. -/
lemma sees_eq (m : Modification) (pending : List Modification) :
    t'.sees tag' m pending = t.sees tag m pending := by
  have hmade : t'.isMadeBy tag'.element = t.isMadeBy tag.element := funext fun m => by
    rw [hmirror.element_eq]
    exact hm.isMadeBy_eq h h' (ht.element_mem h.toLinked h.kind_root) m
  rw [sees, sees, hmade, hmirror.name_eq]

lemma seen_eq (ms : List Modification) : t'.seen tag' ms = t.seen tag ms := by
  induction ms with
  | nil => rfl
  | cons m pending ih => rw [seen_cons, seen_cons, ih, hm.sees_eq h h' ht hmirror]

lemma adds_eq (settings : TransformSettings) :
    t'.adds settings tag'.node = t.adds settings tag.node := by
  rw [adds, adds, hmirror.node_eq, hm.attributesEnd?_eq h h' ht.mem ht.isTag]

lemma properties_node : t'.properties tag'.node = t.properties tag.node := by
  rw [hmirror.node_eq, hm.properties_eq h h' ht.mem ht.isTag]

lemma wears {m : Modification} (hw : t.Wears m tag) : t'.Wears m tag' := fun haction hdotted => by
  rw [hmirror.name_eq, hmirror.element_eq]
  exact (hw haction hdotted).imp_right
    (hm.isInside h h' (ht.element_mem h.toLinked h.kind_root))

end Tags

variable {settings : TransformSettings} {ms : List Modification}

/-- What is read from the text of a settled module is settled. -/
theorem settled (hs : t.Settled settings ms) : t'.Settled settings ms where
  finds := fun tag' ht' m hmem a ha hadds => by
    obtain ⟨tag, ht, hmirror⟩ := hm.exists_located h h' ht'
    rw [hm.seen_eq h h' ht hmirror] at hmem
    rw [hm.adds_eq h h' ht hmirror] at hadds
    rw [hm.properties_node h h' ht hmirror]
    exact hs.finds tag ht m hmem a ha hadds
  wears := fun tag' ht' m hmem => by
    obtain ⟨tag, ht, hmirror⟩ := hm.exists_located h h' ht'
    rw [hm.seen_eq h h' ht hmirror] at hmem
    exact hm.wears h h' ht hmirror (hs.wears tag ht m hmem)
  inner_eq := fun tag' ht' => by
    obtain ⟨tag, ht, hmirror⟩ := hm.exists_located h h' ht'
    rw [hm.seen_eq h h' ht hmirror, hm.adds_eq h h' ht hmirror, hm.properties_node h h' ht hmirror]
    exact hs.inner_eq tag ht

/-- What is read from the text of a module is firm exactly if the module is. -/
theorem firm_iff : t'.Firm settings ms ↔ t.Firm settings ms := by
  constructor
  · intro hf tag ht
    obtain ⟨tag', ht', hmirror⟩ := hm.located h h' ht
    have := hf tag' ht'
    rwa [hm.seen_eq h h' ht hmirror, hm.adds_eq h h' ht hmirror,
      hm.properties_node h h' ht hmirror] at this
  · intro hf tag' ht'
    obtain ⟨tag, ht, hmirror⟩ := hm.exists_located h h' ht'
    rw [hm.seen_eq h h' ht hmirror, hm.adds_eq h h' ht hmirror, hm.properties_node h h' ht hmirror]
    exact hf tag ht

end Mirrors

end SyntaxTree

/-! ### Transforming twice -/

namespace Restyled

/-- Transforms a component that some reader takes apart. -/
def ofSourceWith (read : List Char → Except ParseError Cst) (source : String) (bundle : Bundle)
    (settings : TransformSettings) : Except ParseError Restyled :=
  (read source.toList).map fun tree =>
    let (report, t) := (SyntaxTree.ofConcrete source.toList tree).restyle settings
      bundle.needsMotion bundle.modifications
    ⟨t.render, report, report.verdict⟩

/-- Components are transformed with the reader of modules. -/
theorem ofSource_eq : ofSource = ofSourceWith Syntax.readModule := by
  funext source bundle settings
  rw [ofSource, ofSourceWith, SyntaxTree.ofSource]
  cases Syntax.readModule source.toList with
  | error e => rfl
  | ok tree => rfl

/-- The module that a transform writes. -/
def written (source : String) (tree : Cst) (bundle : Bundle) (settings : TransformSettings) :
    SyntaxTree :=
  ((SyntaxTree.ofConcrete source.toList tree).restyle settings bundle.needsMotion
    bundle.modifications).2

/-- A text that can be read is transformed. -/
lemma ofSourceWith_eq {read : List Char → Except ParseError Cst} {source : String} {tree : Cst}
    (h : read source.toList = .ok tree) (bundle : Bundle) (settings : TransformSettings) :
    ∃ o, ofSourceWith read source bundle settings = .ok o
      ∧ o.text = (written source tree bundle settings).render
      ∧ o.report = ((SyntaxTree.ofConcrete source.toList tree).restyle settings bundle.needsMotion
        bundle.modifications).1 := by
  rw [ofSourceWith, h]
  exact ⟨_, rfl, rfl, rfl⟩

/-- A reader takes the text of a module for that module. -/
def Rereads (read : List Char → Except ParseError Cst) (t : SyntaxTree) : Prop :=
  ∃ tree image, read t.render.toList = .ok tree
    ∧ SyntaxTree.Mirrors t (SyntaxTree.ofConcrete t.render.toList tree) image

/-- Transforming the text that a transform gave: if the reader takes it for what was written, the
second transform inserts no import, and gives the text again exactly if the pipeline leaves it to
the module that was written, as it does if no attribute was sticky. -/
theorem ofSourceWith_again {read : List Char → Except ParseError Cst}
    (hread : ∀ source tree, read source = .ok tree → tree.Grammatical) {source : String}
    {tree : Cst} (htree : read source.toList = .ok tree) (bundle : Bundle)
    (settings : TransformSettings) (hrereads : Rereads read (written source tree bundle settings)) :
    ∃ once again, ofSourceWith read source bundle settings = .ok once
      ∧ once.text = (written source tree bundle settings).render
      ∧ ofSourceWith read once.text bundle settings = .ok again
      ∧ again.report.importOutcome ≠ some .inserted
      ∧ (again.text = once.text ↔ ((written source tree bundle settings).restyle settings
        bundle.needsMotion bundle.modifications).2.render = once.text)
      ∧ (¬ (SyntaxTree.ofConcrete source.toList tree).HoldsSticky → again.text = once.text) := by
  obtain ⟨tree', image, htree', hmirrors⟩ := hrereads
  have h := SyntaxTree.shaped_ofConcrete source.toList (hread _ _ htree)
  obtain ⟨hshaped, hsettled, hfirm, himport⟩ :=
    h.restyle settings bundle.needsMotion bundle.modifications
  have hw : written source tree bundle settings
    = ((SyntaxTree.ofConcrete source.toList tree).restyle
    settings bundle.needsMotion bundle.modifications).2 := rfl
  rw [← hw] at hshaped hsettled hfirm himport
  set w := written source tree bundle settings
  have h' := SyntaxTree.shaped_ofConcrete w.render.toList (hread _ _ htree')
  have hrender : (SyntaxTree.ofConcrete w.render.toList tree').render = w.render := by
    have := (SyntaxTree.ofConcrete_lossless w.render.toList tree').2.2.2 []
    rwa [String.ofList_toList] at this
  -- The tree read again mirrors the one written, so it is settled too and has the import.
  have hthere := fun hneeded => hmirrors.importOf?_isSome hshaped (himport hneeded)
  have hsettled' := hmirrors.settled hshaped h' hsettled
  have hiff := hsettled'.render_restyle_iff h' hthere
  rw [hrender, hmirrors.firm_iff hshaped h', ← hsettled.render_restyle_iff hshaped himport] at hiff
  obtain ⟨once, honce, htext, -⟩ := ofSourceWith_eq htree bundle settings
  rw [← htext] at htree'
  obtain ⟨again, hagain, htext', hreport⟩ := ofSourceWith_eq htree' bundle settings
  rw [htext] at htext' hreport
  refine ⟨once, again, honce, htext, hagain, ?_, ?_, fun hno => ?_⟩
  · rw [hreport]
    exact (hsettled'.restyle h' hthere).2.1
  · rw [htext, htext']
    exact hiff
  · rw [htext, htext']
    exact hiff.mpr ((hsettled.render_restyle_iff hshaped himport).mpr
      (hfirm (SyntaxTree.calmAll_of_not_holdsSticky hno)))

/-! ### A wrapper -/

/-- The concrete tree of a module with one element. -/
def soleElement : Cst :=
  .node (.named .program) none 0 4
    [.node (.named .expressionStatement) none 0 4
      [.node (.named .selfClosingElement) none 0 4
        [.node (.token "<") none 0 1 [], .node (.named .identifier) (some .name) 1 2 [],
          .node (.token "/>") none 2 4 []]]]

/-- The concrete tree of the same module with a wrapper around the element. -/
def wrappedElement : Cst :=
  .node (.named .program) none 0 11
    [.node (.named .expressionStatement) none 0 11
      [.node (.named .element) none 0 11
        [.node (.named .openingTag) (some .openTag) 0 3
          [.node (.token "<") none 0 1 [], .node (.named .identifier) (some .name) 1 2 [],
            .node (.token ">") none 2 3 []],
        .node (.named .selfClosingElement) none 3 7
          [.node (.token "<") none 3 4 [], .node (.named .identifier) (some .name) 4 5 [],
            .node (.token "/>") none 5 7 []],
        .node (.named .closingTag) (some .closeTag) 7 11
          [.node (.token "</") none 7 9 [], .node (.named .identifier) (some .name) 9 10 [],
            .node (.token ">") none 10 11 []]]]]

/-- A reader that knows these two modules. -/
def readElement (source : List Char) : Except ParseError Cst :=
  if source = "<a/>".toList then .ok soleElement
  else if source = "<w><a/></w>".toList then .ok wrappedElement
  else .error .noTree

/-- Puts a wrapper around an element. -/
def wrapping : Bundle := ⟨.empty, [], [], [⟨"a", .wrapElement, "w"⟩]⟩

/-- Where the nodes of the wrapped element are when its text is read again. -/
def imageOfElement (id : NodeId) : NodeId :=
  [0, 1, 7, 8, 9, 10, 2, 3, 4, 5, 6, 11, 12, 13, 14].getD id 0

/-- What the small reader reads is grammatical. -/
lemma grammatical_of_readElement (source : List Char) (tree : Cst)
    (h : readElement source = .ok tree) : tree.Grammatical := by
  rw [readElement] at h
  split at h
  · cases h
    decide +kernel
  · split at h
    · cases h
      decide +kernel
    · cases h

/-- The wrapper is read as what was written. -/
lemma rereads_wrapping : Rereads readElement (written "<a/>" soleElement wrapping {}) := by
  have hrender : (written "<a/>" soleElement wrapping {}).render = "<w><a/></w>" := by
    decide +kernel
  refine ⟨wrappedElement, imageOfElement, by rw [hrender]; rfl, ?_⟩
  rw [hrender]
  exact {
    root_eq := rfl
    kind_eq := by decide +kernel
    role_eq := by decide +kernel
    text_eq := by decide +kernel
    children_eq := by decide +kernel
    bare := by decide +kernel }

/-- An element without attributes holds nothing sticky. -/
lemma not_holdsSticky_soleElement :
    ¬ (SyntaxTree.ofConcrete "<a/>".toList soleElement).HoldsSticky := by
  rintro ⟨target, tag, htag, name, a, literal, s, -, ha, -⟩
  obtain ⟨hmem, hkind⟩ := SyntaxTree.mem_of_findAttribute? ha
  have hlt := (SyntaxTree.wellFormed_ofConcrete _ _).lt_of_mem hmem
  have hnone : ∀ a < (SyntaxTree.ofConcrete "<a/>".toList soleElement).size,
      (SyntaxTree.ofConcrete "<a/>".toList soleElement).kind a ≠ .attribute := by decide +kernel
  exact hnone a hlt hkind

/-- The wrapper stays as it is when the text is transformed again. -/
theorem wrap_again :
    readElement "<a/>".toList = .ok soleElement
      ∧ Rereads readElement (written "<a/>" soleElement wrapping {})
      ∧ ∃ once again, ofSourceWith readElement "<a/>" wrapping {} = .ok once
        ∧ once.text = "<w><a/></w>"
        ∧ ofSourceWith readElement once.text wrapping {} = .ok again ∧ again.text = once.text := by
  have htree : readElement "<a/>".toList = .ok soleElement := rfl
  obtain ⟨once, again, honce, htext, hagain, -, -, hsame⟩ :=
    ofSourceWith_again grammatical_of_readElement htree wrapping {} rereads_wrapping
  refine ⟨htree, rereads_wrapping, once, again, honce, ?_, hagain,
    hsame not_holdsSticky_soleElement⟩
  rw [htext]
  decide +kernel

/-! ### A comment -/

/-- The concrete tree of a tag with a comment up to the end of its line, which ends at `stop`. -/
def commentedTag (stop : Nat) : Cst :=
  .node (.named .program) none 0 (stop + 3)
    [.node (.named .expressionStatement) none 0 (stop + 3)
      [.node (.named .selfClosingElement) none 0 (stop + 3)
        [.node (.token "<") none 0 1 [], .node (.named .identifier) (some .name) 1 2 [],
          .node (.named .comment) none 2 stop [],
          .node (.token "/>") none (stop + 1) (stop + 3) []]]]

/-- A reader that knows such a tag, and how it is read once an attribute stands behind the
comment. -/
def readCommented (source : List Char) : Except ParseError Cst :=
  if source = "<a//\n/>".toList then .ok (commentedTag 4)
  else if source = "<a// x=\"1\"\n/>".toList then .ok (commentedTag 10)
  else .error .noTree

/-- Gives an attribute to a tag. -/
def assigning : Bundle := ⟨.empty, [], [], [⟨"a", .addProp, "x=1"⟩]⟩

/-- An attribute that is written behind a comment belongs to the comment when it is read again, so
that it is added once more. -/
theorem assign_again_commented :
    ((ofSourceWith readCommented "<a//\n/>" assigning {}).toOption.map text)
        = some "<a// x=\"1\"\n/>"
      ∧ ((ofSourceWith readCommented "<a// x=\"1\"\n/>" assigning {}).toOption.map text)
        = some "<a// x=\"1\" x=\"1\"\n/>" := by
  decide +kernel

end Restyled

end Restyle
