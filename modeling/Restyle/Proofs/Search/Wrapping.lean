import Restyle.Proofs.Change.Reached
import Restyle.Proofs.Search.TagOrder

/-!
The searches for wrappers, one down from an element and one up from a node.

* `SoleChild`: an element that is all that another one holds, and `Descent`, a chain of such
  elements;
* `Wraps`, `Encloses`: what the searches are for, in terms of chains alone;
* `Linked.wraps_iff_wraps`, `Linked.isInside_iff_encloses`: each search finds what it is for, so
  that what the one finds below a wrapper is inside the wrapper for the other (`Wraps.encloses`);
* `Onward`: the modules that further changes lead to, in which both find what they found before.
-/

namespace Restyle.SyntaxTree

variable {t t' : SyntaxTree}

/-! ### Sole children -/

/-- An element is all that another one holds between its tags: whatever else stands there is blank
text. -/
structure SoleChild (t : SyntaxTree) (p c : NodeId) : Prop where
  kind_parent : t.kind p = .element
  mem : c ∈ t.children p
  kind_child : t.kind c = .element ∨ t.kind c = .selfClosingElement
  no_tag : t.role c ≠ some .openTag ∧ t.role c ≠ some .closeTag
  others : ∀ d ∈ t.children p, d ≠ c → t.role d = some .openTag ∨ t.role d = some .closeTag
    ∨ t.kind d = .text ∧ ∀ x ∈ (t.text d).toList, Text.isBlank x = true

/-- The second element lies strictly below the first one along sole children. -/
def Descent (t : SyntaxTree) : NodeId → NodeId → Prop :=
  Relation.TransGen t.SoleChild

lemma isContent_eq_false_iff {d : NodeId} :
    t.isContent d = false ↔ t.role d = some .openTag ∨ t.role d = some .closeTag
      ∨ t.kind d = .text ∧ ∀ x ∈ (t.text d).toList, Text.isBlank x = true := by
  simp only [isContent, Text.isBlankText, Bool.and_eq_false_iff, bne_eq_false_iff_eq,
    Bool.not_eq_false', Bool.and_eq_true, decide_eq_true_eq, List.all_eq_true, or_assoc]

lemma isElement_iff {kind : NodeKind} :
    kind.isElement = true ↔ kind = .element ∨ kind = .selfClosingElement := by
  cases kind <;> decide

/-- An element is content unless it has the role of a tag. -/
lemma isContent_of_isElement {c : NodeId} (hc : (t.kind c).isElement = true)
    (hrole : t.role c ≠ some .openTag ∧ t.role c ≠ some .closeTag) : t.isContent c = true := by
  refine Bool.eq_true_of_not_eq_false fun hfalse => ?_
  rcases isContent_eq_false_iff.mp hfalse with h | h | ⟨h, -⟩
  · exact hrole.1 h
  · exact hrole.2 h
  · rw [h] at hc
    cases hc

/-- What is content has not the role of a tag. -/
lemma roles_of_isContent {c : NodeId} (hc : t.isContent c = true) :
    t.role c ≠ some .openTag ∧ t.role c ≠ some .closeTag := by
  constructor
  · intro h
    rw [isContent_eq_false_iff.mpr (.inl h)] at hc
    cases hc
  · intro h
    rw [isContent_eq_false_iff.mpr (.inr (.inl h))] at hc
    cases hc

/-- The search for the only element of an element finds its sole child. -/
theorem Linked.onlyElement?_iff (h : t.Linked) {p c : NodeId} :
    t.onlyElement? p = some c ↔ t.SoleChild p c := by
  constructor
  · intro honly
    rw [onlyElement?] at honly
    split at honly
    · next hkind =>
        split at honly
        · next only hfilter =>
            split at honly
            · next helement =>
                cases honly
                have hc := List.mem_filter.mp (hfilter ▸ List.mem_singleton_self _)
                refine ⟨hkind, hc.1, isElement_iff.mp helement, roles_of_isContent hc.2,
                  fun d hd hne => isContent_eq_false_iff.mp ?_⟩
                refine Bool.eq_false_of_not_eq_true fun hcontent => hne ?_
                have hmem := List.mem_filter.mpr ⟨hd, hcontent⟩
                rwa [hfilter, List.mem_singleton] at hmem
            · cases honly
        · cases honly
    · cases honly
  · intro hsole
    have helement := isElement_iff.mpr hsole.kind_child
    refine onlyElement?_eq_some hsole.kind_parent ?_ helement
    -- No child comes twice, so the content is a list of one when it has one element.
    refine List.perm_singleton.mp ((List.perm_ext_iff_of_nodup ((h.nodup p).filter _)
      (List.nodup_singleton c)).mpr fun d => ?_)
    rw [List.mem_filter, List.mem_singleton]
    constructor
    · rintro ⟨hd, hcontent⟩
      by_contra hne
      rw [isContent_eq_false_iff.mpr (hsole.others d hd hne)] at hcontent
      cases hcontent
    · rintro rfl
      exact ⟨hsole.mem, isContent_of_isElement helement hsole.no_tag⟩

lemma Linked.chain_iff (h : t.Linked) {p c : NodeId} : t.Chain p c ↔ t.Descent p c := by
  have hsame : (fun p c => t.onlyElement? p = some c) = t.SoleChild := by
    funext p c
    exact propext h.onlyElement?_iff
  rw [Chain, Descent, hsame]

/-! ### What the searches are for -/

/-- An element has a name that contains a target, without the blanks around it and whatever the case
of either. -/
def NameContains (t : SyntaxTree) (target : String) (c : NodeId) : Prop :=
  ∃ name, t.nameOfElement? c = some name
    ∧ (Text.lowercase (Text.trim target)).toList <:+: (Text.lowercase name).toList

/-- An element is named `wrapper`, and along its sole children there is one whose name contains a
target that says something. -/
def Wraps (t : SyntaxTree) (e : NodeId) (wrapper target : String) : Prop :=
  Text.trim target ≠ "" ∧ t.nameOfElement? e = some wrapper
    ∧ ∃ c, t.Descent e c ∧ t.NameContains target c

/-- A node is reached along sole children from an element named `wrapper`. -/
def Encloses (t : SyntaxTree) (wrapper : String) (d : NodeId) : Prop :=
  ∃ e, t.nameOfElement? e = some wrapper ∧ t.Descent e d

/-- Whatever is found below a wrapper is enclosed by it. -/
theorem Wraps.encloses {e c : NodeId} {wrapper target : String} (h : t.Wraps e wrapper target)
    (hc : t.Descent e c) : t.Encloses wrapper c :=
  ⟨e, h.2.1, hc⟩

lemma nameOfElement?_of_size_le {e : NodeId} (he : t.size ≤ e) : t.nameOfElement? e = none := by
  rw [nameOfElement?, tagOfElement?, kind_of_size_le he]
  rfl

/-- The test on names is what it says. -/
lemma nameContains_iff {target : String} {c : NodeId} :
    (t.nameOfElement? c).any (nameContains · (needle target)) = true
      ↔ t.NameContains target c := by
  rw [NameContains, Option.any_eq_true]
  refine exists_congr fun name => and_congr_right fun _ => ?_
  rw [nameContains, Text.contains_iff, needle]

/-- The search down from an element. -/
theorem Linked.wraps_iff_wraps (h : t.Linked) (e : NodeId) (wrapper target : String) :
    t.wraps e wrapper target = true ↔ t.Wraps e wrapper target := by
  rcases Nat.lt_or_ge e t.size with he | he
  · rw [h.wraps_iff he, Wraps]
    simp only [nameContains_iff, h.chain_iff, ne_eq, needle_eq_empty_iff]
  · rw [wraps, Wraps, nameOfElement?_of_size_le he]
    simp

/-- The search up from a node. -/
theorem Linked.isInside_iff_encloses (h : t.Linked) (d : NodeId) (wrapper : String) :
    t.isInside d wrapper = true ↔ t.Encloses wrapper d := by
  rw [h.isInside_iff, Encloses]
  simp only [h.chain_iff, and_comm]

/-- The searches for wrappers find what they are for, and agree. -/
structure SearchesAgree (t : SyntaxTree) : Prop where
  wraps_iff : ∀ e wrapper target, t.wraps e wrapper target = true ↔ t.Wraps e wrapper target
  isInside_iff : ∀ d wrapper, t.isInside d wrapper = true ↔ t.Encloses wrapper d
  isInside_of_wraps : ∀ e wrapper target, t.wraps e wrapper target = true →
    ∀ c, t.Descent e c → t.NameContains target c → t.isInside c wrapper = true

/-- In every linked tree the search from above and the one from below agree. -/
theorem Linked.searchesAgree (h : t.Linked) : t.SearchesAgree where
  wraps_iff := h.wraps_iff_wraps
  isInside_iff := h.isInside_iff_encloses
  isInside_of_wraps := fun e wrapper target hwraps _ hc _ =>
    (h.isInside_iff_encloses _ wrapper).mpr
      (((h.wraps_iff_wraps e wrapper target).mp hwraps).encloses hc)

/-! ### Further changes -/

/-- The modules that further imports lead to, and modifications at points of the module. -/
inductive Onward (t : SyntaxTree) : SyntaxTree → Prop where
  | refl : Onward t t
  | requireImport {t' : SyntaxTree} (settings : TransformSettings) : Onward t t' →
      Onward t (t'.requireImport settings).2
  | applyAt {t' : SyntaxTree} (settings : TransformSettings) (m : Modification) {point : Point} :
      Onward t t' → t'.Holds point → Onward t (t'.applyAt settings m point).2

/-- Further changes keep a module. -/
theorem Onward.keeps (ho : Onward t t') (h : t.Shaped) : Keeps t t' := by
  induction ho with
  | refl => exact .refl h
  | requireImport settings _ ih => exact ih.trans (keeps_requireImport ih.shaped settings)
  | applyAt settings m _ hp ih =>
      exact ih.trans ((ih.shaped.toDocument.step_applyAt settings m hp).keeps ih.shaped hp)

namespace Keeps

variable (hk : Keeps t t')
include hk

/-- A name stays as the tree goes on. -/
lemma nameOfElement? {e : NodeId} {name : String} (he : t.nameOfElement? e = some name) :
    t'.nameOfElement? e = some name := by
  have hlt : e < t.size := by
    by_contra hge
    rw [nameOfElement?_of_size_le (Nat.not_lt.mp hge)] at he
    cases he
  rw [hk.grows.nameOfElement?_eq e hlt, he]

variable (h : t.Shaped)
include h

lemma descent {p c : NodeId} (hc : t.Descent p c) : t'.Descent p c :=
  hk.shaped.toLinked.chain_iff.mp (hk.grows.chain (h.toLinked.chain_iff.mpr hc))

/-- What wraps an element goes on to do so. -/
lemma wraps {e : NodeId} {wrapper target : String} (hw : t.Wraps e wrapper target) :
    t'.Wraps e wrapper target := by
  obtain ⟨htarget, hname, c, hc, name, hcname, hcontains⟩ := hw
  exact ⟨htarget, hk.nameOfElement? hname, c, hk.descent h hc, name, hk.nameOfElement? hcname,
    hcontains⟩

/-- What is enclosed stays so. -/
lemma encloses {wrapper : String} {d : NodeId} (hd : t.Encloses wrapper d) :
    t'.Encloses wrapper d := by
  obtain ⟨e, hname, hc⟩ := hd
  exact ⟨e, hk.nameOfElement? hname, hk.descent h hc⟩

end Keeps

/-- In a module that was reached from one that obeys the grammar, the search down from an element
finds that it is a wrapper exactly if along its sole children there is an element of the kind that
is looked for, and the search up from a node finds a wrapper exactly if the node is reached from one
along sole children; so what the one finds is inside for the other. Whatever is changed afterwards,
both find again what they found. -/
theorem Reached.searches_agree {source : List Char} {tree : Syntax.Cst}
    (h : Reached source tree t) (htree : tree.Grammatical) :
    t.SearchesAgree ∧ ∀ t', Onward t t' →
      (∀ e wrapper target, t.wraps e wrapper target = true → t'.wraps e wrapper target = true)
        ∧ ∀ d wrapper, t.isInside d wrapper = true → t'.isInside d wrapper = true := by
  have hs := h.shaped htree
  have hagree := hs.toLinked.searchesAgree
  refine ⟨hagree, fun t' ho => ?_⟩
  have hk := ho.keeps hs
  have hagree' := hk.shaped.toLinked.searchesAgree
  exact ⟨fun e wrapper target hw =>
      (hagree'.wraps_iff e wrapper target).mpr
        (hk.wraps hs ((hagree.wraps_iff e wrapper target).mp hw)),
    fun d wrapper hd =>
      (hagree'.isInside_iff d wrapper).mpr (hk.encloses hs ((hagree.isInside_iff d wrapper).mp hd))⟩

/-- A wrapper that was put around the only tag of a module is found from above and from below. -/
theorem searches_agree_soleTag :
    let t := ((ofConcrete "<a x='b'/>".toList soleTag).applyAtAll {} ⟨"a", .wrapElement, "w"⟩
      [.openingTag ⟨1, 1, "a", some ⟨1, 1⟩⟩]).2
    (soleTag.Grammatical ∧ t.wraps 9 "w" " A" = true ∧ t.isInside 1 "w" = true)
      ∧ t.SearchesAgree ∧ ∀ t', Onward t t' →
        (∀ e wrapper target, t.wraps e wrapper target = true → t'.wraps e wrapper target = true)
          ∧ ∀ d wrapper, t.isInside d wrapper = true → t'.isInside d wrapper = true := by
  intro t
  have htree : soleTag.Grammatical := by decide +kernel
  have hmem : .openingTag ⟨1, 1, "a", some ⟨1, 1⟩⟩
      ∈ (ofConcrete "<a x='b'/>".toList soleTag).points [] ⟨"a", .wrapElement, "w"⟩ := by
    decide +kernel
  have ht : Reached "<a x='b'/>".toList soleTag t :=
    .applyAtAll {} _ .read (List.forall_mem_singleton.mpr (holds_of_mem_points hmem))
  exact ⟨⟨htree, by decide +kernel, by decide +kernel⟩, ht.searches_agree htree⟩

end Restyle.SyntaxTree
