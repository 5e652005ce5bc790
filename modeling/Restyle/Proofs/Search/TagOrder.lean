import Restyle.Proofs.Change.Splice
import Restyle.Proofs.Text.Words
import Restyle.Proofs.Tree.Preorder

/-!
The tags that a search by name finds, in their order.

* `Names`: a node is a tag whose name contains a target, whatever the case of either;
* `FindsTags`, `Document.findsTags`: the search finds all tags of the module that are so named, each
  once, in the order in which the walk down from the root meets them, and with their elements.
-/

namespace Restyle

/-! ### Targets that say nothing -/

namespace Text

/-- Every character has a lower case. -/
lemma lowerChar_ne_nil (c : Char) : lowerChar c ≠ [] := by
  rw [lowerChar]
  split
  · exact List.cons_ne_nil _ _
  · split
    · exact List.cons_ne_nil _ _
    · dsimp only
      split <;> exact List.cons_ne_nil _ _

/-- Only the empty text has no small letters. -/
lemma lowercase_eq_empty_iff {s : String} : lowercase s = "" ↔ s = "" := by
  refine ⟨fun h => ?_, fun h => by rw [h]; rfl⟩
  have hnil : lowerFrom [] s.toList = [] := by
    have := congrArg String.toList h
    rwa [lowercase, String.toList_ofList] at this
  cases hs : s.toList with
  | nil => exact String.toList_inj.mp hs
  | cons c cs =>
      rw [hs, lowerFrom, List.append_eq_nil_iff] at hnil
      exfalso
      have hhead := hnil.1
      split at hhead
      · exact List.cons_ne_nil _ _ hhead
      · exact lowerChar_ne_nil c hhead

end Text

namespace SyntaxTree

variable {t : SyntaxTree}

lemma needle_eq_empty_iff {target : String} : needle target = "" ↔ Text.trim target = "" :=
  Text.lowercase_eq_empty_iff

/-! ### What is found -/

/-- A node is a tag with a name that contains a target, without the blanks around it and whatever
the case of either. -/
def Names (t : SyntaxTree) (target : String) (id : NodeId) : Prop :=
  (t.kind id = .openingTag ∨ t.kind id = .selfClosingElement)
    ∧ ∃ name, t.childIn? id .name = some name
      ∧ (Text.lowercase (Text.trim target)).toList <:+: (Text.lowercase (t.text name)).toList

/-- A tag is described as it stands in the tree, and belongs to the element that it opens or is. -/
structure Describes (t : SyntaxTree) (tag : Tag) : Prop where
  name : ∃ name, t.childIn? tag.node .name = some name ∧ tag.name = t.text name
  position : tag.position = (t.node tag.node).position
  element : t.kind tag.node = .selfClosingElement ∧ tag.element = tag.node
    ∨ t.kind tag.node = .openingTag ∧ t.parent tag.node = some tag.element

/-- A search finds the tags that are named so, in the order of the walk down from the root. -/
structure FindsTags (t : SyntaxTree) (target : String) : Prop where
  nothing : Text.trim target = "" → t.tagsNamed target = []
  mem_iff : Text.trim target ≠ "" → ∀ id,
    id ∈ (t.tagsNamed target).map Tag.node ↔ id ∈ t.descendants root ∧ t.Names target id
  in_order : ((t.tagsNamed target).map Tag.node).Sublist (t.descendants root)
  nodup : ((t.tagsNamed target).map Tag.node).Nodup
  describes : ∀ tag ∈ t.tagsNamed target, t.Describes tag

lemma isTag_iff {kind : NodeKind} :
    kind.isTag = true ↔ kind = .openingTag ∨ kind = .selfClosingElement := by
  cases kind <;> decide

/-- The tags are found along the walk. -/
lemma tagsNamed_sublist (t : SyntaxTree) (target : String) :
    ((t.tagsNamed target).map Tag.node).Sublist (t.descendants root) := by
  rw [tagsNamed]
  split
  · exact List.nil_sublist _
  · have hnode : ∀ id, ∀ tag ∈ (t.tagAt? id).filter fun m =>
        nameContains m.name (needle target), tag.node = id := fun id tag htag => by
      obtain ⟨name, element, -, -, rfl⟩ := tagAt?_eq_some.mp (Option.filter_eq_some_iff.mp htag).1
      rfl
    refine .trans ?_ (List.filter_sublist (p := fun id => (t.kind id).isTag))
    generalize (t.descendants root).filter (fun id => (t.kind id).isTag) = ids
    induction ids with
    | nil => exact List.nil_sublist _
    | cons id ids ih =>
        rw [List.filterMap_cons]
        split
        · exact ih.cons id
        · next tag htag =>
            rw [List.map_cons, hnode id tag htag]
            exact ih.cons_cons id

/-- A tag in the module opens an element there, or is one. -/
lemma Located.describes {tag : Tag} (htag : t.Located tag) : t.Describes tag := by
  obtain ⟨name, element, hname, helement, heq⟩ := tagAt?_eq_some.mp htag.tagAt
  have hel : tag.element = element := congrArg Tag.element heq
  refine ⟨⟨name, hname, congrArg Tag.name heq⟩, congrArg Tag.position heq, ?_⟩
  rw [elementOfTag?] at helement
  split at helement
  · next hkind => exact .inl ⟨hkind, hel.trans (Option.some.inj helement).symm⟩
  · next hkind => exact .inr ⟨hkind, hel ▸ helement⟩
  · cases helement

/-- Every tag of the module that has a name is the tag of an element. -/
lemma Document.exists_tagAt? (h : t.Document) {id name : NodeId} (hid : id ∈ t.descendants root)
    (hkind : (t.kind id).isTag = true) (hname : t.childIn? id .name = some name) :
    ∃ tag, t.tagAt? id = some tag ∧ tag.name = t.text name := by
  suffices ∃ element, t.elementOfTag? id = some element by
    obtain ⟨element, helement⟩ := this
    exact ⟨_, tagAt?_eq_some.mpr ⟨name, element, hname, helement, rfl⟩, rfl⟩
  rw [elementOfTag?]
  rcases isTag_iff.mp hkind with hk | hk
  · rw [hk]
    rcases exists_parent_of_mem_descendants h.toLinked h.root_lt hid with rfl | ⟨p, -, hp⟩
    · rw [h.kind_root] at hk
      cases hk
    · exact ⟨p, h.parent_of_mem hp⟩
  · rw [hk]
    exact ⟨id, rfl⟩

/-- In a document the search finds the tags it is to find, each once and in order. -/
theorem Document.findsTags (h : t.Document) (target : String) : t.FindsTags target where
  nothing := fun htarget => by
    rw [tagsNamed, needle_eq_empty_iff.mpr htarget]
    rfl
  mem_iff := fun htarget id => by
    rw [List.mem_map]
    constructor
    · rintro ⟨tag, htag, rfl⟩
      obtain ⟨-, hlocated, hcontains⟩ := mem_tagsNamed.mp htag
      obtain ⟨name, hname, heq⟩ := hlocated.describes.name
      rw [nameContains, heq, Text.contains_iff] at hcontains
      exact ⟨hlocated.mem, isTag_iff.mp hlocated.isTag, name, hname, hcontains⟩
    · rintro ⟨hid, hkind, name, hname, hcontains⟩
      have htag := isTag_iff.mpr hkind
      obtain ⟨tag, hat, heq⟩ := h.exists_tagAt? hid htag hname
      have hnode : tag.node = id := by
        obtain ⟨_, _, -, -, rfl⟩ := tagAt?_eq_some.mp hat
        rfl
      subst hnode
      refine ⟨tag, mem_tagsNamed.mpr ⟨mt needle_eq_empty_iff.mp htarget, ⟨hid, htag, hat⟩, ?_⟩, rfl⟩
      rw [nameContains, heq, Text.contains_iff]
      exact hcontains
  in_order := tagsNamed_sublist t target
  nodup := (tagsNamed_sublist t target).nodup (descendants_nodup h.toLinked h.root_lt)
  describes := fun _ htag => (mem_tagsNamed.mp htag).2.1.describes

/-! ### Modules -/

/-- After any number of imports and modifications, the walk down from the root meets the nodes that
the root reaches, each once and in document order, and ends; and a search by name finds the tags
that are named so, in that order. -/
theorem Reachable.findsTags_inOrder {source : List Char} {tree : Syntax.Cst}
    (h : Reachable source tree t) :
    (∀ ids, t.Yields [root] ids ↔ ids = t.descendants root)
      ∧ t.DocumentOrder root (t.descendants root) ∧ ∀ target, t.FindsTags target :=
  ⟨fun _ => h.document.toLinked.acyclic.yields_iff,
    h.document.toLinked.documentOrder h.document.root_lt, h.document.findsTags⟩

/-- A wrapper is found in front of the tag that it was put around. -/
theorem findsTags_inOrder_soleTag :
    let u := ((ofConcrete "<a x='b'/>".toList soleTag).applyAt {} ⟨"a", .wrapElement, "wa"⟩
      (.openingTag ⟨1, 1, "a", some ⟨1, 1⟩⟩)).2
    (Reachable "<a x='b'/>".toList soleTag u ∧ u.render = "<wa><a x='b'/></wa>"
        ∧ (u.tagsNamed " A ").map Tag.node = [10, 1])
      ∧ (∀ ids, u.Yields [root] ids ↔ ids = u.descendants root)
      ∧ u.DocumentOrder root (u.descendants root) ∧ ∀ target, u.FindsTags target := by
  intro u
  have hu : Reachable "<a x='b'/>".toList soleTag u := .applyAt _ _ _ .read
  exact ⟨⟨hu, by decide +kernel, by decide +kernel⟩, hu.findsTags_inOrder⟩

end SyntaxTree

end Restyle
