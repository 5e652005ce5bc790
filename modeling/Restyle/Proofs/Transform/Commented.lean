import Restyle.Proofs.Transform.Reread
import Restyle.Syntax.Lexeme

/-!
New attributes behind comments.

* `isLineComment`, `comment_append`: how far a line comment reaches once more text stands behind it;
* `breaksLine_attributeGap`: whether there is a line break in the layout that is written before a
  new attribute;
* `ReadsComment`: a comment that is read where a node is written;
* `Reachable.comment_before_attribute`: a line comment that a new attribute stands behind takes the
  attribute into it when it is read again, unless there is a line break before the last attribute
  that the tag had.
-/

namespace Restyle

namespace Syntax.Lexeme

/-! ### Line comments -/

/-- Whether a line ends in a text, as far as comments are concerned. -/
def breaksLine (s : String) : Bool :=
  s.toList.any endsLine

/-- Whether a text is a comment up to the end of its line. -/
def isLineComment (s : String) : Bool :=
  match s.toList with
  | '/' :: '/' :: body => !body.any endsLine
  | _ => false

variable {s : String}

/-- What stands on a line is passed as a whole. -/
lemma takeWhile_append_of_not_breaksLine (h : breaksLine s = false) (rest : List Char) :
    (s.toList ++ rest).takeWhile (fun c => !endsLine c)
      = s.toList ++ rest.takeWhile fun c => !endsLine c := by
  rw [breaksLine, List.any_eq_false] at h
  exact List.takeWhile_append_of_pos fun c hc => by simpa using h c hc

/-- What a line ends in is not passed. -/
lemma length_takeWhile_of_breaksLine (h : breaksLine s = true) (rest : List Char) :
    ((s.toList ++ rest).takeWhile fun c => !endsLine c).length < s.length := by
  rw [breaksLine, List.any_eq_true] at h
  obtain ⟨c, hc, hends⟩ := h
  have hne : s.toList.takeWhile (fun c => !endsLine c) ≠ s.toList := fun heq => by
    have := List.takeWhile_eq_self_iff.mp heq c hc
    rw [hends] at this
    cases this
  have hfront := List.takeWhile_prefix (l := s.toList) fun c => !endsLine c
  have hlt : (s.toList.takeWhile fun c => !endsLine c).length < s.toList.length :=
    Nat.lt_of_le_of_ne hfront.length_le fun heq => hne (hfront.eq_of_length heq)
  rw [List.takeWhile_append, if_neg hlt.ne, ← String.length_toList]
  exact hlt

/-- A line comment goes on in what stands behind it, up to the next end of a line. -/
lemma comment_append (h : isLineComment s = true) (rest : List Char) :
    comment (s.toList ++ rest)
      = some (s.length + (rest.takeWhile fun c => !endsLine c).length) := by
  rw [isLineComment] at h
  split at h
  · next body hs =>
      have hall : ∀ c ∈ body, (!endsLine c) = true := by simpa using h
      rw [← String.length_toList, hs, List.cons_append, List.cons_append, comment,
        List.takeWhile_append_of_pos hall, List.length_append, List.length_cons, List.length_cons]
      congr 1
      omega
  · cases h

/-- A line comment ends in the layout behind it if this has a line break, and takes in the line that
stands behind it otherwise. -/
lemma exists_comment_append (h : isLineComment s = true) (gap : String) {line : String}
    (hline : breaksLine line = false) (rest : String) :
    ∃ n, comment (s ++ gap ++ line ++ rest).toList = some n
      ∧ if breaksLine gap then n < (s ++ gap).length else (s ++ gap ++ line).length ≤ n := by
  simp only [String.toList_append, List.append_assoc, String.length_append]
  refine ⟨_, comment_append h _, ?_⟩
  split
  · next hgap =>
      exact Nat.add_lt_add_left (length_takeWhile_of_breaksLine hgap _) _
  · next hgap =>
      rw [takeWhile_append_of_not_breaksLine (by simpa using hgap),
        takeWhile_append_of_not_breaksLine hline, List.length_append, List.length_append,
        String.length_toList, String.length_toList]
      omega

/-- A name with an equals sign behind it stands on one line. -/
lemma breaksLine_name {n : String} (h : isMarkupName n = true) : breaksLine (n ++ "=") = false := by
  rw [breaksLine, String.toList_append, List.any_append, Bool.or_eq_false_iff, List.any_eq_false]
  refine ⟨fun c hc hends => ?_, by decide⟩
  have hchar := (isMarkupName_spec h).2 c hc
  simp only [endsLine, Bool.or_eq_true, decide_eq_true_eq] at hends
  rcases hends with (((rfl | rfl) | rfl) | rfl) | rfl
  all_goals exact absurd hchar (by decide)

end Syntax.Lexeme

namespace SyntaxTree

open Syntax.Lexeme (breaksLine isLineComment exists_comment_append breaksLine_name)

variable {t t' : SyntaxTree}

/-! ### Layout before new attributes -/

/-- The layout before a new attribute has a line break exactly if that before the last attribute has
one. -/
lemma breaksLine_attributeGap (t : SyntaxTree) (tag : NodeId) :
    breaksLine (t.attributeGap tag) = (t.lastAttributeGap? tag).any breaksLine := by
  rw [attributeGap]
  cases t.lastAttributeGap? tag with
  | none => rfl
  | some gap =>
      rw [Option.any_some]
      dsimp only
      split
      · next hempty =>
          rw [String.isEmpty_iff.mp hempty]
          rfl
      · rfl

/-! ### Comments that are read again -/

/-- A comment of `n` characters is read where a node is written, with `behind` behind it. -/
def ReadsComment (t : SyntaxTree) (x : NodeId) (behind : String) (n : Nat) : Prop :=
  ∃ pre post, t.Spot x pre (behind ++ post)
    ∧ Syntax.Lexeme.comment (t.render.toList.drop pre.length) = some n

/-- A line comment is read where it is written, and the layout behind it decides how far it
reaches. -/
lemma WellFormed.exists_readsComment (h : t.WellFormed) {x : NodeId}
    {pre gap line more rest : String} (hspot : t.Spot x pre (gap ++ (line ++ more) ++ rest))
    (hx : isLineComment (t.text x) = true) (hline : breaksLine line = false) :
    ∃ n, t.ReadsComment x (gap ++ (line ++ more)) n
      ∧ if breaksLine gap then n < (t.text x ++ gap).length
        else (t.text x ++ gap ++ line).length ≤ n := by
  have hdrop : t.render.toList.drop pre.length
      = (t.text x ++ gap ++ line ++ (more ++ rest)).toList := by
    rw [hspot.render_eq h]
    simp only [String.toList_append, List.append_assoc, ← String.length_toList, List.drop_left]
  obtain ⟨n, hcomment, hn⟩ := exists_comment_append hx gap hline (more ++ rest)
  exact ⟨n, ⟨pre, rest, hspot, hdrop ▸ hcomment⟩, hn⟩

/-- What stands directly in front of a new attribute is followed by its layout and by itself. -/
lemma Grafted.spot_before {name value gap : String} {tag : NodeId} {l r : List Slot}
    (hg : Grafted t t' (attributeRow t.size name value) tag l r r gap) (h : t.WellFormed)
    (htag : tag ∈ t.descendants root) {slot : Slot} (hlast : l.getLast? = some slot) :
    t'.text slot.child = t.text slot.child
      ∧ ∃ pre rest, t'.Spot slot.child pre (gap ++ (name ++ "=" ++ quoted '"' value) ++ rest) := by
  obtain ⟨init, rfl⟩ := List.getLast?_eq_some_iff.mp hlast
  obtain ⟨pre, post, hspot⟩ := h.exists_spot htag
  have hslots := congrArg Node.slots
    (hg.node_old tag (lt_size_of_mem_descendants h.toLinked h.root_lt htag))
  rw [if_pos rfl, List.append_assoc, List.singleton_append] at hslots
  have hmem : slot.child ∈ t.children tag := by
    rw [children, Node.children, hg.slots_eq]
    simp
  have hat := (hg.onlyAt.spot h hg.wellFormed hspot).child hslots
  rw [rowText_cons, hg.text_top rfl rfl rfl, piecesText_attribute, String.append_assoc,
    String.append_assoc] at hat
  exact ⟨hg.onlyAt.text_child h hg.wellFormed hmem, _, _, hat⟩

/-- A new attribute goes in front of the token that ends the attributes of its tag, with a line
break before it exactly if there is one before the last attribute that the tag has. Where a line
comment stands directly in front of it, the comment that is read there ends in the layout before the
attribute in this case, and takes in the name of the attribute otherwise. -/
theorem Reachable.comment_before_attribute {source : List Char} {tree : Syntax.Cst}
    (h : Reachable source tree t) {tag : NodeId} (htag : tag ∈ t.descendants root)
    {value : String} {synthesize : Bool} {assigned : Assignment}
    (hof : Assignment.ofText? value = some assigned)
    (hnone : t.attribute? tag assigned.name = none)
    (hadd : t.addProp tag value synthesize = (.applied, t')) :
    ∃ front behind gap, (t.node tag).slots = front ++ behind
      ∧ t.attributesEnd? tag = some front.length
      ∧ (t'.node tag).slots = front ++ ⟨gap, t.size⟩ :: behind
      ∧ breaksLine gap = (t.lastAttributeGap? tag).any breaksLine
      ∧ ∀ slot, front.getLast? = some slot → isLineComment (t.text slot.child) = true →
        ∃ n, t'.ReadsComment slot.child
            (gap ++ (assigned.name ++ "=" ++ quoted '"' assigned.value)) n
          ∧ if breaksLine gap then n < (t.text slot.child ++ gap).length
            else (t.text slot.child ++ gap ++ (assigned.name ++ "=")).length ≤ n := by
  have hw := h.document.toWellFormed
  rw [addProp, hof] at hadd
  dsimp only at hadd
  rw [hnone] at hadd
  dsimp only at hadd
  split at hadd
  · rcases insertAttribute_cases hw tag assigned with ⟨-, heq⟩ | ⟨i, hi, -, hg⟩
    · rw [heq] at hadd
      cases hadd
    · rw [hadd] at hg
      obtain ⟨hlt, hlen⟩ := lt_size_of_attributesEnd? hi
      have hslots := congrArg Node.slots (hg.node_old tag hlt)
      rw [if_pos rfl] at hslots
      refine ⟨_, _, t.attributeGap tag, (List.take_append_drop i _).symm, by rw [hlen]; exact hi,
        hslots, breaksLine_attributeGap t tag, fun slot hlast hcomment => ?_⟩
      -- The comment's text is the one before, with the gap and the new attribute right behind it.
      obtain ⟨htext, pre, rest, hspot⟩ := hg.spot_before hw htag hlast
      rw [← htext] at hcomment ⊢
      exact hg.wellFormed.exists_readsComment hspot hcomment
        (breaksLine_name (ofText?_spec hof).1)
  · cases hadd

/-- The concrete tree of a tag with an attribute on its second line, and with a comment behind
it. -/
def brokenTag : Syntax.Cst :=
  .node (.named .program) none 0 13
    [.node (.named .selfClosingElement) none 0 13
      [.node (.token "<") none 0 1 [], .node (.named .identifier) (some .name) 1 2 [],
        .node (.named .attribute) (some .attribute) 3 8
          [.node (.named .propertyName) none 3 4 [], .node (.token "=") none 4 5 [],
            .node (.named .string) none 5 8 []],
        .node (.named .comment) none 8 10 [], .node (.token "/>") none 11 13 []]]

/-- The line break before the attribute is written before the new one, so that the comment does not
take it in. -/
theorem comment_before_attribute_brokenTag :
    let t := ofConcrete "<a\nx='1'//\n/>".toList brokenTag
    let r := t.addProp 1 "y=2" true
    brokenTag.Grammatical ∧ t.text 8 = "//" ∧ r.1 = .applied
      ∧ r.2.render = "<a\nx='1'//\ny=\"2\"\n/>"
      ∧ ∃ front behind gap, (t.node 1).slots = front ++ behind
        ∧ t.attributesEnd? 1 = some front.length
        ∧ (r.2.node 1).slots = front ++ ⟨gap, t.size⟩ :: behind
        ∧ breaksLine gap = (t.lastAttributeGap? 1).any breaksLine
        ∧ ∀ slot, front.getLast? = some slot → isLineComment (t.text slot.child) = true →
          ∃ n, r.2.ReadsComment slot.child (gap ++ ("y" ++ "=" ++ quoted '"' "2")) n
            ∧ if breaksLine gap then n < (t.text slot.child ++ gap).length
              else (t.text slot.child ++ gap ++ ("y" ++ "=")).length ≤ n := by
  intro t r
  have hof : Assignment.ofText? "y=2" = some ⟨"y", "2"⟩ := by decide +kernel
  have hnone : t.attribute? 1 "y" = none := by decide +kernel
  have happ : r.1 = .applied := by decide +kernel
  have hadd : r = (.applied, r.2) := happ ▸ (Prod.eta r).symm
  have hreached : Reachable _ brokenTag t := .read
  have hcomment := hreached.comment_before_attribute (by decide +kernel) hof hnone hadd
  exact ⟨by decide +kernel, by decide +kernel, happ, by decide +kernel, hcomment⟩

/-- Where a tag has no attribute, the new one is written on the line of the comment, and is read as
part of it. -/
theorem comment_takes_attribute_commentedTag :
    let t := ofConcrete "<a//\n/>".toList (Restyled.commentedTag 4)
    let r := t.addProp 2 "x=1" true
    (Restyled.commentedTag 4).Grammatical ∧ t.text 5 = "//" ∧ r.1 = .applied
      ∧ (r.2.node 2).slots = [⟨"", 3⟩, ⟨"", 4⟩, ⟨"", 5⟩, ⟨" ", 7⟩, ⟨"\n", 6⟩]
      ∧ r.2.text 7 = "x=\"1\"" ∧ breaksLine " " = false
      ∧ r.2.render = "<a// x=\"1\"\n/>"
      ∧ Syntax.Lexeme.comment (r.2.render.toList.drop 2) = some "// x=\"1\"".length := by
  decide +kernel

end SyntaxTree

end Restyle
