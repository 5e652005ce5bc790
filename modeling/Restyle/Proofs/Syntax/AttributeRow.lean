import Restyle.Proofs.Syntax.Scope

/-!
The children of an attribute, as the grammar has them.

* `Cst.AttributeRow`: a name, alone or with comments, an equals sign, comments and a value behind
  it;
* `Reads.attributeRow`: what is read as an attribute is such a row;
* `Grown.attributeRow`: so are the children of every attribute in what the grammar reads.
-/

namespace Restyle.Syntax

open Grammar SyntaxTree

namespace Cst

/-- A comment, of either form. -/
def isComment (tree : Cst) : Bool :=
  tree.label = .named .comment || tree.label = .named .markupComment

/-- The children of an attribute: its name, and behind an equals sign its value, with comments on
both sides of the sign. A string has the same quote at both ends. -/
inductive AttributeRow (source : List Char) : List Cst → Prop
  | bare {name : Cst} (hname : name.label.isNamed = true) : AttributeRow source [name]
  | assigned {name equals value : Cst} {before after : List Cst}
    (hname : name.label.isNamed = true) (hbefore : ∀ c ∈ before, c.isComment = true)
    (hequals : equals.label = .token "=") (hrole : equals.role = none)
    (hspelled : slice source equals.start equals.stop = "=")
    (hafter : ∀ c ∈ after, c.isComment = true) (hvalue : value.label.isNamed = true)
    (hplain : value.isComment = false)
    (hquoted : value.label.kind = .stringLiteral →
      (quotationOf? (slice source value.start value.stop)).isSome = true) :
    AttributeRow source (name :: (before ++ equals :: (after ++ [value])))

end Cst

open Cst

variable {reserved : String → Bool} {name : Option Construct} {role : Option Role} {r : Rule}
  {place : Nat} {text rest : List Char} {trees : List Cst} {c : Construct}

/-- All the trees that layout has are comments. -/
lemma Layout.label_eq (h : Layout place text rest trees) :
    ∀ t ∈ trees, t.label = .named .comment := by
  induction h with
  | nothing => exact fun t ht => nomatch ht
  | blank _ _ ih => exact ih
  | comment _ _ ih => exact List.forall_mem_cons.mpr ⟨rfl, ih⟩

lemma isComment_of_label_eq {tree : Cst} (h : tree.label = .named .comment) :
    tree.isComment = true := by
  rw [isComment, h]
  rfl

lemma slice_middle (front text rest : List Char) :
    slice (front ++ (text ++ rest)) front.length (front.length + text.length)
      = String.ofList text := by
  rw [slice, List.drop_left, Nat.add_sub_cancel_left, List.take_left]

/-- Two rows are the same behind the comments in front of them. -/
lemma eq_of_behind_comments {comments others children : List Cst} {first : Cst}
    {more : List Cst} (h : comments ++ children = others ++ first :: more)
    (hcomments : ∀ t ∈ comments, t.label = .named .comment)
    (hchildren : ∀ t ∈ children.head?, t.label ≠ .named .comment)
    (hothers : ∀ t ∈ others, t.label = .named .comment)
    (hfirst : first.label ≠ .named .comment) : children = first :: more := by
  -- By induction on the comments: both lists have them in front, and the first tree that is none
  -- is in the same place.
  induction comments generalizing others with
  | nil =>
      cases others with
      | nil => exact h
      | cons t others =>
          rw [List.nil_append] at h
          exact absurd (hothers t List.mem_cons_self) (hchildren t (by rw [h]; rfl))
  | cons t comments ih =>
      obtain ⟨ht, hcomments⟩ := List.forall_mem_cons.mp hcomments
      cases others with
      | nil =>
          rw [List.cons_append, List.nil_append, List.cons.injEq] at h
          exact absurd (h.1 ▸ ht) hfirst
      | cons t' others =>
          rw [List.cons_append, List.cons_append, List.cons.injEq] at h
          exact ih h.2 hcomments (List.forall_mem_cons.mp hothers).2

namespace Reads

/-- The tree of a token, behind comments. -/
lemma of_token_tree {takesLayout : Bool} {scan : Scan}
    (hscan : tokenScan? (reservedAs reserved name) c = some (takesLayout, scan))
    (h : Reads reserved name role (.the c) place text rest trees) :
    ∃ comments start stop, trees = comments ++ [.node (tokenLabel name c) role start stop []]
      ∧ ∀ t ∈ comments, t.label = .named .comment := by
  obtain ⟨_, _, comments, _, hlayout, _, _, htrees⟩ := h.of_token hscan
  exact ⟨comments, _, _, htrees, hlayout.label_eq⟩

/-- The tree of a spelling, behind comments. -/
lemma of_spelled_tree {spelling : String}
    (h : Reads reserved none role (.spelled spelling) place text rest trees) :
    ∃ layout comments, text = layout ++ spelling.toList
      ∧ trees = comments ++ [.node (.token spelling) role (place + layout.length)
        (place + layout.length + spelling.length) []]
      ∧ ∀ t ∈ comments, t.label = .named .comment ∧ t.role = none := by
  cases h with
  | spelled hlayout _ =>
      refine ⟨_, _, rfl, rfl, fun t ht => ?_⟩
      obtain ⟨start, stop, rfl⟩ := hlayout.eq_comment t ht
      exact ⟨rfl, rfl⟩

/-- The name of an attribute is read as one node, behind comments. -/
lemma of_attributeName
    (h : Reads reserved none role (.the .attributeName) place text rest trees) :
    ∃ comments node, trees = comments ++ [node] ∧ (∀ t ∈ comments, t.label = .named .comment)
      ∧ node.label.isNamed = true ∧ node.label ≠ .named .comment := by
  rcases alt_iff.mp (h.of_inlined (r := _) rfl rfl) with h | h
  · rw [shown_iff] at h
    rcases alt_iff.mp (h.of_inlined (r := _) rfl rfl) with h | h
    · rw [shown_iff] at h
      obtain ⟨comments, start, stop, rfl, hcomments⟩ := h.of_token_tree rfl
      exact ⟨comments, _, rfl, hcomments, rfl, nofun⟩
    · obtain ⟨comments, start, stop, rfl, hcomments⟩ := h.of_token_tree rfl
      exact ⟨comments, _, rfl, hcomments, rfl, nofun⟩
  · obtain ⟨comments, children, rfl, -, hcomments, -⟩ := h.of_shows rfl rfl rfl
    exact ⟨comments, _, rfl, hcomments, rfl, nofun⟩

/-- What is read between two spellings starts and ends with them, behind layout. -/
lemma of_enclosed {items : Rule} {spelling : String} {comments children : List Cst}
    (h : Reads reserved none none (.seq (.seq (.spelled spelling) items) (.spelled spelling))
      place text rest (comments ++ children))
    (hcomments : ∀ t ∈ comments, t.label = .named .comment)
    (hhead : ∀ t ∈ children.head?, t.label ≠ .named .comment) (otherwise : Nat) :
    ∃ layout inner, text = layout ++ (spelling.toList ++ (inner ++ spelling.toList))
      ∧ (children.head?.map Cst.start).getD otherwise = place + layout.length := by
  obtain ⟨front, _, first, second, rfl, htrees, hfront, hback⟩ := seq_iff.mp h
  obtain ⟨_, inner, opening, items, rfl, rfl, hopening, -⟩ := seq_iff.mp hfront
  obtain ⟨layout, _, rfl, rfl, hlayout⟩ := hopening.of_spelled_tree
  obtain ⟨layout', _, rfl, rfl, -⟩ := hback.of_spelled_tree
  rw [List.append_assoc, List.append_assoc, List.singleton_append] at htrees
  have hchildren := eq_of_behind_comments htrees hcomments hhead
    (fun t ht => (hlayout t ht).1) nofun
  refine ⟨layout, inner ++ layout', by simp only [List.append_assoc], ?_⟩
  rw [hchildren]
  rfl

/-- A string in markup has the same quote at both ends. -/
lemma of_markupString {source front : List Char}
    (h : Reads reserved (some .string) role (.the .markupString) place text rest trees)
    (hsource : source = front ++ (text ++ rest)) (hplace : front.length = place) :
    ∃ comments node, trees = comments ++ [node] ∧ (∀ t ∈ comments, t.label = .named .comment)
      ∧ node.label = .named .string
      ∧ (quotationOf? (slice source node.start node.stop)).isSome = true := by
  obtain ⟨comments, children, rfl, h, hcomments, hhead⟩ := h.of_shows rfl rfl rfl
  refine ⟨comments, _, rfl, hcomments, rfl, ?_⟩
  have hquoted : ∃ layout inner quote, (quote = '"' ∨ quote = '\'')
      ∧ text = layout ++ (quote :: (inner ++ [quote]))
      ∧ (children.head?.map Cst.start).getD (place + text.length) = place + layout.length := by
    rcases alt_iff.mp h with h | h
    · obtain ⟨layout, inner, htext, hstart⟩ := h.of_enclosed hcomments hhead _
      exact ⟨layout, inner, '"', .inl rfl, htext, hstart⟩
    · obtain ⟨layout, inner, htext, hstart⟩ := h.of_enclosed hcomments hhead _
      exact ⟨layout, inner, '\'', .inr rfl, htext, hstart⟩
  obtain ⟨layout, inner, quote, hquote, htext, hstart⟩ := hquoted
  -- The node begins behind the layout, so its slice is the quoted text.
  have hslice : slice source (place + layout.length) (place + text.length)
      = String.ofList (quote :: (inner ++ [quote])) := by
    have hfront : source = (front ++ layout) ++ ((quote :: (inner ++ [quote])) ++ rest) := by
      rw [hsource, htext]
      simp only [List.append_assoc]
    have hstop : place + text.length
        = (front ++ layout).length + (quote :: (inner ++ [quote])).length := by
      rw [htext, ← hplace]
      simp only [List.length_append, Nat.add_assoc]
    rw [hstop, ← hplace, ← List.length_append, hfront, slice_middle]
  show (quotationOf? (slice source ((children.head?.map Cst.start).getD (place + text.length))
    (place + text.length))).isSome = true
  rw [hstart, hslice, quotationOf?, String.toList_ofList]
  rcases hquote with rfl | rfl
  all_goals simp

/-- The value of an attribute is read as one node, behind comments. -/
lemma of_attributeValue {source front : List Char}
    (h : Reads reserved none role (.the .attributeValue) place text rest trees)
    (hsource : source = front ++ (text ++ rest)) (hplace : front.length = place) :
    ∃ comments node, trees = comments ++ [node] ∧ (∀ t ∈ comments, t.label = .named .comment)
      ∧ node.label.isNamed = true ∧ node.isComment = false
      ∧ (node.label.kind = .stringLiteral →
        (quotationOf? (slice source node.start node.stop)).isSome = true) := by
  -- A value is a string or one of the other constructs, none of which is a string.
  rcases alt_iff.mp (h.of_inlined (r := _) rfl rfl) with h | h
  · rw [shown_iff] at h
    obtain ⟨comments, node, htrees, hcomments, hlabel, hquoted⟩ :=
      of_markupString h hsource hplace
    refine ⟨comments, node, htrees, hcomments, ?_, ?_, fun _ => hquoted⟩
    · rw [hlabel]
      rfl
    · rw [isComment, hlabel]
      rfl
  rcases alt_iff.mp h with h | h
  · obtain ⟨comments, children, rfl, -, hcomments, -⟩ := h.of_shows rfl rfl rfl
    exact ⟨comments, _, rfl, hcomments, rfl, rfl, nofun⟩
  rcases alt_iff.mp (h.of_inlined (r := _) rfl rfl) with h | h
  all_goals
    obtain ⟨comments, children, rfl, -, hcomments, -⟩ := h.of_shows rfl rfl rfl
    exact ⟨comments, _, rfl, hcomments, rfl, rfl, nofun⟩

/-- What is read as an attribute is a row of the parts that one has. -/
theorem attributeRow {source front : List Char} {comments children : List Cst}
    (h : Reads reserved none none
      (.seq (.the .attributeName) (.maybe (.seq (.spelled "=") (.the .attributeValue))))
      place text rest (comments ++ children))
    (hcomments : ∀ t ∈ comments, t.label = .named .comment)
    (hhead : ∀ t ∈ children.head?, t.label ≠ .named .comment)
    (hsource : source = front ++ (text ++ rest)) (hplace : front.length = place) :
    AttributeRow source children := by
  obtain ⟨start, more, _, _, rfl, htrees, hname, hmore⟩ := seq_iff.mp h
  obtain ⟨lead, node, rfl, hlead, hnamed, hnot⟩ := hname.of_attributeName
  rw [List.append_assoc, List.singleton_append] at htrees
  obtain rfl := eq_of_behind_comments htrees hcomments hhead hlead hnot
  rcases alt_iff.mp hmore with hmore | hmore
  -- Comments may stand in front of the equals sign and behind it.
  · obtain ⟨sign, value, _, _, rfl, rfl, hsign, hvalue⟩ := seq_iff.mp hmore
    obtain ⟨layout, before, rfl, rfl, hbefore⟩ := hsign.of_spelled_tree
    have hbehind : source = (front ++ start ++ (layout ++ "=".toList)) ++ (value ++ rest) := by
      rw [hsource]
      simp only [List.append_assoc]
    have hbefore' : (front ++ start ++ (layout ++ "=".toList)).length
        = place + start.length + (layout ++ "=".toList).length := by
      rw [List.length_append, List.length_append, hplace]
    have hspelled : slice source (place + start.length + layout.length)
        (place + start.length + layout.length + 1) = "=" := by
      have hsign : source = (front ++ start ++ layout) ++ ("=".toList ++ (value ++ rest)) := by
        rw [hbehind]
        simp only [List.append_assoc]
      have hmiddle := slice_middle (front ++ start ++ layout) "=".toList (value ++ rest)
      rw [← hsign, List.length_append, List.length_append, hplace] at hmiddle
      exact hmiddle
    obtain ⟨after, node', rfl, hafter, hnamed', hplain, hquoted⟩ :=
      hvalue.of_attributeValue hbehind hbefore'
    rw [List.append_assoc, List.singleton_append]
    exact .assigned hnamed (fun t ht => isComment_of_label_eq (hbefore t ht).1) rfl rfl hspelled
      (fun t ht => isComment_of_label_eq (hafter t ht)) hnamed' hplain hquoted
  · obtain ⟨-, rfl⟩ := blank_iff.mp hmore
    exact .bare hnamed

end Reads

/-! ### All attributes of a tree -/

/-- In whatever the grammar reads, the children of an attribute are a row of the parts that one
has. -/
theorem Grown.attributeRow {source : List Char} {tree : Cst} (h : Grown reserved source tree)
    (hkind : tree.label.kind = .attribute) : AttributeRow source tree.children := by
  obtain ⟨-, -, comments, front, text, rest, hsource, hreads, hcomments, hhead⟩ :=
    h.readBy (Label.eq_of_kind (c := .attribute) (by decide) hkind) rfl (by decide)
  exact hreads.attributeRow hcomments hhead hsource rfl

end Restyle.Syntax
