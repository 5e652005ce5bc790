import Restyle.Proofs.Change.Reached
import Restyle.Proofs.Transform.Twice

/-!
Setting a property changes one attribute of a tag.

* `Intact`: a node that is as before, with all that lies under it;
* `Seated`: an attribute that was among the children of a tag, or joined them where its attributes
  end;
* `Assigned`: what a tag is once an attribute of it was set, and all else is intact;
* `Shaped.assigned_changeValue`, `Shaped.assigned_insertAttribute`: the two ways in which it is set;
* `Reached.sets_attribute`: so it is on every tag of a module that was reached, and setting it again
  changes nothing.
-/

namespace Restyle.SyntaxTree

variable {t t' : SyntaxTree} {tag a literal : NodeId} {assigned : Assignment} {quote : Char}

/-! ### Nodes that are as before -/

/-- A node is as before, with all that lies under it, and so is its text. Only marks may be new. -/
structure Intact (t t' : SyntaxTree) (x : NodeId) : Prop where
  node_eq : ∀ d, t.Under x d → t'.node d = { t.node d with changed := (t'.node d).changed }
  text_eq : t'.text x = t.text x

lemma Intact.refl (t : SyntaxTree) (x : NodeId) : Intact t t x :=
  ⟨fun _ _ => rfl, rfl⟩

/-- What is not above a rewritten text is intact. -/
lemma intact_overwrite (h : t.WellFormed) (hliteral : literal < t.size) {x : NodeId}
    (hx : x < t.size) (hnot : ¬ t.Under x literal) (s : String) :
    Intact t (t.overwrite literal s) x where
  node_eq := fun d hd => by
    have hne : d ≠ literal := fun heq => hnot (heq ▸ hd)
    rw [node_overwrite_of_ne hne]
  text_eq := (onlyAt_overwrite t literal s).text_eq h (h.overwrite hliteral s) hx hnot

/-- The children beside a new one are intact. -/
lemma Grafted.intact {row : List Node} {p : NodeId} {l r r' : List Slot} {gap : String}
    (hg : Grafted t t' row p l r r' gap) (h : t.WellFormed) {c : NodeId}
    (hc : c ∈ t.children p) : Intact t t' c where
  node_eq := fun d hd => by
    have hlt : d < t.size := by
      cases hd with
      | refl => exact h.lt_of_mem hc
      | step hp _ => exact lt_size_of_parent hp
    have hne : d ≠ p := fun heq =>
      Under.not_parent h.toLinked (h.parent_of_mem hc) (heq ▸ hd)
    have hnode := hg.node_old d hlt
    rwa [if_neg hne] at hnode
  text_eq := hg.onlyAt.text_child h hg.wellFormed hc

/-! ### Attributes that are set -/

/-- An attribute was among the children of a tag, which are as before, or it is new among them: it
stands behind all attributes, in front of the token that ends these. -/
inductive Seated (t t' : SyntaxTree) (tag a : NodeId) : Prop where
  | there : a ∈ t.children tag → (t'.node tag).slots = (t.node tag).slots → Seated t t' tag a
  | joined {front behind : List Slot} {stop : Slot} {gap : String} : t.size ≤ a →
      (t.node tag).slots = front ++ stop :: behind →
      (t'.node tag).slots = front ++ ⟨gap, a⟩ :: stop :: behind →
      t.attributesEnd? tag = some front.length → t.endsAttributes stop.child = true →
      (∀ slot ∈ stop :: behind, t.kind slot.child ≠ .attribute) → Seated t t' tag a

/-- What a tag is once an attribute of it was set: the first attribute of the name has the value for
the inner text of its string, and the other children of the tag are as before, in their order. -/
structure Assigned (t t' : SyntaxTree) (tag : NodeId) (assigned : Assignment)
    (a literal : NodeId) (quote : Char) : Prop where
  attribute_eq : t'.attribute? tag assigned.name = some a
  string_eq : t'.stringValue? a = some (literal, quote, assigned.value)
  seated : Seated t t' tag a
  others : ∀ c ∈ t.children tag, c ≠ a → Intact t t' c

/-- What has the value needs no change. -/
lemma Assigned.changeValue_eq (ha : Assigned t t' tag assigned a literal quote) :
    t'.changeValue a assigned.value = (.alreadyPresent, t') := by
  rw [changeValue, ha.string_eq]
  exact if_pos rfl

/-- Setting an attribute again changes nothing, whether or not tags get attributes that they
lack. -/
lemma Assigned.addProp_eq (ha : Assigned t t' tag assigned a literal quote) {value : String}
    (hof : Assignment.ofText? value = some assigned) (synthesize : Bool) :
    t'.addProp tag value synthesize = (.alreadyPresent, t') := by
  rw [addProp, hof]
  dsimp only
  rw [ha.attribute_eq]
  exact ha.changeValue_eq

/-- An attribute that has the value already. -/
lemma assigned_self (ha : t.attribute? tag assigned.name = some a)
    (hv : t.stringValue? a = some (literal, quote, assigned.value)) :
    Assigned t t tag assigned a literal quote where
  attribute_eq := ha
  string_eq := hv
  seated := .there (mem_of_findAttribute? ha).1 rfl
  others := fun c _ _ => .refl t c

section Setting

variable (h : t.Shaped) (htag : (t.kind tag).isTag = true)
include h htag

/-- The first attribute of the name gets another string. -/
lemma Shaped.assigned_overwrite {q : Char} {v : String}
    (ha : t.attribute? tag assigned.name = some a)
    (hv : t.stringValue? a = some (literal, q, v)) (hquote : quote = '"' ∨ quote = '\'') :
    Assigned t (t.overwrite literal (quoted quote assigned.value))
      tag assigned a literal quote := by
  obtain ⟨hmem, hattr⟩ := mem_of_findAttribute? ha
  have hliteral := (stringValue?_spec hv).1
  have hne : tag ≠ literal := fun heq => by
    rw [heq, (stringValue?_spec hv).2.2.1] at htag
    cases htag
  refine ⟨(attribute?_overwrite h hattr hv htag _ _).trans ha,
    stringValue?_overwrite h hattr hv hquote _, .there hmem ?_, fun c hc hca => ?_⟩
  · rw [node_overwrite_of_ne hne]
  · refine intact_overwrite h.toWellFormed (h.lt_of_mem hliteral) (h.lt_of_mem hc)
      (fun hunder => ?_) _
    exact hca (Under.eq_of_siblings h.toLinked (h.parent_of_mem hc) (h.parent_of_mem hmem) hunder
      (.of_mem h.toLinked hliteral))

/-- The tag gets an attribute of the name, which it lacked. -/
lemma Shaped.assigned_grafted {i : Nat} {gap : String}
    (hnone : t.attribute? tag assigned.name = none) (hi : t.attributesEnd? tag = some i)
    (hg : Grafted t t' (attributeRow t.size assigned.name assigned.value) tag
      ((t.node tag).slots.take i) ((t.node tag).slots.drop i) ((t.node tag).slots.drop i) gap) :
    ∃ literal, Assigned t t' tag assigned t.size literal '"' := by
  obtain ⟨ha, literal, hv⟩ := hg.attribute?_new h htag hi hnone
  refine ⟨literal, ha, hv, ?_, fun c hc _ => hg.intact h.toWellFormed hc⟩
  have hfirst := (h.regular tag).attributes_first htag i hi
  have hnode := hg.node_old tag (lt_size_of_attributesEnd? hi).1
  rw [if_pos rfl] at hnode
  obtain ⟨front, name, between, stop, behind, hslots, hlen, -, -, -, hstop⟩ :=
    exists_of_attributesEnd? hi
  rw [children, Node.children, ← List.map_drop, hslots, ← hlen, List.drop_left] at hfirst
  rw [hslots, ← hlen, List.take_left, List.drop_left] at hnode
  exact .joined le_rfl hslots (congrArg Node.slots hnode) (hlen ▸ hi) hstop
    fun slot hslot => hfirst _ (List.mem_map_of_mem hslot)

/-- An attribute of a tag is set to a value, or it has it. In its own quotes it has it only in the
second case, and then they are single. -/
theorem Shaped.assigned_changeValue {o : Outcome}
    (hvalue : assigned.value.toList.any Assignment.breaksValue = false)
    (ha : t.attribute? tag assigned.name = some a)
    (hchange : t.changeValue a assigned.value = (o, t'))
    (ho : o = .applied ∨ o = .alreadyPresent) :
    ∃ literal quote, Assigned t t' tag assigned a literal quote
      ∧ (quote ∈ assigned.value.toList → o = .alreadyPresent ∧ quote = '\'')
      ∧ (o = .alreadyPresent → t' = t) := by
  have hdouble : '"' ∉ assigned.value.toList := not_mem_of_not_any (by decide) hvalue
  rw [changeValue] at hchange
  split at hchange
  · obtain ⟨rfl, rfl⟩ := Prod.mk.inj hchange
    rcases ho with ho | ho <;> cases ho
  · next literal q v hv =>
      have hq := (quoted_of_quotationOf? (stringValue?_spec hv).2.2.2).1
      split at hchange
      · next heq =>
          obtain ⟨rfl, rfl⟩ := Prod.mk.inj hchange
          refine ⟨literal, q, assigned_self ha (heq ▸ hv), fun hmem => ⟨rfl, ?_⟩, fun _ => rfl⟩
          -- The value stays as it was, so the quote around it is not one that it may not hold.
          exact hq.resolve_left fun heq => hdouble (heq ▸ hmem)
      · obtain ⟨rfl, rfl⟩ := Prod.mk.inj hchange
        refine ⟨literal, _, h.assigned_overwrite htag ha hv ?_, fun hmem => ?_,
          fun happ => absurd happ (by decide)⟩
        · split
          · exact .inl rfl
          · exact hq
        · split at hmem
          · exact absurd hmem hdouble
          -- The quote is kept only where the value does not hold it.
          · next hno => exact absurd (List.contains_iff_mem.mpr hmem) hno

/-- A property of a tag that is set, or was there. -/
theorem Shaped.assigned_of_addProp {value : String} {synthesize : Bool} {o : Outcome}
    (hadd : t.addProp tag value synthesize = (o, t'))
    (ho : o = .applied ∨ o = .alreadyPresent) :
    ∃ assigned a literal quote, Assignment.ofText? value = some assigned
      ∧ Assigned t t' tag assigned a literal quote
      ∧ (quote ∈ assigned.value.toList → o = .alreadyPresent ∧ quote = '\'')
      ∧ (o = .alreadyPresent → t' = t) := by
  rw [addProp] at hadd
  split at hadd
  · obtain ⟨rfl, rfl⟩ := Prod.mk.inj hadd
    rcases ho with ho | ho <;> cases ho
  · next assigned hof =>
      have hvalue := (ofText?_spec hof).2
      split at hadd
      · next a ha =>
          obtain ⟨literal, quote, hset⟩ := h.assigned_changeValue htag hvalue ha hadd ho
          exact ⟨assigned, a, literal, quote, hof, hset⟩
      · next hnone =>
          split at hadd
          · rcases insertAttribute_cases h.toWellFormed tag assigned with
              ⟨-, heq⟩ | ⟨i, hi, happ, hg⟩
            · rw [heq] at hadd
              obtain ⟨rfl, rfl⟩ := Prod.mk.inj hadd
              rcases ho with ho | ho <;> cases ho
            · rw [hadd] at happ hg
              obtain rfl : o = .applied := happ
              -- A new attribute is in double quotes, which its value may not hold.
              obtain ⟨literal, hset⟩ := h.assigned_grafted htag hnone hi hg
              refine ⟨assigned, t.size, literal, '"', hof, hset, fun hmem => ?_,
                fun happ => absurd happ (by decide)⟩
              exact absurd hmem (not_mem_of_not_any (by decide) hvalue)
          · obtain ⟨rfl, rfl⟩ := Prod.mk.inj hadd
            rcases ho with ho | ho <;> cases ho

end Setting

/-! ### Tags of modules -/

/-- Setting a property of a tag, in a module that was reached from one that obeys the grammar, sets
one attribute and no more: where it is applied or finds what it wants, the first attribute of the
name has the value for the inner text of its string; the other children of the tag are as before, in
their order; at most that attribute is new, behind all others and in front of the token that ends
them; and doing it again finds what it wants. The value holds the quotes that it is in only if it
was there before, in single ones. -/
theorem Reached.sets_attribute {source : List Char} {tree : Syntax.Cst}
    (h : Reached source tree t) (htree : tree.Grammatical) (htag : (t.kind tag).isTag = true)
    {value : String} {synthesize : Bool} {o : Outcome}
    (hadd : t.addProp tag value synthesize = (o, t'))
    (ho : o = .applied ∨ o = .alreadyPresent) :
    ∃ assigned a literal quote, Assignment.ofText? value = some assigned
      ∧ Assigned t t' tag assigned a literal quote
      ∧ (quote ∈ assigned.value.toList → o = .alreadyPresent ∧ quote = '\'')
      ∧ (o = .alreadyPresent → t' = t)
      ∧ ∀ again, t'.addProp tag value again = (.alreadyPresent, t') := by
  obtain ⟨assigned, a, literal, quote, hof, hset, hquote, hsame⟩ :=
    (h.shaped htree).assigned_of_addProp htag hadd ho
  exact ⟨assigned, a, literal, quote, hof, hset, hquote, hsame, hset.addProp_eq hof⟩

/-- A value that holds a single quote is put into double ones, and stays. -/
theorem sets_attribute_soleTag :
    let t := ofConcrete "<a x='b'/>".toList soleTag
    let r := t.addProp 1 "x=it's" true
    soleTag.Grammatical ∧ (t.kind 1).isTag = true ∧ r.1 = .applied
      ∧ r.2.render = "<a x=\"it's\"/>"
      ∧ ∃ assigned a literal quote, Assignment.ofText? "x=it's" = some assigned
        ∧ Assigned t r.2 1 assigned a literal quote
        ∧ (quote ∈ assigned.value.toList → r.1 = .alreadyPresent ∧ quote = '\'')
        ∧ (r.1 = .alreadyPresent → r.2 = t)
        ∧ ∀ again, r.2.addProp 1 "x=it's" again = (.alreadyPresent, r.2) := by
  intro t r
  have htree : soleTag.Grammatical := by decide +kernel
  have htag : (t.kind 1).isTag = true := by decide +kernel
  have happ : r.1 = .applied := by decide +kernel
  exact ⟨htree, htag, happ, by decide +kernel,
    Reached.sets_attribute .read htree htag (Prod.eta r).symm (.inl happ)⟩

/-- A value that was read in single quotes, and holds one, is found as it is. -/
theorem finds_sticky_stickyTag :
    let t := ofConcrete "<a x='&''/>".toList stickyTag
    let r := t.addProp 1 "x=&'" true
    stickyTag.Grammatical ∧ (t.kind 1).isTag = true ∧ r.1 = .alreadyPresent
      ∧ Assignment.ofText? "x=&'" = some ⟨"x", "&'"⟩ ∧ r.2.attribute? 1 "x" = some 4
      ∧ r.2.stringValue? 4 = some (7, '\'', "&'") ∧ '\'' ∈ "&'".toList := by
  decide +kernel

end Restyle.SyntaxTree
