import Restyle.Proofs.Transform.Prologue
import Restyle.Proofs.Tree.Placed
import Restyle.Syntax.Semicolon

/-!
What stands between a new import and the statement before it.

* `exists_lineBreak_of_due`: where a statement ends without a semicolon and another one follows, a
  line break stands between them;
* `Cst.Parted`: what the grammar says about the ends of statements;
* `CopiesAll.pair`: the layout between two statements is what stands between them in the source;
* `ofConcrete_import_parted`: an import is on a line of its own, or the statement before it ends
  with a semicolon, and a hash-bang line stays the first one exactly if directives are respected.
-/

namespace Restyle

namespace Syntax

/-! ### Ends of statements -/

open Lexeme (isBlank isPlainBlank)

/-- Behind blanks without a line break, a search past plain blanks stops at none, and neither at the
end of a block nor of the text. -/
lemma exists_stop_of_blanks {front rest : List Char} {c : Char}
    (hblank : ∀ d ∈ front, isBlank d = true) (hline : '\n' ∉ front) (hc : isBlank c = false)
    (hbrace : c ≠ '\x7d') (hnul : c ≠ '\x00') :
    ∃ d more, (front ++ c :: rest).dropWhile (fun d => isPlainBlank d && d ≠ '\n') = d :: more
      ∧ d ≠ '\n' ∧ d ≠ '\x00' ∧ d ≠ '\x7d' := by
  induction front with
  | nil =>
      have hplain : isPlainBlank c = false := by
        cases hp : isPlainBlank c with
        | false => rfl
        | true => simp [isBlank, hp] at hc
      refine ⟨c, rest, by simp [hplain], ?_, hnul, hbrace⟩
      rintro rfl
      exact absurd hc (by decide)
  | cons d front ih =>
      obtain ⟨hd, hfront⟩ := List.forall_mem_cons.mp hblank
      have hne : d ≠ '\n' := fun heq => hline (heq ▸ List.mem_cons_self)
      cases hp : isPlainBlank d with
      | true => simpa [hp, hne] using ih hfront fun hmem => hline (List.mem_cons_of_mem _ hmem)
      -- A blank that is not plain is one of the rarer ones, so it is no bracket and no null.
      | false =>
          refine ⟨d, front ++ c :: rest, by simp [hp], hne, ?_, ?_⟩ <;>
            · rintro rfl
              exact absurd hd (by decide)

/-- If blanks stand between the end of a statement and a character that is none and does not close a
block, and a semicolon may be left out there, then one of the blanks is a line break. -/
theorem exists_lineBreak_of_due {setting : Semicolon.Setting} {text rest : List Char} {c : Char}
    {n : Nat} (hdue : Semicolon.verdict setting text = .due)
    (hblank : ∀ d ∈ text.take n, isBlank d = true) (hnext : text.drop n = c :: rest)
    (hc : isBlank c = false) (hbrace : c ≠ '\x7d') (hnul : c ≠ '\x00') : '\n' ∈ text.take n := by
  by_contra hno
  -- The character at which the search stops is no line break, and so it is one that carries the
  -- statement on.
  obtain ⟨d, more, heq, hline, hzero, hclose⟩ := exists_stop_of_blanks hblank hno hc hbrace hnul
  rw [← hnext, List.take_append_drop] at heq
  rw [Semicolon.verdict, heq] at hdue
  split at hdue <;> simp_all

lemma drop_length_takeWhile {α : Type} (test : α → Bool) (l : List α) :
    l.drop (l.takeWhile test).length = l.dropWhile test := by
  induction l with
  | nil => rfl
  | cons a l ih => cases h : test a <;> simp [h, ih]

/-- A hash-bang line goes on to a line break or a null character. -/
lemma stop_of_hashBang {text more : List Char} {d : Char} {k : Nat}
    (hline : Lexeme.hashBang text = some k) (hnext : text.drop k = d :: more) :
    d = '\n' ∨ d = '\x00' := by
  rw [Lexeme.hashBang.eq_def] at hline
  split at hline
  · next body =>
      rw [Option.some.injEq] at hline
      subst hline
      have hbody : ('#' :: '!' :: body).drop
            (2 + (body.takeWhile fun c => c ≠ '\n' && c ≠ '\x00').length)
          = body.dropWhile fun c => c ≠ '\n' && c ≠ '\x00' := by
        rw [Nat.add_comm, List.drop_succ_cons, List.drop_succ_cons, drop_length_takeWhile]
      rw [hbody] at hnext
      have hfirst := List.head?_dropWhile_not (fun c => c ≠ '\n' && c ≠ '\x00') body
      rw [hnext] at hfirst
      by_cases hd : d = '\n'
      · exact .inl hd
      · exact .inr (by simpa [hd] using hfirst)
  · cases hline

/-- A hash-bang line ends in front of a line break, where anything that is read follows it. -/
theorem exists_lineBreak_of_hashBang {text rest : List Char} {c : Char} {k n : Nat}
    (hline : Lexeme.hashBang text = some k)
    (hblank : ∀ d ∈ (text.drop k).take n, isBlank d = true)
    (hnext : (text.drop k).drop n = c :: rest) (hc : isBlank c = false) (hnul : c ≠ '\x00') :
    '\n' ∈ (text.drop k).take n := by
  cases htail : text.drop k with
  | nil =>
      rw [htail, List.drop_nil] at hnext
      cases hnext
  | cons d more =>
      cases n with
      -- Nothing stands between, and what is read begins with neither of the two.
      | zero =>
          rw [htail, List.drop_zero, List.cons.injEq] at hnext
          rcases stop_of_hashBang hline htail with heq | heq
          · rw [← hnext.1, heq] at hc
            exact absurd hc (by decide)
          · exact absurd (hnext.1.symm.trans heq) hnul
      -- The first character between is a blank, and a null is none.
      | succ n =>
          rw [htail] at hblank
          rcases stop_of_hashBang hline htail with rfl | rfl
          · exact List.mem_cons_self
          · exact absurd (hblank _ List.mem_cons_self) (by decide)

/-! ### Statements in a row -/

namespace Cst

/-- The trees stand one behind the other in a text, from a place on, and all else there is blank. -/
def InRow (source : List Char) : Nat → List Cst → Prop
  | _, [] => True
  | place, t :: ts =>
    place ≤ t.start ∧ t.start ≤ t.stop ∧ t.stop ≤ source.length
      ∧ (∀ c ∈ (source.drop place).take (t.start - place), isBlank c = true)
      ∧ InRow source t.stop ts

/-- What the grammar says about where the statements of a module begin and end. -/
structure Parted (source : List Char) (tree : Cst) : Prop where
  inRow : InRow source 0 tree.children
  /-- A statement begins with a character of its own, and none with a closing brace. -/
  begins : ∀ a ∈ tree.children, ∃ c ∈ (source.drop a.start).head?,
    isBlank c = false ∧ c ≠ '\x7d' ∧ c ≠ '\x00'
  hashBang : ∀ a ∈ tree.children, a.label.kind = .hashBang →
    Lexeme.hashBang (source.drop a.start) = some (a.stop - a.start)
  /-- An expression statement ends with a semicolon, or where it may be left out. -/
  ended : ∀ a ∈ tree.children, a.label.kind = .expressionStatement →
    ((source.drop a.start).take (a.stop - a.start)).getLast? = some ';'
      ∨ ∃ inExpression inSignature,
        Semicolon.verdict ⟨inExpression, inSignature⟩ (source.drop a.stop) = .due

instance decidableInRow (source : List Char) : (place : Nat) → (ts : List Cst) →
    Decidable (InRow source place ts)
  | _, [] => .isTrue trivial
  | place, t :: ts =>
    have := decidableInRow source t.stop ts
    have : Decidable (∀ c ∈ (source.drop place).take (t.start - place), isBlank c = true) :=
      List.decidableBAll _ _
    inferInstanceAs (Decidable (place ≤ t.start ∧ t.start ≤ t.stop ∧ t.stop ≤ source.length
      ∧ (∀ c ∈ (source.drop place).take (t.start - place), isBlank c = true)
      ∧ InRow source t.stop ts))

/-- Between a hash-bang line or an expression statement without a semicolon and the next statement
stands a line break. -/
theorem Parted.exists_lineBreak {source : List Char} {tree a b : Cst} (h : tree.Parted source)
    (ha : a ∈ tree.children) (hb : b ∈ tree.children) (hle : a.start ≤ a.stop)
    (hab : a.stop ≤ b.start)
    (hblank : ∀ c ∈ (source.drop a.stop).take (b.start - a.stop), isBlank c = true)
    (hkind : a.label.kind = .hashBang ∨ a.label.kind = .expressionStatement) :
    ((source.drop a.start).take (a.stop - a.start)).getLast? = some ';'
      ∨ '\n' ∈ (source.drop a.stop).take (b.start - a.stop) := by
  obtain ⟨c, hhead, hc, hbrace, hnul⟩ := h.begins b hb
  obtain ⟨rest, hnext⟩ := List.head?_eq_some_iff.mp hhead
  have hnext' : (source.drop a.stop).drop (b.start - a.stop) = c :: rest := by
    rw [List.drop_drop, Nat.add_sub_cancel' hab, hnext]
  rcases hkind with hkind | hkind
  · have hstop : source.drop a.stop = (source.drop a.start).drop (a.stop - a.start) := by
      rw [List.drop_drop, Nat.add_sub_cancel' hle]
    rw [hstop] at hblank hnext' ⊢
    exact .inr (exists_lineBreak_of_hashBang (h.hashBang a ha hkind) hblank hnext' hc hnul)
  · refine (h.ended a ha hkind).imp_right fun ⟨_, _, hdue⟩ => ?_
    exact exists_lineBreak_of_due hdue hblank hnext' hc hbrace hnul

end Cst

end Syntax

namespace SyntaxTree

open Syntax (Cst)

variable {source : List Char} {tree : Cst} {t t' : SyntaxTree}

/-! ### Layout that is taken over -/

/-- The first of a row that is taken over stands where it stood in the source, behind the layout
that stood there, and the others of the row follow it. -/
lemma CopiesAll.of_cons {parent next : Nat} {inAttribute : Bool} {slot : Slot} {slots : List Slot}
    {ending : String} {progress : Progress} {children : List Cst}
    (h : CopiesAll source t parent inAttribute source.length next (slot :: slots) ending progress
      children)
    (hrow : Cst.InRow source progress.stop children) :
    ∃ a rest next' progress', children = a :: rest
      ∧ (progress.stop ≤ a.start ∧ a.start ≤ a.stop
        ∧ ∀ c ∈ (source.drop progress.stop).take (a.start - progress.stop),
          Syntax.Lexeme.isBlank c = true)
      ∧ (slot.gap = slice source progress.stop a.start ∧ t.kind slot.child = a.label.kind
        ∧ (t.node slot.child).asRead = some (slice source a.start a.stop))
      ∧ progress'.stop = a.stop ∧ Cst.InRow source progress'.stop rest
      ∧ CopiesAll source t parent inAttribute source.length next' slots ending progress' rest := by
  cases children with
  | nil =>
    rw [CopiesAll] at h
    cases h.1
  | cons a rest =>
    rw [CopiesAll] at h
    obtain ⟨slots', hcons, hnode, -, hrest⟩ := h
    obtain ⟨hstart, hspan, hstop, hblank, hrow⟩ := hrow
    obtain ⟨rfl, rfl⟩ := List.cons.inj hcons
    -- a row lies within the source in order, so that no place is moved when it is taken over
    have hstart' := clamp_eq hstart (hspan.trans hstop)
    have hstop' : (progress.after source.length a).stop = a.stop := by
      rw [Progress.after, hstart', clamp_eq hspan hstop]
    refine ⟨a, rest, _, _, rfl, ⟨hstart, hspan, hblank⟩, ⟨?_, congrArg Node.kind hnode, ?_⟩, hstop',
      hstop'.symm ▸ hrow, hrest⟩
    · dsimp only
      rw [hstart']
    · rw [hnode]
      change some _ = _
      rw [hstop', hstart']

/-- Between two nodes that are taken over, the layout is what stands between them in the source. -/
lemma CopiesAll.pair {parent next : Nat} {inAttribute : Bool} {before after : List Slot}
    {first second : Slot} {ending : String} {progress : Progress} {children : List Cst}
    (h : CopiesAll source t parent inAttribute source.length next
      (before ++ first :: second :: after) ending progress children)
    (hrow : Cst.InRow source progress.stop children) :
    ∃ a ∈ children, ∃ b ∈ children, a.start ≤ a.stop ∧ a.stop ≤ b.start
      ∧ (∀ c ∈ (source.drop a.stop).take (b.start - a.stop), Syntax.Lexeme.isBlank c = true)
      ∧ t.kind first.child = a.label.kind
      ∧ (t.node first.child).asRead = some (slice source a.start a.stop)
      ∧ second.gap = slice source a.stop b.start := by
  induction before generalizing children next progress with
  | nil =>
      obtain ⟨a, rest, _, _, rfl, ⟨-, hspan, -⟩, ⟨-, hkind, hread⟩, hstop, hrow, h⟩ :=
        h.of_cons hrow
      obtain ⟨b, more, _, _, rfl, ⟨hab, -, hblank⟩, ⟨hgap, -⟩, -⟩ := h.of_cons hrow
      rw [hstop] at hab hblank hgap
      exact ⟨a, List.mem_cons_self, b, List.mem_cons_of_mem _ List.mem_cons_self, hspan, hab,
        hblank, hkind, hread, hgap⟩
  | cons slot before ih =>
      obtain ⟨_, rest, _, _, rfl, -, -, -, hrow, h⟩ := h.of_cons hrow
      obtain ⟨a, ha, b, hb, hpair⟩ := ih h hrow
      exact ⟨a, List.mem_cons_of_mem _ ha, b, List.mem_cons_of_mem _ hb, hpair⟩

/-- Between two statements of a module that is read, the layout is what stands between them in the
source. -/
lemma slots_pair (htree : tree.Parted source) {before after : List Slot} {first second : Slot}
    (hslots : ((ofConcrete source tree).node root).slots = before ++ first :: second :: after) :
    ∃ a ∈ tree.children, ∃ b ∈ tree.children, a.start ≤ a.stop ∧ a.stop ≤ b.start
      ∧ (∀ c ∈ (source.drop a.stop).take (b.start - a.stop), Syntax.Lexeme.isBlank c = true)
      ∧ (ofConcrete source tree).kind first.child = a.label.kind
      ∧ (ofConcrete source tree).text first.child = slice source a.start a.stop
      ∧ second.gap = slice source a.stop b.start := by
  have hcopies := (ofConcrete_spec source tree).2.2
  match tree, htree, hcopies with
  | .node label role start stop children, htree, hcopies =>
    rw [Copies] at hcopies
    rw [hslots] at hcopies
    obtain ⟨a, ha, b, hb, hspan, hab, hblank, hkind, hread, hgap⟩ := hcopies.pair htree.inRow
    exact ⟨a, ha, b, hb, hspan, hab, hblank, hkind,
      (wellFormed_ofConcrete _ _).text_of_asRead (changed_ofConcrete _) hread, hgap⟩

/-! ### New imports -/

/-- An import that goes behind a hash-bang line or a statement without a semicolon has a line break
in front of it. -/
lemma Seam.exists_lineBreak (htree : tree.Parted source) {front behind behind' : List Slot}
    {gap : String} (hs : Seam front behind behind' gap)
    (hslots : ((ofConcrete source tree).node root).slots = front ++ behind) {slot : Slot}
    (hlast : front.getLast? = some slot)
    (hkind : (ofConcrete source tree).kind slot.child = .hashBang
      ∨ (ofConcrete source tree).kind slot.child = .expressionStatement) :
    ((ofConcrete source tree).text slot.child).toList.getLast? = some ';' ∨ '\n' ∈ gap.toList := by
  obtain ⟨init, rfl⟩ := List.getLast?_eq_some_iff.mp hlast
  rcases hs with ⟨next, rest, rfl, rfl, -⟩ | ⟨-, -, rfl⟩
  · rw [List.append_assoc, List.singleton_append] at hslots
    obtain ⟨a, ha, b, hb, hspan, hab, hblank, hkind', htext, hgap⟩ := slots_pair htree hslots
    rw [hkind'] at hkind
    rw [htext, hgap, slice, slice, String.toList_ofList, String.toList_ofList]
    exact htree.exists_lineBreak ha hb hspan hab hblank hkind
  · rw [if_neg (by simp)]
    exact .inr (by decide)

/-- The statement in front of the place of an import is a hash-bang line or a directive. -/
lemma kind_before_importPlace {slot : Slot}
    (hlast : ((t.node root).slots.take (t.importPlace true)).getLast? = some slot) :
    t.kind slot.child = .hashBang ∨ t.kind slot.child = .expressionStatement := by
  obtain ⟨front, comments, back, hids, hd, hplace⟩ := t.importPlace_spec
  have hfront : front.getLast? = some slot.child := by
    have hids' := congrArg (List.take front.length) hids
    rw [List.take_left, children, Node.children, ← List.map_take, ← hplace] at hids'
    rw [← hids', List.getLast?_map, hlast, Option.map_some]
  have hpassed := hd.passed _ (List.mem_of_getLast? hfront)
  -- comments are passed too, but the place is in front of those that stand last
  have hcomment := hd.last _ hfront
  simp only [isPassed, Bool.or_eq_true, Bool.and_eq_true, decide_eq_true_eq] at hpassed
  tauto

/-- Where directives are respected, an import goes behind the hash-bang line of a module. -/
lemma take_importPlace_of_hashBang {line : NodeId} {rest : List NodeId}
    (hchildren : t.children root = line :: rest) (hkind : t.kind line = .hashBang) :
    ∃ front, (t.children root).take (t.importPlace true) = line :: front := by
  obtain ⟨front, comments, back, hids, hd, hplace⟩ := t.importPlace_spec
  rw [hplace, hids, List.take_left]
  rw [hids] at hchildren
  cases front with
  | cons c front =>
      rw [List.cons_append, List.cons.injEq] at hchildren
      exact ⟨front, by rw [hchildren.1]⟩
  | nil =>
      -- the line is no comment, and it is none of the statements at which the search stops
      rw [List.nil_append] at hchildren
      cases comments with
      | cons c comments =>
          rw [List.cons_append, List.cons.injEq] at hchildren
          have hcomment := hd.comments c List.mem_cons_self
          rw [hchildren.1, hkind] at hcomment
          cases hcomment
      | nil =>
          rw [List.nil_append] at hchildren
          have hstops := hd.stops line (by rw [hchildren]; rfl)
          rw [isPassed, hkind] at hstops
          cases hstops

/-- A new import is written behind a line break, or the statement before it ends with a
semicolon. -/
lemma Grafted.exists_lineBreak (htree : tree.Parted source) {respect : Bool} {row : List Node}
    {behind : List Slot} {gap : String}
    (hs : Seam (((ofConcrete source tree).node root).slots.take
        ((ofConcrete source tree).importPlace respect))
      (((ofConcrete source tree).node root).slots.drop
        ((ofConcrete source tree).importPlace respect)) behind gap)
    (hg : Grafted (ofConcrete source tree) t' row root
      (((ofConcrete source tree).node root).slots.take
        ((ofConcrete source tree).importPlace respect))
      (((ofConcrete source tree).node root).slots.drop
        ((ofConcrete source tree).importPlace respect)) behind gap)
    {slot : Slot} (hlast : (((ofConcrete source tree).node root).slots.take
      ((ofConcrete source tree).importPlace respect)).getLast? = some slot) :
    (t'.text slot.child).toList.getLast? = some ';' ∨ '\n' ∈ gap.toList := by
  cases respect with
  | false =>
      -- nothing stands in front of an import that goes first
      rw [importPlace, if_neg Bool.false_ne_true, List.take_zero] at hlast
      cases hlast
  | true =>
      have hmem : slot.child ∈ (ofConcrete source tree).children root :=
        List.mem_map_of_mem (List.mem_of_mem_take (List.mem_of_getLast? hlast))
      rw [hg.onlyAt.text_child (document_ofConcrete source tree).toWellFormed hg.wellFormed hmem]
      exact hs.exists_lineBreak htree hg.slots_eq hlast (kind_before_importPlace hlast)

/-- A hash-bang line stays the first statement exactly if directives are respected. -/
lemma Grafted.head?_hashBang (h : t.Document) {respect : Bool} {row : List Node}
    {r r' : List Slot} {gap : String}
    (hg : Grafted t t' row root ((t.node root).slots.take (t.importPlace respect)) r r' gap)
    {line : NodeId} {rest : List NodeId} (hchildren : t.children root = line :: rest)
    (hkind : t.kind line = .hashBang) :
    (t'.children root).head? = some line ↔ respect = true := by
  have hroot := congrArg Node.slots (hg.node_old root h.root_lt)
  rw [if_pos rfl] at hroot
  have hroot' : t'.children root
      = (t.children root).take (t.importPlace respect) ++ t.size :: r'.map Slot.child := by
    rw [children, Node.children, hroot, List.map_append, List.map_take]
    rfl
  rw [hroot']
  cases respect with
  | false =>
      -- Without respect for directives the place is the first one, so the import is in front of
      -- the line.
      rw [importPlace, if_neg Bool.false_ne_true, List.take_zero, List.nil_append, List.head?_cons]
      have hlt : line < t.size := h.lt_of_mem (hchildren ▸ List.mem_cons_self)
      exact ⟨fun heq => absurd (Option.some.inj heq) hlt.ne',
        fun heq => absurd heq Bool.false_ne_true⟩
  | true =>
      obtain ⟨front, hfront⟩ := take_importPlace_of_hashBang hchildren hkind
      rw [hfront]
      exact ⟨fun _ => rfl, fun _ => rfl⟩

/-- A new import is written behind a line break, or the statement before it ends with a semicolon. A
hash-bang line is still the first statement exactly if directives are respected. -/
theorem ofConcrete_import_parted (htree : tree.Parted source) {settings : TransformSettings}
    (hadd : (ofConcrete source tree).requireImport settings = (.inserted, t')) :
    ∃ front gap behind,
      (t'.node root).slots = front ++ ⟨gap, (ofConcrete source tree).size⟩ :: behind
      ∧ t'.render = t'.rowText front ++ gap ++ settings.importLine
        ++ (t'.rowText behind ++ (t'.node root).ending)
      ∧ (∀ slot, front.getLast? = some slot →
        (t'.text slot.child).toList.getLast? = some ';' ∨ '\n' ∈ gap.toList)
      ∧ ∀ line rest, (ofConcrete source tree).children root = line :: rest →
        (ofConcrete source tree).kind line = .hashBang →
          ((t'.children root).head? = some line ↔ settings.actualRespectDirectives = true) := by
  have hdoc := document_ofConcrete source tree
  rcases requireImport_place hdoc settings with ⟨heq, -⟩ | ⟨-, behind, gap, hs, hg⟩
  · rw [hadd] at heq
    cases heq
  rw [hadd] at hg
  have hroot := congrArg Node.slots (hg.node_old root hdoc.root_lt)
  rw [if_pos rfl] at hroot
  have hline : t'.text (ofConcrete source tree).size = settings.importLine := by
    rw [hg.text_top rfl rfl rfl, piecesText_import]
  refine ⟨_, gap, behind, hroot, ?_, fun slot hlast => hg.exists_lineBreak htree hs hlast,
    fun line rest hchildren hkind => hg.head?_hashBang hdoc hchildren hkind⟩
  rw [← hline]
  exact hg.wellFormed.text_of_slots hroot

/-- The concrete tree of a module that begins with a hash-bang line and a directive that ends with
its line. -/
def lineByLine : Cst :=
  .node (.named .program) none 0 12
    [.node (.named .hashBang) none 0 3 [],
      .node (.named .expressionStatement) none 4 7
        [.node (.named .string) none 4 7
          [.node (.token "'") none 4 5 [], .node (.named .stringFragment) none 5 6 [],
            .node (.token "'") none 6 7 []]],
      .node (.named .comment) none 8 10 [],
      .node (.named .expressionStatement) none 11 12 [.node (.named .identifier) none 11 12 []]]

lemma parted_lineByLine : lineByLine.Parted "#!x\n'a'\n//\nb".toList where
  inRow := by decide +kernel
  begins := List.forall_mem_cons.mpr ⟨⟨'#', rfl, by decide⟩,
    List.forall_mem_cons.mpr ⟨⟨'\'', rfl, by decide⟩,
      List.forall_mem_cons.mpr ⟨⟨'/', rfl, by decide⟩, List.forall_mem_singleton.mpr
        ⟨'b', rfl, by decide⟩⟩⟩⟩
  hashBang := by decide +kernel
  ended := by decide +kernel

/-- An import goes to the line behind the directive, in front of the comment there. -/
theorem import_parted_lineByLine :
    let source := "#!x\n'a'\n//\nb".toList
    let t := ofConcrete source lineByLine
    let t' := (t.requireImport {}).2
    lineByLine.Parted source ∧ t.requireImport {} = (.inserted, t')
      ∧ t'.render = "#!x\n'a'\nimport \x7b motion \x7d from \"framer-motion\";\n//\nb"
      ∧ ∃ front gap behind, (t'.node root).slots = front ++ ⟨gap, t.size⟩ :: behind
        ∧ t'.render = t'.rowText front ++ gap ++ TransformSettings.importLine {}
          ++ (t'.rowText behind ++ (t'.node root).ending)
        ∧ (∀ slot, front.getLast? = some slot →
          (t'.text slot.child).toList.getLast? = some ';' ∨ '\n' ∈ gap.toList)
        ∧ ∀ line rest, t.children root = line :: rest → t.kind line = .hashBang →
          ((t'.children root).head? = some line
            ↔ TransformSettings.actualRespectDirectives {} = true) := by
  intro source t t'
  have htree : lineByLine.Parted source := parted_lineByLine
  have hinserted : (t.requireImport {}).1 = .inserted := by decide +kernel
  have hadd : t.requireImport {} = (.inserted, t') := hinserted ▸ (Prod.eta _).symm
  exact ⟨htree, hadd, by decide +kernel, ofConcrete_import_parted htree hadd⟩

/-- Where directives are not respected, an import is written in front of a hash-bang line. -/
theorem import_before_hashBang_lineByLine :
    let source := "#!x\n'a'\n//\nb".toList
    let t := ofConcrete source lineByLine
    let r := t.requireImport { respectDirectives := some false }
    lineByLine.Parted source ∧ r.1 = .inserted
      ∧ t.children root = [1, 2, 7, 8] ∧ t.kind 1 = .hashBang ∧ r.2.children root = [10, 1, 2, 7, 8]
      ∧ r.2.render = "import \x7b motion \x7d from \"framer-motion\";\n#!x\n'a'\n//\nb" :=
  ⟨parted_lineByLine, by decide +kernel, by decide +kernel, by decide +kernel, by decide +kernel,
    by decide +kernel⟩

end SyntaxTree

end Restyle
