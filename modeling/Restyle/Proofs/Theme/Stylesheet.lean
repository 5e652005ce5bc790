import Restyle.Proofs.Text.Pieces
import Restyle.Stylesheet

/-!
Stylesheets are read line by line.

* `StyleBlock.declaration?`, `StyleBlock.ofLines?`, `StyleBlock.all?`: the declaration on a line,
  the block on some lines, and all blocks of a stylesheet, with an empty line between them;
* `StyleBlock.all?_sheet`: blocks are read as they were printed, if no value breaks a line;
* `StyleBlock.count_of_all?`, `StyleBlock.count_sheet`: how many lines there are, in what is read
  and in what is printed;
* `StyleBlock.all?_sheet_iff`: blocks with as many declarations are read exactly if no value breaks
  a line.
-/

namespace Restyle

/-- A list of results is found exactly if each of them is. -/
lemma mapM_eq_some_iff {α β : Type} {f : α → Option β} {as : List α} {bs : List β} :
    as.mapM f = some bs ↔ List.Forall₂ (fun a b => f a = some b) as bs := by
  induction as generalizing bs with
  | nil =>
    rw [List.mapM_nil, List.forall₂_nil_left_iff]
    exact ⟨fun h => (Option.some.inj h).symm, fun h => h ▸ rfl⟩
  | cons a as ih =>
    rw [List.mapM_cons, List.forall₂_cons_left_iff]
    simp only [Option.bind_eq_bind, Option.bind_eq_some_iff, ih, Option.pure_def, Option.some.injEq]
    constructor
    · rintro ⟨b, hb, bs, hbs, rfl⟩
      exact ⟨b, bs, hb, hbs, rfl⟩
    · rintro ⟨b, bs, hb, hbs, rfl⟩
      exact ⟨b, hb, bs, hbs, rfl⟩

namespace StyleBlock

/-! ### Reading -/

/-- The name and the value on the line of a declaration. -/
def declaration? (line : List Char) : Option (String × String) :=
  match line with
  | ' ' :: ' ' :: '-' :: '-' :: rest =>
    match rest.dropWhile (· ≠ ':') with
    | ':' :: ' ' :: value =>
      if value.getLast? = some ';' then
        some (String.ofList (rest.takeWhile (· ≠ ':')), String.ofList value.dropLast)
      else none
    | _ => none
  | _ => none

/-- The block on some lines: one for the selector, one for each declaration, and one for the end. -/
def ofLines? (lines : List (List Char)) : Option StyleBlock :=
  match lines with
  | [] => none
  | first :: rest =>
    if " \x7b".toList.isSuffixOf first && rest.getLast? = some ['\x7d'] then
      (rest.dropLast.mapM declaration?).map fun declarations =>
        ⟨String.ofList (first.take (first.length - 2)), declarations⟩
    else none

/-- The blocks of a stylesheet, with one empty line between them. -/
def all? (css : String) : Option (List StyleBlock) :=
  (Text.lines? css.toList).bind fun lines => (lines.splitOn []).mapM ofLines?

/-- A stylesheet of blocks. -/
def sheet (blocks : List StyleBlock) : String :=
  "\n".intercalate (blocks.map text)

/-! ### The lines of a block -/

/-- The line of a declaration, without the line break. -/
def row (declaration : String × String) : List Char :=
  "  --".toList ++ (declaration.1.toList ++ (": ".toList ++ (declaration.2.toList ++ [';'])))

/-- The lines of a block, without the line breaks. -/
def rows (b : StyleBlock) : List (List Char) :=
  (b.selector.toList ++ " \x7b".toList) :: (b.declarations.map row ++ [['\x7d']])

section Rows

variable {b : StyleBlock} {name value : String}

lemma toList_line (d : String × String) : (line d).toList = row d ++ ['\n'] := by
  simp [line, row]

/-- A block is its rows, each with a line break. -/
lemma toList_text (b : StyleBlock) : b.text.toList = b.rows.flatMap (· ++ ['\n']) := by
  have hlines : (String.join (b.declarations.map line)).toList
      = (b.declarations.map row).flatMap (· ++ ['\n']) := by
    rw [String.toList_join, List.flatMap_map, List.flatMap_map]
    simp only [toList_line]
  simp [text, rows, hlines]

/-- A declaration is read from its line, whatever its value is. -/
lemma declaration?_row (hname : ':' ∉ name.toList) :
    declaration? (row (name, value)) = some (name, value) := by
  have hpass : ∀ c ∈ name.toList, decide (c ≠ ':') = true := fun c hc =>
    decide_eq_true fun heq => hname (heq ▸ hc)
  have hdrop : (name.toList ++ ':' :: ' ' :: (value.toList ++ [';'])).dropWhile (· ≠ ':')
      = ':' :: ' ' :: (value.toList ++ [';']) := by
    rw [List.dropWhile_append_of_pos hpass, List.dropWhile_cons_of_neg (by decide)]
  have htake : (name.toList ++ ':' :: ' ' :: (value.toList ++ [';'])).takeWhile (· ≠ ':')
      = name.toList := by
    rw [List.takeWhile_append_of_pos hpass, List.takeWhile_cons_of_neg (by decide), List.append_nil]
  have hrow : row (name, value)
      = ' ' :: ' ' :: '-' :: '-' :: (name.toList ++ ':' :: ' ' :: (value.toList ++ [';'])) := rfl
  rw [hrow, declaration?, hdrop, htake]
  simp

/-- Names that end where a value begins, and a selector on one line. -/
structure Named (b : StyleBlock) : Prop where
  selector : '\n' ∉ b.selector.toList
  colon : ∀ d ∈ b.declarations, ':' ∉ d.1.toList
  oneLine : ∀ d ∈ b.declarations, '\n' ∉ d.1.toList

/-- No value breaks a line. -/
def Unbroken (b : StyleBlock) : Prop :=
  ∀ d ∈ b.declarations, '\n' ∉ d.2.toList

/-- A block is read back from its rows. -/
lemma ofLines?_rows (h : b.Named) : ofLines? b.rows = some b := by
  have hsuffix : " \x7b".toList.isSuffixOf (b.selector.toList ++ " \x7b".toList) = true :=
    List.isSuffixOf_iff_suffix.mpr (List.suffix_append _ _)
  have hdeclarations : (b.declarations.map row).mapM declaration? = some b.declarations := by
    rw [mapM_eq_some_iff, List.forall₂_map_left_iff]
    exact List.forall₂_same.mpr fun d hd => declaration?_row (h.colon d hd)
  have hselector : (b.selector.toList ++ " \x7b".toList).take
      ((b.selector.toList ++ " \x7b".toList).length - 2) = b.selector.toList := by
    rw [List.length_append]
    exact List.take_left
  rw [rows, ofLines?, hsuffix, hselector]
  simp [hdeclarations]

/-- A block takes two lines more than it has declarations. -/
lemma length_of_ofLines? {lines : List (List Char)} (h : ofLines? lines = some b) :
    lines.length = b.declarations.length + 2 := by
  unfold ofLines? at h
  split at h
  · cases h
  · next first rest =>
    split_ifs at h with hform
    obtain ⟨declarations, hdeclarations, rfl⟩ := Option.map_eq_some_iff.mp h
    have hlength := (mapM_eq_some_iff.mp hdeclarations).length_eq
    have hrest : rest ≠ [] := by
      rintro rfl
      simp at hform
    have hpos := List.length_pos_iff.mpr hrest
    rw [List.length_dropLast] at hlength
    rw [List.length_cons]
    dsimp only
    omega

end Rows

/-! ### The lines of a stylesheet -/

section Sheet

variable {blocks : List StyleBlock} {css : String}

lemma sheet_cons_cons (b b' : StyleBlock) (blocks : List StyleBlock) :
    sheet (b :: b' :: blocks) = b.text ++ "\n" ++ sheet (b' :: blocks) := by
  rw [sheet, List.map_cons, List.map_cons, String.intercalate_cons_cons]
  rfl

/-- A sheet is the rows of its blocks with an empty line between two of them. -/
lemma toList_sheet (blocks : List StyleBlock) :
    (sheet blocks).toList = ([[]].intercalate (blocks.map rows)).flatMap (· ++ ['\n']) := by
  induction blocks with
  | nil => rfl
  | cons b blocks ih =>
    cases blocks with
    | nil => rw [sheet, List.map_singleton, String.intercalate_singleton, toList_text]; simp
    | cons b' blocks =>
      have hrows : [[]].intercalate ((b :: b' :: blocks).map rows)
          = b.rows ++ [[]] ++ [[]].intercalate ((b' :: blocks).map rows) := by
        rw [List.map_cons, List.map_cons, List.intercalate_cons_cons]
      rw [sheet_cons_cons, hrows, String.toList_append, String.toList_append, ih, toList_text,
        List.flatMap_append, List.flatMap_append]
      rfl

/-- A line of the sheet is empty or a row of a block. -/
lemma mem_intercalate_rows {line : List Char} (h : line ∈ [[]].intercalate (blocks.map rows)) :
    line = [] ∨ ∃ b ∈ blocks, line ∈ b.rows := by
  induction blocks with
  | nil => cases h
  | cons b blocks ih =>
    cases blocks with
    | nil =>
      rw [List.map_singleton, List.intercalate_singleton] at h
      exact .inr ⟨b, List.mem_cons_self, h⟩
    | cons b' blocks =>
      rw [List.map_cons, List.map_cons, List.intercalate_cons_cons, List.mem_append,
        List.mem_append, List.mem_singleton, ← List.map_cons] at h
      obtain (h | h) | h := h
      · exact .inr ⟨b, List.mem_cons_self, h⟩
      · exact .inl h
      · exact (ih h).imp_right fun ⟨c, hc, hline⟩ => ⟨c, List.mem_cons_of_mem _ hc, hline⟩

/-- The rows of a block whose values break no line have no line break. -/
lemma notMem_of_mem_rows {b : StyleBlock} (h : b.Named) (hvalues : b.Unbroken) :
    ∀ line ∈ b.rows, '\n' ∉ line := by
  have hdeclarations : ∀ line ∈ b.declarations.map row, '\n' ∉ line := by
    intro line hline
    obtain ⟨d, hd, rfl⟩ := List.mem_map.mp hline
    simp [row, h.oneLine d hd, hvalues d hd]
  rw [rows, List.forall_mem_cons, List.forall_mem_append]
  exact ⟨by simp [h.selector], hdeclarations, by simp⟩

lemma nil_notMem_rows (b : StyleBlock) : [] ∉ b.rows := by
  simp [rows, row]

/-- Blocks are read as they were printed, if no value breaks a line. -/
theorem all?_sheet (hne : blocks ≠ []) (hnamed : ∀ b ∈ blocks, b.Named)
    (hvalues : ∀ b ∈ blocks, b.Unbroken) : all? (sheet blocks) = some blocks := by
  have hlines : Text.lines? (sheet blocks).toList = some ([[]].intercalate (blocks.map rows)) := by
    refine Text.lines?_eq_some_iff.mpr ⟨toList_sheet blocks, fun line hline => ?_⟩
    obtain rfl | ⟨b, hb, hline⟩ := mem_intercalate_rows hline
    · exact List.not_mem_nil
    · exact notMem_of_mem_rows (hnamed b hb) (hvalues b hb) line hline
  have hgroups : ([[]].intercalate (blocks.map rows)).splitOn [] = blocks.map rows := by
    refine List.splitOn_intercalate [] (fun lines h => ?_) (by simpa using hne)
    obtain ⟨b, -, rfl⟩ := List.mem_map.mp h
    exact nil_notMem_rows b
  rw [all?, hlines, Option.bind_some, hgroups, mapM_eq_some_iff, List.forall₂_map_left_iff]
  exact List.forall₂_same.mpr fun b hb => ofLines?_rows (hnamed b hb)

/-! ### Counting lines -/

/-- The lines that a block takes, with the empty one behind it. -/
def height (b : StyleBlock) : ℕ :=
  b.declarations.length + 3

/-- The line breaks in the values of a block. -/
def breaks (b : StyleBlock) : ℕ :=
  (b.declarations.map fun d => d.2.toList.count '\n').sum

lemma breaks_eq_zero_iff {b : StyleBlock} : b.breaks = 0 ↔ b.Unbroken := by
  rw [breaks, List.sum_eq_zero_iff, List.forall_mem_map]
  exact forall₂_congr fun d _ => List.count_eq_zero

/-- An empty line between two groups makes one line more for each group but one. -/
lemma length_intercalate_succ {groups : List (List (List Char))} (hne : groups ≠ []) :
    ([[]].intercalate groups).length + 1 = (groups.map fun lines => lines.length + 1).sum := by
  induction groups with
  | nil => exact absurd rfl hne
  | cons lines groups ih =>
    cases groups with
    | nil => simp
    | cons lines' groups =>
      have hrest := ih (List.cons_ne_nil _ _)
      rw [List.intercalate_cons_cons, List.map_cons, List.sum_cons, ← hrest]
      simp
      omega

/-- What is read as blocks has as many lines as they take. -/
lemma count_of_all? (h : all? css = some blocks) :
    css.toList.count '\n' + 1 = (blocks.map height).sum := by
  obtain ⟨lines, hlines, hblocks⟩ := Option.bind_eq_some_iff.mp h
  have hgroups : (lines.splitOn []).map (fun group => group.length + 1) = blocks.map height := by
    rw [← List.forall₂_eq_eq_eq, List.forall₂_map_left_iff, List.forall₂_map_right_iff]
    exact (mapM_eq_some_iff.mp hblocks).imp fun group b hb => by
      rw [length_of_ofLines? hb]
      rfl
  rw [Text.count_of_lines? hlines, ← hgroups, ← length_intercalate_succ (List.splitOn_ne_nil _ _),
    List.intercalate_splitOn]

lemma count_line {d : String × String} (h : '\n' ∉ d.1.toList) :
    (line d).toList.count '\n' = d.2.toList.count '\n' + 1 := by
  simp [toList_line, row, List.count_append, List.count_eq_zero.mpr h]

/-- A block has a line break for each of its lines and those of its values. -/
lemma count_text {b : StyleBlock} (h : b.Named) :
    b.text.toList.count '\n' + 1 = b.height + b.breaks := by
  have hlines : (String.join (b.declarations.map line)).toList.count '\n'
      = b.breaks + b.declarations.length := by
    rw [String.toList_join, List.flatMap_map, List.count_flatMap, breaks]
    have hcounts : b.declarations.map (List.count '\n' ∘ fun d => (line d).toList)
        = b.declarations.map fun d => d.2.toList.count '\n' + 1 :=
      List.map_congr_left fun d hd => count_line (h.oneLine d hd)
    rw [hcounts, List.sum_map_add]
    simp
  simp only [text, String.toList_append, List.count_append, hlines,
    List.count_eq_zero.mpr h.selector, height]
  simp
  omega

/-- A stylesheet has as many lines as its blocks take, and one more for each line break in a
value. -/
lemma count_sheet (hne : blocks ≠ []) (hnamed : ∀ b ∈ blocks, b.Named) :
    (sheet blocks).toList.count '\n' + 1 = (blocks.map height).sum + (blocks.map breaks).sum := by
  induction blocks with
  | nil => exact absurd rfl hne
  | cons b blocks ih =>
    obtain ⟨hb, hblocks⟩ := List.forall_mem_cons.mp hnamed
    have hfirst := count_text hb
    rw [List.map_cons, List.map_cons, List.sum_cons, List.sum_cons]
    cases blocks with
    | nil =>
      rw [sheet, List.map_singleton, String.intercalate_singleton, hfirst]
      simp
    | cons b' blocks =>
      have hrest := ih (List.cons_ne_nil _ _) hblocks
      rw [sheet_cons_cons, String.toList_append, String.toList_append, List.count_append,
        List.count_append]
      have hgap : "\n".toList.count '\n' = 1 := rfl
      omega

/-- Blocks with as many declarations are read from a stylesheet exactly if no value breaks a
line. -/
theorem all?_sheet_iff (hne : blocks ≠ []) (hnamed : ∀ b ∈ blocks, b.Named) :
    (all? (sheet blocks)).map (fun bs => bs.map fun b => b.declarations.length)
        = some (blocks.map fun b => b.declarations.length)
      ↔ ∀ b ∈ blocks, b.Unbroken := by
  constructor
  · intro h
    obtain ⟨bs, hbs, hlengths⟩ := Option.map_eq_some_iff.mp h
    have hheights : bs.map height = blocks.map height := by
      have hsucc := congrArg (List.map (· + 3)) hlengths
      rwa [List.map_map, List.map_map] at hsucc
    have hread := count_of_all? hbs
    have hprinted := count_sheet hne hnamed
    have hbreaks : (blocks.map breaks).sum = 0 := by
      rw [hheights] at hread
      omega
    intro b hb
    exact breaks_eq_zero_iff.mp (List.sum_eq_zero_iff.mp hbreaks _ (List.mem_map_of_mem hb))
  · intro h
    rw [all?_sheet hne hnamed h]
    rfl

end Sheet

end StyleBlock

end Restyle
