import Restyle.Proofs.Search.Attribute

/-!
Sticky strings do not survive: some modifications leave them in other quotes the second time.

* `ofText?_quoted`, `ofText?_empty`: assignments as they are written;
* `provoking`: a class, an assignment of the text that the class makes, and one of nothing;
* `rewordAll_provoking`: these leave a sticky string empty in its quotes, and then in others.
-/

namespace Restyle

open ClassList (ofValue isValid missing append)

/-! ### Assignments as they are written -/

/-- Whether a name may hold a character behind its first. -/
def isNameChar (c : Char) : Bool :=
  ('a' ≤ c && c ≤ 'z') || ('A' ≤ c && c ≤ 'Z') || c = '_' || c = '$' || ('0' ≤ c && c ≤ '9')
    || c = '-'

/-- A markup name is not empty and has name characters only. -/
lemma isMarkupName_spec {n : String} (h : isMarkupName n = true) :
    n.toList ≠ [] ∧ ∀ c ∈ n.toList, isNameChar c = true := by
  rw [isMarkupName] at h
  dsimp only at h
  split at h
  · next c cs hcs =>
      rw [hcs]
      refine ⟨List.cons_ne_nil _ _, fun d hd => ?_⟩
      rw [Bool.and_eq_true] at h
      rcases List.mem_cons.mp hd with rfl | hd
      · simp only [isNameChar, Bool.or_eq_true] at h ⊢
        tauto
      · simpa [isNameChar] using List.all_eq_true.mp h.2 d hd
  · cases h

/-- The characters of a name are neither blank nor an equals sign. -/
lemma isMarkupName_solid {n : String} (h : isMarkupName n = true) :
    Text.Solid n.toList ∧ '=' ∉ n.toList := by
  obtain ⟨hne, hall⟩ := isMarkupName_spec h
  refine ⟨⟨hne, fun c hc => ?_⟩, fun hmem => absurd (hall _ hmem) (by decide)⟩
  have hchar := hall c hc
  simp only [isNameChar, Bool.or_eq_true, Bool.and_eq_true, decide_eq_true_eq, Char.le_def,
    ← Char.toNat_inj, UInt32.le_iff_toNat_le] at hchar
  simp only [Text.isBlank, Bool.or_eq_false_iff, Bool.and_eq_false_iff,
    decide_eq_false_iff_not, Char.le_def, UInt32.le_iff_toNat_le, Char.ext_iff, UInt32.ext_iff]
  simp at hchar ⊢
  omega

/-- A text that neither starts nor ends with a blank has none around it. -/
lemma trim_eq_self {s : String} {c d : Char} {behind front : List Char}
    (hfirst : s.toList = c :: behind) (hc : Text.isBlank c = false)
    (hlast : s.toList = front ++ [d]) (hd : Text.isBlank d = false) : Text.trim s = s := by
  have hleft : Text.trimLeft s.toList = s.toList := by
    rw [hfirst, Text.trimLeft, List.dropWhile_cons_of_neg (by rw [hc]; exact Bool.false_ne_true)]
  rw [Text.trim, hleft, hlast, Text.trimRight_append_singleton _ hd, ← hlast, String.ofList_toList]

lemma trim_of_solid {s : String} (h : Text.Solid s.toList) : Text.trim s = s := by
  obtain ⟨hne, hall⟩ := h
  have hlast := (List.dropLast_append_getLast hne).symm
  have hfirst := (List.cons_head_tail hne).symm
  exact trim_eq_self hfirst (hall _ (List.head_mem hne)) hlast (hall _ (List.getLast_mem hne))

lemma trim_quoted (v : String) : Text.trim (SyntaxTree.quoted '"' v) = SyntaxTree.quoted '"' v := by
  have htext : (SyntaxTree.quoted '"' v).toList = '"' :: (v.toList ++ ['"']) := by
    rw [SyntaxTree.quoted, String.toList_append, String.toList_append, String.toList_singleton]
    rfl
  exact trim_eq_self htext (by decide) (htext.trans (List.cons_append ..).symm) (by decide)

/-- An assignment is split at its first `=`. -/
lemma splitAtEquals?_append {n : String} (h : '=' ∉ n.toList) (v : String) :
    Assignment.splitAtEquals? (n ++ "=" ++ v) = some (n, v) := by
  have htext : (n ++ "=" ++ v).toList = n.toList ++ '=' :: v.toList := by
    rw [String.toList_append, String.toList_append, List.append_assoc]
    rfl
  have hname : ∀ c ∈ n.toList, decide (c ≠ '=') = true := fun c hc =>
    decide_eq_true fun heq => h (heq ▸ hc)
  rw [Assignment.splitAtEquals?, htext, List.dropWhile_append_of_pos hname,
    List.dropWhile_cons_of_neg (by decide)]
  dsimp only
  rw [List.takeWhile_append_of_pos hname, List.takeWhile_cons_of_neg (by decide), List.append_nil,
    String.ofList_toList, String.ofList_toList]

/-- A name and a value in quotes are read as they are. -/
lemma ofText?_quoted {n v : String} (hn : isMarkupName n = true)
    (hv : v.toList.any Assignment.breaksValue = false) :
    Assignment.ofText? (n ++ "=" ++ SyntaxTree.quoted '"' v) = some ⟨n, v⟩ := by
  obtain ⟨hsolid, hequals⟩ := isMarkupName_solid hn
  rw [Assignment.ofText?, splitAtEquals?_append hequals]
  dsimp only
  rw [trim_of_solid hsolid, trim_quoted, Assignment.withoutQuotes,
    SyntaxTree.quotationOf?_quoted (.inl rfl)]
  dsimp only
  rw [hn, hv]
  rfl

/-! ### Strings that are provoked -/

/-- A class that is too long to stand in a text. -/
def longClass (v : String) : String :=
  String.ofList (List.replicate (v.toList.length + 1) 'z')

/-- The modifications that a sticky string with that text does not survive. -/
def provoking (target name v : String) : List Modification :=
  [⟨target, .addClass, longClass v⟩,
    ⟨target, .addProp, name ++ "=" ++ SyntaxTree.quoted '"' (append v [longClass v])⟩,
    ⟨target, .addProp, name ++ "=" ++ SyntaxTree.quoted '"' ""⟩]

variable {target name v : String}

lemma toList_longClass (v : String) :
    (longClass v).toList = List.replicate (v.toList.length + 1) 'z' := by
  rw [longClass, String.toList_ofList]

lemma eq_of_mem_longClass {c : Char} (h : c ∈ (longClass v).toList) : c = 'z' := by
  rw [toList_longClass] at h
  exact List.eq_of_mem_replicate h

/-- The long class is the one class of its value. -/
lemma ofValue_longClass (v : String) : ofValue (longClass v) = [longClass v] := by
  have hsolid : Text.Solid (longClass v).toList := by
    refine ⟨?_, fun c hc => ?_⟩
    · rw [toList_longClass]
      exact List.cons_ne_nil _ _
    · rw [eq_of_mem_longClass hc]
      decide
  rw [ofValue, Text.words, Text.wordsFrom_of_solid hsolid, List.map_singleton,
    String.ofList_toList]
  rfl

/-- The long class may be written. -/
lemma isValid_longClass (v : String) : isValid [longClass v] = true := by
  rw [isValid, List.isEmpty_cons, Bool.not_false, Bool.true_and, List.all_eq_true]
  intro c hc
  rw [List.mem_singleton.mp hc, Bool.not_eq_true', List.any_eq_false]
  intro d hd
  rw [eq_of_mem_longClass hd]
  decide

/-- The class is missing in every text that is not longer. -/
lemma missing_longClass {s : String} (h : s.toList.length ≤ v.toList.length) :
    missing [longClass v] s = [longClass v] := by
  have hlong : ¬ (longClass v).toList <:+: s.toList := fun hinfix => by
    have := hinfix.length_le
    rw [toList_longClass, List.length_replicate] at this
    omega
  have hcontains : Text.contains s (" ".intercalate [longClass v]) = false := by
    rw [String.intercalate_singleton, ← Bool.not_eq_true, Text.contains_iff]
    exact hlong
  have hwords : longClass v ∉ Text.words s := fun hmem => by
    obtain ⟨w, hw, heq⟩ := List.mem_map.mp hmem
    have := Text.length_le_of_mem_wordsFrom hw
    rw [← String.toList_inj, String.toList_ofList, toList_longClass] at heq
    rw [heq, List.length_replicate, List.length_nil] at this
    omega
  rw [missing, hcontains, if_neg Bool.false_ne_true]
  exact List.filter_eq_self.mpr fun c hc => by
    rw [List.mem_singleton.mp hc]
    simpa using hwords

lemma reword_longClass (target : String) (quote : Char) {s v : String}
    (h : s.toList.length ≤ v.toList.length) :
    reword ⟨target, .addClass, longClass v⟩ (quote, s) = (quote, append s [longClass v]) := by
  rw [reword, rewordText]
  dsimp only
  rw [ofValue_longClass, isValid_longClass, missing_longClass h]
  rfl

/-- Nothing that breaks a value stands in what the class makes of a sticky text, but a single quote
does. -/
lemma append_longClass (hv : Sticky ('\'', v)) :
    (append v [longClass v]).toList.any Assignment.breaksValue = false
      ∧ '\'' ∈ (append v [longClass v]).toList := by
  obtain ⟨-, hmem, hany⟩ := hv
  have hblank : ¬ Text.isBlankText v = true := fun hblank => by
    have := List.all_eq_true.mp hblank _ hmem
    exact absurd this (by decide)
  rw [ClassList.toList_append, if_neg hblank, String.intercalate_singleton]
  rw [Text.trimEnd, String.toList_ofList] at hany
  constructor
  · rw [List.any_append, hany, Bool.false_or, List.any_cons, List.any_eq_false.mpr fun c hc => by
      rw [eq_of_mem_longClass hc]
      decide]
    rfl
  · obtain ⟨blanks, hsplit, hall⟩ := Text.exists_trimRight_append v.toList
    rw [hsplit] at hmem
    rcases List.mem_append.mp hmem with hmem | hmem
    · exact List.mem_append_left _ hmem
    · exact absurd (hall _ hmem) (by decide)

/-- In the end the string is empty: in its quotes the first time, and in others the second, when the
text is assigned anew. -/
theorem rewordAll_provoking (hname : isMarkupName name = true) (hv : Sticky ('\'', v)) :
    rewordAll (provoking target name v) ('\'', v) = ('\'', "")
      ∧ rewordAll (provoking target name v) ('\'', "") = ('"', "") := by
  obtain ⟨hany, hmem⟩ := append_longClass hv
  have hassign : ∀ w : String, w.toList.any Assignment.breaksValue = false →
      assigned? ⟨target, .addProp, name ++ "=" ++ SyntaxTree.quoted '"' w⟩ = some ⟨name, w⟩ :=
    fun w hw => ofText?_quoted hname hw
  have hne : append v [longClass v] ≠ "" := fun h => by
    rw [h] at hmem
    exact absurd hmem List.not_mem_nil
  -- The first value still differs in the second run, when the string starts out empty.
  have hempty : append "" [longClass v] ≠ append v [longClass v] := fun h => by
    rw [← h, ClassList.toList_append, if_pos (show Text.isBlankText "" = true from rfl),
      String.intercalate_singleton] at hmem
    exact absurd (eq_of_mem_longClass hmem) (by decide)
  constructor
  · rw [provoking, rewordAll_cons, rewordAll_cons, rewordAll_cons, rewordAll_nil,
      reword_longClass _ _ le_rfl, reword_of_assigned (hassign _ hany), if_pos rfl,
      reword_of_assigned (hassign "" rfl), if_neg hne]
    rfl
  · rw [provoking, rewordAll_cons, rewordAll_cons, rewordAll_cons, rewordAll_nil,
      reword_longClass _ _ (Nat.zero_le _), reword_of_assigned (hassign _ hany), if_neg hempty,
      if_pos (List.contains_iff_mem.mpr hmem), reword_of_assigned (hassign "" rfl), if_neg hne]
    rfl

open Property (picks)

/-- All of them are about attributes of that name. -/
lemma picks_provoking (hname : isMarkupName name = true) (hv : Sticky ('\'', v))
    {m : Modification} (hm : m ∈ provoking target name v) :
    picks [name] m = fun n => decide (n = some name) := by
  have hassigned : ∀ w : String, w.toList.any Assignment.breaksValue = false →
      picks [name] ⟨target, .addProp, name ++ "=" ++ SyntaxTree.quoted '"' w⟩
        = fun n => decide (n = some name) := fun w hw => by
    have ha : assigned? ⟨target, .addProp, name ++ "=" ++ SyntaxTree.quoted '"' w⟩
        = some ⟨name, w⟩ := ofText?_quoted hname hw
    funext n
    rw [picks, ha]
    rfl
  rw [provoking, List.mem_cons, List.mem_cons, List.mem_singleton] at hm
  rcases hm with rfl | rfl | rfl
  · funext n
    cases n with
    | none => rfl
    | some n => simp [picks]
  · exact hassigned _ (append_longClass hv).1
  · exact hassigned "" rfl

/-- Attributes among which one of that name is sticky are not the same the second time. -/
theorem reviseAll_provoking {ps : List Property} {p : Property} (hname : isMarkupName name = true)
    (hp : ps.find? (fun p => p.name = some name) = some p) (hs : p.string = some ('\'', v))
    (hv : Sticky ('\'', v)) :
    reviseAll [name] false (provoking target name v)
        (reviseAll [name] false (provoking target name v) ps)
      ≠ reviseAll [name] false (provoking target name v) ps := by
  obtain ⟨i, hi, hpi⟩ : ∃ i, (ps.map Property.name).findIdx? (fun n => decide (n = some name))
      = some i ∧ ps[i]? = some p := by
    rw [List.find?_eq_bind_findIdx?_getElem?, Option.bind_eq_some_iff] at hp
    obtain ⟨i, hi, hpi⟩ := hp
    exact ⟨i, by rw [List.findIdx?_map]; exact hi, hpi⟩
  set ms := provoking target name v with hms
  have hnames : (reviseAll [name] false ms ps).map Property.name = ps.map Property.name :=
    map_name_reviseAll_eq fun _ _ _ _ hadds => absurd hadds Bool.false_ne_true
  -- All three modifications pick the sticky property.
  have hpicking : picking [name] (ps.map Property.name) i ms = ms := by
    refine List.filter_eq_self.mpr fun m hm => decide_eq_true ?_
    rw [picks_provoking hname hv hm, hi]
  have honce : (reviseAll [name] false ms ps)[i]?
      = some { p with string := some ('\'', "") } := by
    rw [getElem?_reviseAll ms (List.getElem?_eq_some_iff.mp hpi).1, hpi, Option.map_some, hpicking,
      Property.rewordAll, hs, Option.map_some, hms, (rewordAll_provoking hname hv).1]
  -- The first run leaves an empty value in `'`, the second one in `"`.
  have hagain : (reviseAll [name] false ms (reviseAll [name] false ms ps))[i]?
      = some { p with string := some ('"', "") } := by
    rw [getElem?_reviseAll ms (List.getElem?_eq_some_iff.mp honce).1, honce, Option.map_some,
      hnames, hpicking, Property.rewordAll, Option.map_some, hms, (rewordAll_provoking hname hv).2]
  intro heq
  rw [heq, honce] at hagain
  simp at hagain

end Restyle
