import Restyle.Proofs.Bundle.Accepted
import Restyle.Proofs.Json.ReadBack
import Restyle.Proofs.Theme.Printed
import Restyle.Theme.Tokens

/-!
Design tokens that were read are read again as they are printed.

* `Decoder.stable_of_colors`: all colors of a decoded record are stable;
* `Decoder.colors_ofJson`: a record of stable colors is decoded to the same colors, and a color that
  is left out stays out;
* `Palette.decode_encode`, `DarkPalette.decode_encode`, `Fonts.decode_encode`,
  `Tokens.decode_encode`: what is decoded again from its JSON value;
* `Tokens.read_of_decode`, `Tokens.stable_of_decode`: all colors of decoded tokens are stable, and
  so is the radius unless it is infinite;
* `Tokens.ofJson_printed`: tokens that were read are read again as they are printed.
-/

namespace Restyle

/-! ### Records of colors -/

/-- The color of a key. -/
def colorOf (colors : List (String × Option Color)) (key : String) : Option Color :=
  (colors.find? fun m => m.1 = key).bind Prod.snd

section ColorOf

variable {key : String} {c : Color} {colors : List (String × Option Color)}

/-- A color that is found was given. -/
lemma exists_of_colorOf (h : colorOf colors key = some c) : (key, some c) ∈ colors := by
  obtain ⟨⟨k, o⟩, hfind, rfl⟩ := Option.bind_eq_some_iff.mp h
  have hkey := List.find?_some hfind
  simp only [decide_eq_true_eq] at hkey
  subst hkey
  exact List.mem_of_find?_eq_some hfind

/-- A name that was not given has no color. -/
lemma colorOf_eq_none (h : key ∉ colors.map Prod.fst) : colorOf colors key = none := by
  have hfind : (colors.find? fun m => m.1 = key) = none := by
    refine List.find?_eq_none.mpr fun m hm hkey => h ?_
    simp only [decide_eq_true_eq] at hkey
    exact hkey ▸ List.mem_map_of_mem hm
  rw [colorOf, hfind, Option.bind_none]

/-- A name given without a color changes what no name finds. -/
lemma colorOf_append_none (colors : List (String × Option Color)) (k key : String) :
    colorOf (colors ++ [(k, none)]) key = colorOf colors key := by
  rw [colorOf, List.find?_append, colorOf]
  cases colors.find? fun m => m.1 = key with
  | some m => rfl
  | none =>
    rw [Option.none_or, List.find?_singleton]
    split
    all_goals rfl

/-- The first entry answers for its own name. -/
lemma colorOf_cons (m : String × Option Color) (colors : List (String × Option Color))
    (key : String) :
    colorOf (m :: colors) key = if m.1 = key then m.2 else colorOf colors key := by
  rw [colorOf, List.find?_cons]
  by_cases h : m.1 = key
  · simp only [h, decide_true, if_true, Option.bind_some]
  · simp only [h, decide_false, if_false, colorOf]

/-- The colors given are those of the entries that have one. -/
lemma mem_givenColors : (key, c) ∈ givenColors colors ↔ (key, some c) ∈ colors := by
  simp only [givenColors, List.mem_filterMap, Option.map_eq_some_iff, Prod.mk.injEq, Prod.exists]
  constructor
  · rintro ⟨k, o, hmem, c', rfl, rfl, rfl⟩
    exact hmem
  · exact fun h => ⟨key, some c, h, c, rfl, rfl, rfl⟩

/-- The names of the colors given are among those of the entries, in their order. -/
lemma fst_givenColors_sublist (colors : List (String × Option Color)) :
    ((givenColors colors).map Prod.fst).Sublist (colors.map Prod.fst) := by
  induction colors with
  | nil => exact List.Sublist.refl _
  | cons m colors ih =>
    obtain ⟨k, o⟩ := m
    cases o with
    | none => exact ih.cons k
    | some c => exact ih.cons_cons k

/-- Leaving out the gaps of a record changes no color. -/
lemma colorOf_givenColors (hkeys : (colors.map Prod.fst).Nodup) (key : String) :
    colorOf ((givenColors colors).map fun m => (m.1, some m.2)) key = colorOf colors key := by
  induction colors with
  | nil => rfl
  | cons m colors ih =>
    obtain ⟨k, o⟩ := m
    obtain ⟨hnew, hrest⟩ := List.nodup_cons.mp hkeys
    cases o with
    | none =>
      have hgiven : givenColors ((k, none) :: colors) = givenColors colors := rfl
      rw [hgiven, ih hrest, colorOf_cons]
      split
      · next heq => exact colorOf_eq_none (heq ▸ hnew)
      · rfl
    | some c =>
      have hgiven : givenColors ((k, some c) :: colors) = (k, c) :: givenColors colors := rfl
      rw [hgiven, List.map_cons, colorOf_cons, colorOf_cons, ih hrest]

end ColorOf

namespace Decoder

section Colors

variable {name key : String} {required optional : List String} {levels : ℕ} {r : Reading}
  {colors given : List (String × Option Color)}

/-- A color that must be there. -/
def Field.requiredColor (key : String) : Field (List (String × Option Color)) :=
  .required key (fun given => (given.find? fun m => m.1 = key).map Prod.snd)
    (fun c given => given ++ [(key, c)]) fun levels r => (Color.decode levels r).map some

/-- A color that may be left out. -/
def Field.optionalColor (key : String) : Field (List (String × Option Color)) :=
  .defaulted key none (fun given => (given.find? fun m => m.1 = key).map Prod.snd)
    (fun c given => given ++ [(key, c)]) (nullable Color.decode)

lemma colors_eq (name : String) (required optional : List String) :
    Decoder.colors name required optional
      = Record.decode
          ⟨name, required.map Field.requiredColor ++ optional.map Field.optionalColor⟩ [] := rfl

/-- The fields of a palette store stable colors only. -/
lemma Field.preserves_color {f : Field (List (String × Option Color))}
    (hf : f ∈ required.map requiredColor ++ optional.map optionalColor) :
    f.Preserves levels fun given => ∀ m ∈ given, ∀ c ∈ m.2, c.Stable := by
  obtain hf | hf := List.mem_append.mp hf
  · obtain ⟨key, -, rfl⟩ := List.mem_map.mp hf
    refine .required fun {r a s} _ ha hs => ?_
    obtain ⟨c, hc, rfl⟩ := map_eq_ok_iff.mp ha
    refine List.forall_mem_append.mpr ⟨hs, List.forall_mem_singleton.mpr ?_⟩
    rintro _ ⟨⟩
    exact Color.stable_of_decode hc
  · obtain ⟨key, -, rfl⟩ := List.mem_map.mp hf
    refine .defaulted (fun {r a s} _ ha hs => ?_) fun {s} hs =>
      List.forall_mem_append.mpr ⟨hs, List.forall_mem_singleton.mpr nofun⟩
    refine List.forall_mem_append.mpr ⟨hs, List.forall_mem_singleton.mpr ?_⟩
    obtain rfl | ⟨c, rfl, hc⟩ := nullable_cases ha
    · exact nofun
    · rintro _ ⟨⟩
      exact Color.stable_of_decode hc

/-- All colors of a decoded record are stable. -/
lemma stable_of_colors (h : Decoder.colors name required optional levels r = .ok colors)
    (hr : r.InRange) {key : String} {c : Color} (hc : colorOf colors key = some c) : c.Stable := by
  rw [colors_eq] at h
  exact Record.preserves_decode (fun f hf => Field.preserves_color hf) hr
    (List.forall_mem_nil _) h _ (exists_of_colorOf hc) c rfl

/-- The field of a name is found by the name. -/
lemma find?_fields {α : Type} (key : String) (keys : List String) (fields : String → Field α)
    (hnames : ∀ k, (fields k).names = [k]) :
    (keys.map fields).find? (fun f => f.names.contains key)
      = (keys.find? fun k => k = key).map fields := by
  have hkey : ((fun f : Field α => f.names.contains key) ∘ fields) = fun k => decide (k = key) := by
    funext k
    simp [hnames, eq_comm]
  rw [List.find?_map, hkey]

lemma find?_of_mem {keys : List String} (h : key ∈ keys) :
    keys.find? (fun k => k = key) = some key := by
  obtain ⟨k, hk⟩ := Option.isSome_iff_exists.mp
    (List.find?_isSome (p := fun k => decide (k = key)) |>.mpr ⟨key, h, decide_eq_true rfl⟩)
  have hkey := List.find?_some hk
  simp only [decide_eq_true_eq] at hkey
  rwa [hkey] at hk

/-- A member of a record of colors adds its color. -/
lemma members_color {record : Record (List (String × Option Color))}
    (hrecord : record.fields = required.map Field.requiredColor ++ optional.map Field.optionalColor)
    (hkey : key ∈ required ++ optional) (hnew : key ∉ given.map Prod.fst) {c : Color}
    (hc : c.Stable) (ms : List (Except Complaint String × Reading)) :
    record.members levels ((.ok key, .ofJson c.encode) :: ms) given
      = record.members levels ms (given ++ [(key, some c)]) := by
  have hunset : ((given.find? fun m => m.1 = key).map Prod.snd).isSome = false := by
    have hfind : (given.find? fun m => m.1 = key) = none := by
      refine List.find?_eq_none.mpr fun m hm hkey => hnew ?_
      simp only [decide_eq_true_eq] at hkey
      exact hkey ▸ List.mem_map_of_mem hm
    rw [hfind]
    rfl
  have hrequired := find?_fields key required Field.requiredColor fun _ => rfl
  have hoptional := find?_fields key optional Field.optionalColor fun _ => rfl
  -- The required fields are looked through first.
  by_cases hmust : key ∈ required
  · refine Record.members_cons (f := Field.requiredColor key) ?_ hunset
      (Field.decode_required (map_eq_ok_iff.mpr ⟨c, hc levels, rfl⟩) given)
    rw [hrecord, List.find?_append, hrequired, find?_of_mem hmust]
    rfl
  · have hmay : key ∈ optional := (List.mem_append.mp hkey).resolve_left hmust
    have hnone : required.find? (fun k => k = key) = none := by
      refine List.find?_eq_none.mpr fun k hk heq => hmust ?_
      simp only [decide_eq_true_eq] at heq
      exact heq ▸ hk
    refine Record.members_cons (f := Field.optionalColor key) ?_ hunset
      (Field.decode_defaulted (nullable_of_ok (hc levels) nofun) given)
    rw [hrecord, List.find?_append, hrequired, hnone, hoptional, find?_of_mem hmay]
    rfl

/-- Members with the names of fields and stable colors store their colors in order. -/
lemma members_colors {record : Record (List (String × Option Color))}
    (hrecord : record.fields = required.map Field.requiredColor ++ optional.map Field.optionalColor)
    {ms : List (String × Color)} (hkeys : ∀ m ∈ ms, m.1 ∈ required ++ optional)
    (hnew : (given.map Prod.fst ++ ms.map Prod.fst).Nodup) (hstable : ∀ m ∈ ms, m.2.Stable) :
    record.members levels (Reading.ofMembers (ms.map fun m => (m.1, m.2.encode))) given
      = .ok (given ++ ms.map fun m => (m.1, some m.2)) := by
  induction ms generalizing given with
  | nil => simp [Reading.ofMembers, Record.members]
  | cons m ms ih =>
    obtain ⟨hkey, hkeys⟩ := List.forall_mem_cons.mp hkeys
    obtain ⟨hc, hstable⟩ := List.forall_mem_cons.mp hstable
    have hfresh : m.1 ∉ given.map Prod.fst := by
      rw [List.map_cons] at hnew
      exact fun hmem => (List.disjoint_of_nodup_append hnew) hmem List.mem_cons_self
    rw [List.map_cons, Reading.ofMembers, members_color hrecord hkey hfresh hc, ih hkeys _ hstable]
    · rw [List.map_cons, List.append_assoc, List.singleton_append]
    · rwa [List.map_append, List.append_assoc]

/-- Required colors that were given need no settling. -/
lemma settle_requiredColors (fs : List (Field (List (String × Option Color))))
    (h : ∀ k ∈ required, k ∈ given.map Prod.fst) :
    Record.settle (required.map Field.requiredColor ++ fs) given = Record.settle fs given := by
  induction required with
  | nil => rfl
  | cons k required ih =>
    obtain ⟨hk, hrequired⟩ := List.forall_mem_cons.mp h
    obtain ⟨m, hm, rfl⟩ := List.mem_map.mp hk
    have hset : (Field.requiredColor m.1).isSet given = true := by
      have hfind : (given.find? fun m' => m'.1 = m.1).isSome = true :=
        List.find?_isSome.mpr ⟨m, hm, by simp⟩
      simpa [Field.requiredColor, Field.required] using hfind
    rw [List.map_cons, List.cons_append, Record.settle, if_pos hset, ih hrequired]

/-- What is left out stays without color. -/
lemma exists_settle_optionalColors (optional : List String)
    (given : List (String × Option Color)) :
    ∃ colors, Record.settle (optional.map Field.optionalColor) given = .ok colors
      ∧ ∀ key, colorOf colors key = colorOf given key := by
  induction optional generalizing given with
  | nil => exact ⟨given, rfl, fun _ => rfl⟩
  | cons k optional ih =>
    rw [List.map_cons, Record.settle]
    split
    · exact ih given
    · obtain ⟨colors, hsettle, hcolors⟩ := ih (given ++ [(k, none)])
      exact ⟨colors, hsettle, fun key => (hcolors key).trans (colorOf_append_none given k key)⟩

/-- A record of stable colors is decoded to the same colors. -/
theorem colors_ofJson (name : String) (hlevels : 2 ≤ levels)
    (hnames : colors.map Prod.fst = required ++ optional)
    (hkeys : (required ++ optional).Nodup)
    (hrequired : ∀ k ∈ required, (colorOf colors k).isSome = true)
    (hstable : ∀ m ∈ colors, ∀ c ∈ m.2, c.Stable) :
    ∃ decoded, Decoder.colors name required optional levels (.ofJson
        (.object ((givenColors colors).map fun m => (m.1, m.2.encode)))) = .ok decoded
      ∧ ∀ key, colorOf decoded key = colorOf colors key := by
  have hgiven := fst_givenColors_sublist colors
  rw [hnames] at hgiven
  have hmembers : (Record.mk name
        (required.map Field.requiredColor ++ optional.map Field.optionalColor)).members (levels - 1)
        (Reading.ofMembers ((givenColors colors).map fun m => (m.1, m.2.encode))) []
      = .ok ((givenColors colors).map fun m => (m.1, some m.2)) :=
    members_colors rfl (fun m hm => hgiven.subset (List.mem_map_of_mem hm)) (hkeys.sublist hgiven)
      fun m hm => hstable _ (mem_givenColors.mp hm) m.2 rfl
  -- Every required color is there, so none is missed when the fields are settled.
  have hset : ∀ k ∈ required,
      k ∈ ((givenColors colors).map fun m => (m.1, some m.2)).map Prod.fst := by
    intro k hk
    obtain ⟨c, hc⟩ := Option.isSome_iff_exists.mp (hrequired k hk)
    rw [List.map_map]
    exact List.mem_map_of_mem (f := Prod.fst) (mem_givenColors.mpr (exists_of_colorOf hc))
  obtain ⟨decoded, hsettle, hcolors⟩ := exists_settle_optionalColors optional
    ((givenColors colors).map fun m => (m.1, some m.2))
  refine ⟨decoded, ?_, fun key => (hcolors key).trans ?_⟩
  · rw [colors_eq, Reading.ofJson]
    exact Record.decode_object hlevels hmembers ((settle_requiredColors _ hset).trans hsettle)
  · exact colorOf_givenColors (hnames ▸ hkeys) key

end Colors

end Decoder

/-! ### Palettes -/

section Palettes

variable {levels : ℕ} {r : Reading}

namespace Palette

/-- All colors by the names under which they are written down, with gaps. -/
def colors (p : Palette) : List (String × Option Color) := [
  ("primary", p.primary), ("primaryForeground", p.primaryForeground),
  ("secondary", p.secondary), ("secondaryForeground", p.secondaryForeground),
  ("muted", p.muted), ("mutedForeground", p.mutedForeground), ("accent", p.accent),
  ("accentForeground", p.accentForeground), ("destructive", p.destructive),
  ("destructiveForeground", p.destructiveForeground), ("background", p.background),
  ("foreground", p.foreground), ("card", p.card), ("cardForeground", p.cardForeground),
  ("popover", p.popover), ("popoverForeground", p.popoverForeground), ("border", p.border),
  ("input", p.input), ("ring", p.ring),
  ("chart1", p.chart1), ("chart2", p.chart2), ("chart3", p.chart3), ("chart4", p.chart4),
  ("chart5", p.chart5)]

lemma encode_eq (p : Palette) :
    p.encode = .object ((givenColors p.colors).map fun m => (m.1, m.2.encode)) := rfl

/-- A palette whose colors are stable. -/
def Stable (p : Palette) : Prop :=
  ∀ m ∈ p.colors, ∀ c ∈ m.2, c.Stable

lemma ofColors?_colors (p : Palette) : ofColors? (colorOf p.colors) = some p := rfl

/-- A palette has the colors it was made from. -/
lemma colorOf_of_ofColors? {color : String → Option Color} {p : Palette}
    (h : ofColors? color = some p) : ∀ m ∈ p.colors, color m.1 = m.2 := by
  rw [ofColors?] at h
  -- one color for each role
  iterate 19 obtain ⟨c, hc, h⟩ := Option.bind_eq_some_iff.mp h
  cases h
  simp [colors, *]

/-- The colors of a palette that was decoded are stable. -/
lemma stable_of_decode {p : Palette} (h : decode levels r = .ok p) (hr : r.InRange) :
    p.Stable := by
  unfold decode at h
  split at h
  · cases h
  · next given hgiven =>
    split at h
    · next p' hp =>
      cases h
      intro m hm c hc
      have hcolor : colorOf given m.1 = some c := (colorOf_of_ofColors? hp m hm).trans hc
      exact Decoder.stable_of_colors hgiven hr hcolor
    · cases h

/-- A palette of stable colors is decoded again from its JSON value. -/
theorem decode_encode (hlevels : 2 ≤ levels) {p : Palette} (h : p.Stable) :
    decode levels (.ofJson p.encode) = .ok p := by
  have hnames : p.colors.map Prod.fst = requiredKeys ++ chartKeys := rfl
  obtain ⟨given, hgiven, hcolors⟩ := Decoder.colors_ofJson "ColorPalette" hlevels hnames
    (by decide) (List.all_eq_true.mp rfl) h
  have hsame : colorOf given = colorOf p.colors := funext hcolors
  have hpalette : ofColors? (fun key => (given.find? fun m => m.1 = key).bind Prod.snd)
      = some p := by
    rw [← ofColors?_colors p, ← hsame]
    rfl
  rw [decode, encode_eq, hgiven]
  dsimp only
  rw [hpalette]

end Palette

namespace DarkPalette

/-- All colors by the names under which they are written down, with gaps. -/
def colors (p : DarkPalette) : List (String × Option Color) := [
  ("background", p.background), ("foreground", p.foreground),
  ("card", p.card), ("cardForeground", p.cardForeground), ("popover", p.popover),
  ("popoverForeground", p.popoverForeground), ("primary", p.primary),
  ("primaryForeground", p.primaryForeground), ("secondary", p.secondary),
  ("secondaryForeground", p.secondaryForeground), ("muted", p.muted),
  ("mutedForeground", p.mutedForeground), ("accent", p.accent),
  ("accentForeground", p.accentForeground), ("destructive", p.destructive),
  ("border", p.border), ("input", p.input), ("ring", p.ring)]

lemma encode_eq (p : DarkPalette) :
    p.encode = .object ((givenColors p.colors).map fun m => (m.1, m.2.encode)) := rfl

/-- A palette whose colors are stable. -/
def Stable (p : DarkPalette) : Prop :=
  ∀ m ∈ p.colors, ∀ c ∈ m.2, c.Stable

lemma ofColors?_colors (p : DarkPalette) : ofColors? (colorOf p.colors) = some p := rfl

/-- A dark palette has the colors it was made from. -/
lemma colorOf_of_ofColors? {color : String → Option Color} {p : DarkPalette}
    (h : ofColors? color = some p) : ∀ m ∈ p.colors, color m.1 = m.2 := by
  obtain ⟨c, hbackground, h⟩ := Option.bind_eq_some_iff.mp h
  obtain ⟨c', hforeground, h⟩ := Option.bind_eq_some_iff.mp h
  cases h
  simp [colors, hbackground, hforeground]

/-- The colors of a dark palette that was decoded are stable. -/
lemma stable_of_decode {p : DarkPalette} (h : decode levels r = .ok p) (hr : r.InRange) :
    p.Stable := by
  unfold decode at h
  split at h
  · cases h
  · next given hgiven =>
    split at h
    · next p' hp =>
      cases h
      intro m hm c hc
      have hcolor : colorOf given m.1 = some c := (colorOf_of_ofColors? hp m hm).trans hc
      exact Decoder.stable_of_colors hgiven hr hcolor
    · cases h

/-- A dark palette of stable colors is decoded again from its JSON value. -/
theorem decode_encode (hlevels : 2 ≤ levels) {p : DarkPalette} (h : p.Stable) :
    decode levels (.ofJson p.encode) = .ok p := by
  have hnames : p.colors.map Prod.fst = ["background", "foreground"] ++ optionalKeys := rfl
  obtain ⟨given, hgiven, hcolors⟩ := Decoder.colors_ofJson "DarkColorOverrides" hlevels hnames
    (by decide) (List.all_eq_true.mp rfl) h
  have hsame : colorOf given = colorOf p.colors := funext hcolors
  have hpalette : ofColors? (fun key => (given.find? fun m => m.1 = key).bind Prod.snd)
      = some p := by
    rw [← ofColors?_colors p, ← hsame]
    rfl
  rw [decode, encode_eq, hgiven]
  dsimp only
  rw [hpalette]

end DarkPalette

end Palettes

/-! ### Tokens -/

lemma Fonts.decode_encode {levels : ℕ} (hlevels : 2 ≤ levels) (f : Fonts) :
    decode levels (.ofJson f.encode) = .ok f := by
  obtain ⟨levels, rfl⟩ : ∃ k, levels = k + 2 := ⟨levels - 2, by omega⟩
  rfl

namespace Tokens

variable {levels : ℕ} {r : Reading} {t : Tokens}

/-- Tokens whose colors and radius are decoded again from their JSON values. -/
structure Stable (t : Tokens) : Prop where
  colors : t.colors.Stable
  darkColors : t.darkColors.Stable
  radius : t.radius.Stable

/-- What is known of tokens that are being decoded: stable colors, and a radius that was read. -/
structure Draft.Read (s : Draft) : Prop where
  colors : ∀ p, s.colors = some p → p.Stable
  darkColors : ∀ p, s.darkColors = some p → p.Stable
  radius : ∀ v, s.radius = some v → ∃ text, Radius.ofText text = .ok v

lemma Draft.read_empty : Draft.Read {} where
  colors p h := by cases h
  darkColors p h := by cases h
  radius v h := by cases h

/-- The colors of decoded tokens are stable, and the radius was read. -/
lemma read_of_decode (h : decode levels r = .ok t) (hr : r.InRange) :
    t.colors.Stable ∧ t.darkColors.Stable ∧ ∃ text, Radius.ofText text = .ok t.radius := by
  unfold decode at h
  dsimp only at h
  split at h
  · next name description colors darkColors fonts radius hrecord =>
    cases h
    have hread := Decoder.Record.preserves_decode (I := Draft.Read) ?_ hr Draft.read_empty hrecord
    · exact ⟨hread.colors _ rfl, hread.darkColors _ rfl, hread.radius _ rfl⟩
    -- Of the six fields, three store something that has to have been read.
    refine List.forall_mem_cons.mpr ⟨?_, List.forall_mem_cons.mpr ⟨?_, List.forall_mem_cons.mpr
      ⟨?_, List.forall_mem_cons.mpr ⟨?_, List.forall_mem_cons.mpr
        ⟨?_, List.forall_mem_singleton.mpr ?_⟩⟩⟩⟩⟩
    · exact .required fun _ _ hs => ⟨hs.colors, hs.darkColors, hs.radius⟩
    · exact .required fun _ _ hs => ⟨hs.colors, hs.darkColors, hs.radius⟩
    · refine .required fun hr hp hs => ⟨?_, hs.darkColors, hs.radius⟩
      rintro _ ⟨⟩
      exact Palette.stable_of_decode hp hr
    · refine .required fun hr hp hs => ⟨hs.colors, ?_, hs.radius⟩
      rintro _ ⟨⟩
      exact DarkPalette.stable_of_decode hp hr
    · exact .required fun _ _ hs => ⟨hs.colors, hs.darkColors, hs.radius⟩
    · refine .required fun _ hv hs => ⟨hs.colors, hs.darkColors, ?_⟩
      rintro _ ⟨⟩
      exact Decoder.exists_of_parsed hv
  · cases h
  · cases h

lemma stable_of_decode (h : decode levels r = .ok t) (hr : r.InRange)
    (hradius : ∀ n, t.radius = .rem n → n.IsFinite) : t.Stable := by
  obtain ⟨hcolors, hdark, text, htext⟩ := read_of_decode h hr
  exact ⟨hcolors, hdark, Decoder.parsed_ofJson (Radius.ofText_text htext hradius)⟩

/-- Tokens of stable colors and radius are decoded again from their JSON value. -/
theorem decode_encode (hlevels : 3 ≤ levels) (h : t.Stable) :
    decode levels (.ofJson t.encode) = .ok t := by
  have hcolors := Palette.decode_encode (show 2 ≤ levels - 1 by omega) h.colors
  have hdark := DarkPalette.decode_encode (show 2 ≤ levels - 1 by omega) h.darkColors
  have hfonts := Fonts.decode_encode (show 2 ≤ levels - 1 by omega) t.fonts
  have hradius := h.radius (levels - 1)
  unfold decode
  dsimp only
  generalize hrecord : (Decoder.Record.mk "DesignTokens" _ : Decoder.Record Draft) = record
  -- The six members are read in their order, each stored by its own field.
  have hmembers : record.members (levels - 1) (Reading.ofMembers [("name", .string t.name),
        ("description", .string t.description), ("colors", t.colors.encode),
        ("darkColors", t.darkColors.encode), ("fonts", t.fonts.encode),
        ("radius", t.radius.encode)]) {}
      = .ok ⟨some t.name, some t.description, some t.colors, some t.darkColors, some t.fonts,
        some t.radius⟩ := by
    subst hrecord
    rw [Reading.ofMembers, Decoder.Record.members_cons rfl rfl rfl,
      Reading.ofMembers, Decoder.Record.members_cons rfl rfl rfl,
      Reading.ofMembers,
      Decoder.Record.members_cons rfl rfl (Decoder.Field.decode_required hcolors _),
      Reading.ofMembers,
      Decoder.Record.members_cons rfl rfl (Decoder.Field.decode_required hdark _),
      Reading.ofMembers,
      Decoder.Record.members_cons rfl rfl (Decoder.Field.decode_required hfonts _),
      Reading.ofMembers,
      Decoder.Record.members_cons rfl rfl (Decoder.Field.decode_required hradius _)]
    rfl
  have hsettle := Decoder.Record.decode_object (show 2 ≤ levels by omega) hmembers
    (by subst hrecord; rfl)
  rw [encode, Reading.ofJson, hsettle]

lemma numbers_colors (colors : List (String × Color)) :
    (Json.object (colors.map fun m => (m.1, m.2.encode))).numbers = [] := by
  rw [Json.numbers, Json.memberNumbers_eq_flatMap, List.flatMap_map]
  exact List.flatMap_eq_nil_iff.mpr fun _ _ => rfl

/-- No number stands in tokens, other than as part of a string. -/
lemma numbers_encode (t : Tokens) : t.encode.numbers = [] := by
  have hcolors : t.colors.encode.numbers = [] := numbers_colors _
  have hdark : t.darkColors.encode.numbers = [] := numbers_colors _
  rw [encode, Json.numbers]
  simp only [Json.memberNumbers, hcolors, hdark]
  rfl

/-- A text is accepted just when it decodes to tokens that pass the check. -/
lemma ofJson_eq_ok_iff {json : String} :
    ofJson json = .ok t ↔ Decoder.text decode json = .ok t ∧ t.check = .ok () := by
  unfold ofJson
  cases hread : Decoder.text decode json with
  | error c => exact ⟨nofun, fun h => nomatch h.1⟩
  | ok t' =>
    cases hcheck : t'.check with
    | error e =>
      simp only [hcheck, reduceCtorEq, Except.ok.injEq, false_iff, not_and]
      rintro rfl hok
      rw [hok] at hcheck
      cases hcheck
    | ok u =>
      simp only [hcheck, Except.ok.injEq]
      refine ⟨fun hsame => ⟨hsame, ?_⟩, fun h => h.1⟩
      rw [← hsame, hcheck]

/-- Tokens that were read are read again as they are printed, on one line or on many, unless the
radius is infinite. -/
theorem ofJson_printed {json : String} (h : ofJson json = .ok t)
    (hradius : ∀ n, t.radius = .rem n → n.IsFinite) :
    ofJson t.encode.compact = .ok t ∧ ofJson t.encode.pretty = .ok t := by
  obtain ⟨hread, hcheck⟩ := ofJson_eq_ok_iff.mp h
  have hstable := stable_of_decode (Decoder.decode_of_text hread) (Reading.inRange_ofText json)
    hradius
  have hdecode : decode Decoder.maxDepth (.ofJson t.encode) = .ok t :=
    decode_encode (by decide) hstable
  have hnumbers : ∀ n ∈ t.encode.numbers, (Json.number n).Kept := by
    rw [numbers_encode]
    exact nofun
  have hcompact := Json.text_of_ofText (Json.kept_of_numbers t.encode hnumbers) hdecode
  have hpretty := Json.text_pretty hnumbers hdecode
  exact ⟨ofJson_eq_ok_iff.mpr ⟨hcompact, hcheck⟩, ofJson_eq_ok_iff.mpr ⟨hpretty, hcheck⟩⟩

/-- Members that give each key the same color. -/
def sampleColors (color : String) (keys : List String) : List (String × Json) :=
  keys.map fun key => (key, .string color)

/-- Tokens with one color for charts, another that is `null`, and one dark color that is not
required. The numbers are not all written in the shortest way. -/
def sample : Json := .object [
  ("name", .string "deep-sea"), ("description", .string "Calm colors of the sea."),
  ("colors", .object (sampleColors "oklch(0.7 0.1 210)" Palette.requiredKeys
    ++ [("chart1", .string "oklch(0.550 .25 359.5)"), ("chart2", .null)])),
  ("darkColors", .object (sampleColors "oklch(1. 0 000)" ["background", "foreground", "card"])),
  ("fonts", .object [("heading", .string "Inter"), ("body", .string "Inter"),
    ("mono", .string "Fira")]),
  ("radius", .string "0.625rem")]

/-- Five eighths. -/
def fiveEighths : Binary64 := .finite false 5629499534213120 (-53)

theorem ofJson_printed_sample :
    ∃ t, ofJson sample.compact = .ok t ∧ t.radius = .rem fiveEighths
      ∧ t.colors.chart1.isSome = true ∧ t.colors.chart2 = none ∧ t.colors.chart3 = none
      ∧ t.darkColors.card.isSome = true ∧ t.darkColors.ring = none
      ∧ ofJson t.encode.compact = .ok t ∧ ofJson t.encode.pretty = .ok t := by
  have hdecode : (decode Decoder.maxDepth (.ofJson sample)).map (fun t => (t.radius,
        t.check, [t.colors.chart1.isSome, t.colors.chart2.isSome, t.colors.chart3.isSome,
          t.darkColors.card.isSome, t.darkColors.ring.isSome]))
      = .ok (.rem fiveEighths, .ok (), [true, false, false, true, false]) := by decide +kernel
  -- The tokens are whatever the sample decodes to; only some of their fields are computed.
  cases h : decode Decoder.maxDepth (.ofJson sample) with
  | error e =>
    rw [h] at hdecode
    cases hdecode
  | ok t =>
    rw [h] at hdecode
    obtain ⟨hradius, hrest⟩ := Prod.mk.inj (Except.ok.inj hdecode)
    obtain ⟨hcheck, hcolors⟩ := Prod.mk.inj hrest
    simp only [List.cons.injEq, Option.isSome_eq_false_iff, Option.isNone_iff_eq_none] at hcolors
    obtain ⟨hchart1, hchart2, hchart3, hcard, hring, -⟩ := hcolors
    have hnone : ∀ n ∈ sample.numbers, (Json.number n).Kept := nofun
    have htext := Json.text_of_ofText (Json.kept_of_numbers sample hnone) h
    have hread : ofJson sample.compact = .ok t := ofJson_eq_ok_iff.mpr ⟨htext, hcheck⟩
    have hagain := ofJson_printed hread fun n hn => by
      rw [hradius] at hn
      cases hn
      trivial
    exact ⟨t, hread, hradius, hchart1, hchart2, hchart3, hcard, hring, hagain⟩

end Tokens

end Restyle
