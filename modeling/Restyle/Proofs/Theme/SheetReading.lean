import Restyle.Proofs.Theme.Declarations
import Restyle.Proofs.Theme.Extremes
import Restyle.Proofs.Theme.Stylesheet

/-!
The stylesheet of a theme is read again.

* `Tokens.named_of_mem_styleBlocks`: the names of a theme's declarations end where their values
  begin;
* `Tokens.unbroken_iff`: no value of a theme that was read breaks a line, unless a font does;
* `Tokens.Tells`: a stylesheet tells the radius, the colors and the fonts of a theme;
* `Tokens.css_tells_iff`: the blocks of a theme's stylesheet have a line for each declaration
  exactly if no font breaks a line, and they tell the theme exactly if the radius is finite, too.
-/

namespace Restyle

lemma Color.exists_of_stable {c : Color} (h : c.Stable) : ∃ s, ofText s = .ok c :=
  Decoder.exists_of_parsed (h 0)

/-- A radius that was read is printed without line breaks. -/
lemma Radius.notMem_text {s : String} {r : Radius} (h : ofText s = .ok r) :
    '\n' ∉ r.text.toList := by
  by_cases hinfinite : r = .rem (.infinity false)
  · rw [hinfinite]
    decide
  · cases r with
    | zero => decide
    | pill => decide
    | rem n =>
      have hfinite := isFinite_of_ne_infinity h hinfinite n rfl
      have hplain := (plain_of_ofText h hfinite).2
      have hbreak : '\n' ∉ n.plain.toList := fun hmem =>
        absurd (Color.not_isBlank_of_isPlain hplain _ hmem) (by decide)
      simp [text, hbreak]

/-- What is declared of stable colors is stable. -/
lemma stable_of_mem_declared {declared : List (String × Color)}
    {colors : List (String × Option Color)}
    (hvalues : declared.map Prod.snd = (givenColors colors).map Prod.snd)
    (h : ∀ m ∈ colors, ∀ c ∈ m.2, c.Stable) : ∀ m ∈ declared, m.2.Stable := by
  intro m hm
  have hvalue : m.2 ∈ (givenColors colors).map Prod.snd := hvalues ▸ List.mem_map_of_mem hm
  obtain ⟨⟨key, c⟩, hgiven, hc⟩ := List.mem_map.mp hvalue
  exact hc ▸ h _ (mem_givenColors.mp hgiven) c rfl

/-- No font breaks a line. -/
def Fonts.OneLine (f : Fonts) : Prop :=
  ∀ font ∈ [f.body, f.heading, f.mono], '\n' ∉ font.toList

instance (f : Fonts) : Decidable f.OneLine :=
  inferInstanceAs (Decidable (∀ font ∈ [f.body, f.heading, f.mono], '\n' ∉ font.toList))

namespace Tokens

open StyleBlock (Named Unbroken)

variable {t : Tokens} {json : String}

/-! ### The blocks of a theme -/

lemma read_of_ofJson (h : ofJson json = .ok t) :
    t.colors.Stable ∧ t.darkColors.Stable ∧ ∃ text, Radius.ofText text = .ok t.radius := by
  obtain ⟨hread, -⟩ := ofJson_eq_ok_iff.mp h
  exact read_of_decode (Decoder.decode_of_text hread) (Reading.inRange_ofText json)

lemma styleBlocks_ne_nil (t : Tokens) : t.styleBlocks ≠ [] :=
  List.cons_ne_nil _ _

/-- The names of all declarations of a theme. -/
def names : List String :=
  "radius" :: Palette.names ++ ["font-sans", "font-heading", "font-mono"]

/-- The blocks declare the known names only. -/
lemma names_subset {b : StyleBlock} (h : b ∈ t.styleBlocks) :
    b.declarations.map Prod.fst ⊆ names := by
  have hdark : DarkPalette.names ⊆ names := by decide
  have hlight : Palette.names ⊆ names := by decide
  simp only [styleBlocks, List.mem_cons, List.not_mem_nil, or_false] at h
  obtain rfl | rfl | rfl := h
  · simp only [lightDeclarations, List.map_cons, colorDeclarations, List.map_map]
    refine List.cons_subset.mpr ⟨List.mem_cons_self, ?_⟩
    exact fun name hname => hlight (t.colors.declared_names_sublist.subset hname)
  · simp only [darkDeclarations, colorDeclarations, List.map_map]
    exact fun name hname => hdark (t.darkColors.declared_names_sublist.subset hname)
  · exact List.subset_append_right _ _

/-- The names of a theme's declarations end where their values begin. -/
lemma named_of_mem_styleBlocks : ∀ b ∈ t.styleBlocks, Named b := by
  have hnames : ∀ name ∈ names, ':' ∉ name.toList ∧ '\n' ∉ name.toList := by decide
  have hselectors : ∀ selector ∈ t.styleBlocks.map StyleBlock.selector, '\n' ∉ selector.toList := by
    have heq : t.styleBlocks.map StyleBlock.selector = [":root", ".dark", "@theme inline"] := rfl
    rw [heq]
    decide
  intro b hb
  have hmem (d) (hd : d ∈ b.declarations) := hnames d.1 (names_subset hb (List.mem_map_of_mem hd))
  exact ⟨hselectors _ (List.mem_map_of_mem hb),
    fun d hd => (hmem d hd).1, fun d hd => (hmem d hd).2⟩

/-- Stable colors are printed without line breaks. -/
lemma notMem_of_mem_colorDeclarations {colors : List (String × Color)}
    (h : ∀ m ∈ colors, m.2.Stable) :
    ∀ d ∈ colorDeclarations colors, '\n' ∉ d.2.toList := by
  intro d hd
  obtain ⟨m, hm, rfl⟩ := List.mem_map.mp hd
  obtain ⟨s, hs⟩ := Color.exists_of_stable (h m hm)
  exact Color.notMem_text hs

/-- No value of a theme that was read breaks a line, unless a font does. -/
lemma unbroken_iff (h : ofJson json = .ok t) :
    (∀ b ∈ t.styleBlocks, Unbroken b) ↔ t.fonts.OneLine := by
  obtain ⟨hcolors, hdark, text, hradius⟩ := read_of_ofJson h
  have hlightBlock : Unbroken ⟨":root", t.lightDeclarations⟩ :=
    List.forall_mem_cons.mpr ⟨Radius.notMem_text hradius,
      notMem_of_mem_colorDeclarations (stable_of_mem_declared t.colors.map_snd_declared hcolors)⟩
  have hdarkBlock : Unbroken ⟨".dark", t.darkDeclarations⟩ :=
    notMem_of_mem_colorDeclarations (stable_of_mem_declared t.darkColors.map_snd_declared hdark)
  have hfonts : Unbroken ⟨"@theme inline", t.fontDeclarations⟩ ↔ t.fonts.OneLine := by
    simp [Unbroken, fontDeclarations, Fonts.OneLine]
  simp only [styleBlocks, List.forall_mem_cons, hlightBlock, hdarkBlock, hfonts, true_and]
  exact and_iff_left (List.forall_mem_nil _)

/-! ### What a stylesheet tells -/

/-- A declaration tells the color of a role. -/
def TellsColor (declaration : String × String) (role : String × Color) : Prop :=
  declaration.1 = role.1 ∧ Color.ofText declaration.2 = .ok role.2

/-- A stylesheet tells the radius, the colors and the fonts of a theme: they are read from the lines
of its three blocks. -/
def Tells (css : String) (t : Tokens) : Prop :=
  ∃ radius colors darkColors, StyleBlock.all? css = some [⟨":root", ("radius", radius) :: colors⟩,
      ⟨".dark", darkColors⟩, ⟨"@theme inline", [("font-sans", t.fonts.body),
        ("font-heading", t.fonts.heading), ("font-mono", t.fonts.mono)]⟩]
    ∧ Radius.ofText radius = .ok t.radius
    ∧ List.Forall₂ TellsColor colors t.colors.declared
    ∧ List.Forall₂ TellsColor darkColors t.darkColors.declared

/-- The declarations of stable colors tell the colors. -/
lemma tellsColor_colorDeclarations {colors : List (String × Color)} (h : ∀ m ∈ colors, m.2.Stable) :
    List.Forall₂ TellsColor (colorDeclarations colors) colors := by
  rw [colorDeclarations, List.forall₂_map_left_iff]
  refine List.forall₂_same.mpr fun m hm => ⟨rfl, ?_⟩
  obtain ⟨s, hs⟩ := Color.exists_of_stable (h m hm)
  exact Color.ofText_text hs

lemma length_styleBlocks (t : Tokens) :
    t.styleBlocks.map (fun b => b.declarations.length)
      = [1 + t.colors.declared.length, t.darkColors.declared.length, 3] := by
  simp [styleBlocks, lightDeclarations, darkDeclarations, fontDeclarations, colorDeclarations,
    Nat.add_comm]

/-- The sheet reads as its three blocks just when no font breaks a line. -/
lemma all?_css_iff (h : ofJson json = .ok t) :
    (StyleBlock.all? t.css).map (fun blocks => blocks.map fun b => b.declarations.length)
        = some [1 + t.colors.declared.length, t.darkColors.declared.length, 3]
      ↔ t.fonts.OneLine := by
  have hlines := StyleBlock.all?_sheet_iff t.styleBlocks_ne_nil t.named_of_mem_styleBlocks
  rwa [length_styleBlocks, unbroken_iff h] at hlines

/-- The stylesheet of tokens that were read consists of three blocks with a line for each of their
declarations exactly if no font breaks a line. It tells the radius, the colors and the fonts of the
tokens exactly if, besides, the radius is not infinite. -/
theorem css_tells_iff (h : ofJson json = .ok t) :
    ((StyleBlock.all? t.css).map (fun blocks => blocks.map fun b => b.declarations.length)
        = some [1 + t.colors.declared.length, t.darkColors.declared.length, 3] ↔ t.fonts.OneLine)
      ∧ (Tells t.css t ↔ t.fonts.OneLine ∧ t.radius ≠ .rem (.infinity false)) := by
  obtain ⟨hcolors, hdark, text, hradius⟩ := read_of_ofJson h
  have hread (hfonts : t.fonts.OneLine) : StyleBlock.all? t.css = some t.styleBlocks :=
    StyleBlock.all?_sheet t.styleBlocks_ne_nil t.named_of_mem_styleBlocks
      ((unbroken_iff h).mpr hfonts)
  refine ⟨all?_css_iff h, ?_, ?_⟩
  · rintro ⟨radius, colors, darkColors, hall, hr, hlight, hdark⟩
    have hfonts : t.fonts.OneLine := by
      refine (all?_css_iff h).mp ?_
      rw [hall]
      simp [hlight.length_eq, hdark.length_eq, Nat.add_comm]
    refine ⟨hfonts, fun hinfinite => ?_⟩
    -- The radius is the first line of the first block, so it is the one printed.
    obtain rfl : t.radius.text = radius := by
      have hsame := (hread hfonts).symm.trans hall
      simp only [styleBlocks, lightDeclarations, Option.some.injEq, List.cons.injEq,
        StyleBlock.mk.injEq, Prod.mk.injEq] at hsame
      exact hsame.1.2.1.2
    rw [hinfinite, Radius.ofText_infinity] at hr
    cases hr
  · rintro ⟨hfonts, hfinite⟩
    refine ⟨t.radius.text, colorDeclarations t.colors.declared,
      colorDeclarations t.darkColors.declared, hread hfonts, ?_, ?_, ?_⟩
    · exact Radius.ofText_text hradius (Radius.isFinite_of_ne_infinity hradius hfinite)
    · exact tellsColor_colorDeclarations (stable_of_mem_declared t.colors.map_snd_declared hcolors)
    · exact tellsColor_colorDeclarations
        (stable_of_mem_declared t.darkColors.map_snd_declared hdark)

/-- Tokens are read from a JSON value that is printed on one line. -/
lemma exists_ofJson_compact (v : Json) (fonts : Fonts) (radius : Radius) (hv : v.numbers = [])
    (h : (decode Decoder.maxDepth (.ofJson v)).map (fun t => (t.fonts, t.radius, t.check))
      = .ok (fonts, radius, .ok ())) :
    ∃ t, ofJson v.compact = .ok t ∧ t.fonts = fonts ∧ t.radius = radius := by
  cases hdecode : decode Decoder.maxDepth (.ofJson v) with
  | error e =>
    rw [hdecode] at h
    cases h
  | ok t =>
    rw [hdecode] at h
    obtain ⟨hfonts, hrest⟩ := Prod.mk.inj (Except.ok.inj h)
    obtain ⟨hradius, hcheck⟩ := Prod.mk.inj hrest
    exact ⟨t, ofJson_eq_ok_iff.mpr ⟨Json.text_compact hv hdecode, hcheck⟩, hfonts, hradius⟩

/-- Tokens with a font of one's choice for the body. -/
def dusk (body : String) : Json := .object [
  ("name", .string "dusk"), ("description", .string "Colors of the evening."),
  ("colors", .object (sampleColors "oklch(0.7 0.1 210)" Palette.requiredKeys)),
  ("darkColors", .object (sampleColors "oklch(0.2 0 0)" ["background", "foreground"])),
  ("fonts", .object
    [("heading", .string "Inter"), ("body", .string body), ("mono", .string "Fira")]),
  ("radius", .string "0.5rem")]

/-- A half. -/
def half : Binary64 := .finite false (2 ^ 52) (-53)

/-- A font with the marks of a declaration in it does no harm. -/
theorem css_tells_marked : ∃ t, ofJson (dusk "Inter; --ring: x").compact = .ok t
    ∧ t.fonts = ⟨"Inter", "Inter; --ring: x", "Fira"⟩ ∧ t.radius = .rem half ∧ Tells t.css t := by
  obtain ⟨t, ht, hfonts, hradius⟩ := exists_ofJson_compact (dusk "Inter; --ring: x")
    ⟨"Inter", "Inter; --ring: x", "Fira"⟩ (.rem half) rfl (by decide +kernel)
  have honeLine : t.fonts.OneLine := by
    rw [hfonts]
    decide
  have hfinite : t.radius ≠ .rem (.infinity false) := by
    rw [hradius]
    decide
  exact ⟨t, ht, hfonts, hradius, (css_tells_iff ht).2.mpr ⟨honeLine, hfinite⟩⟩

/-- A font with a line break is let through, and its declaration takes two lines. -/
theorem css_torn : ∃ t, ofJson (dusk "A\nB").compact = .ok t ∧ t.fonts = ⟨"Inter", "A\nB", "Fira"⟩
    ∧ (StyleBlock.all? t.css).map (fun blocks => blocks.map fun b => b.declarations.length)
      ≠ some [1 + t.colors.declared.length, t.darkColors.declared.length, 3] := by
  obtain ⟨t, ht, hfonts, -⟩ := exists_ofJson_compact (dusk "A\nB") ⟨"Inter", "A\nB", "Fira"⟩
    (.rem half) rfl (by decide +kernel)
  refine ⟨t, ht, hfonts, fun hlines => ?_⟩
  have honeLine := (all?_css_iff ht).mp hlines
  rw [hfonts] at honeLine
  exact absurd honeLine (by decide)

end Tokens

end Restyle
