import Restyle.Proofs.Theme.RoundTrip
import Restyle.Stylesheet

/-!
The declarations of a theme.

* `Palette.declared_eq`, `DarkPalette.declared_eq`: a palette declares the colors that it gives,
  each under the name of its role; `map_snd_declared`: these are all of its colors;
* `nodup_declared`: no name is declared twice;
* `DarkPalette.declared_subset`: what the dark theme overrides has a color in the light one.
-/

namespace Restyle

/-- Leaving out the gaps keeps the colors in their order. -/
lemma map_snd_givenColors (colors : List (String × Option Color)) :
    (givenColors colors).map Prod.snd = (colors.map Prod.snd).filterMap id := by
  rw [givenColors, List.map_filterMap, List.filterMap_map]
  congr 1
  funext m
  obtain ⟨name, _ | c⟩ := m
  · rfl
  · rfl

/-- Under whatever names, the colors that are given are the same. -/
lemma map_snd_givenColors_zip {names : List String} {colors : List (String × Option Color)}
    (h : names.length = colors.length) :
    (givenColors (names.zip (colors.map Prod.snd
      ))).map Prod.snd = (givenColors colors).map Prod.snd := by
  have hzip : (names.zip (colors.map Prod.snd)).map Prod.snd = colors.map Prod.snd :=
    List.map_snd_zip (by rw [List.length_map, h])
  rw [map_snd_givenColors, hzip, map_snd_givenColors]

namespace Palette

/-- The names of the roles in a stylesheet. -/
def names : List String := [
  "primary", "primary-foreground", "secondary", "secondary-foreground", "muted",
  "muted-foreground", "accent", "accent-foreground", "destructive", "destructive-foreground",
  "background", "foreground", "card", "card-foreground", "popover", "popover-foreground",
  "border", "input", "ring", "chart-1", "chart-2", "chart-3", "chart-4", "chart-5"]

variable (p : Palette)

lemma declared_eq : p.declared = givenColors (names.zip (p.colors.map Prod.snd)) := rfl

/-- All colors of a palette are declared. -/
lemma map_snd_declared : p.declared.map Prod.snd = (givenColors p.colors).map Prod.snd := by
  rw [declared_eq]
  exact map_snd_givenColors_zip rfl

lemma declared_names_sublist : (p.declared.map Prod.fst).Sublist names :=
  fst_givenColors_sublist (names.zip (p.colors.map Prod.snd))

lemma nodup_declared : (p.declared.map Prod.fst).Nodup :=
  List.Nodup.sublist p.declared_names_sublist (by decide)

/-- Every role but those of the charts has a color. -/
lemma names_subset_declared : names.take 19 ⊆ p.declared.map Prod.fst := by
  rw [declared, List.map_append]
  exact List.subset_append_left _ _

end Palette

namespace DarkPalette

/-- The names of the roles in a stylesheet. -/
def names : List String := [
  "background", "foreground", "card", "card-foreground", "popover", "popover-foreground",
  "primary", "primary-foreground", "secondary", "secondary-foreground", "muted",
  "muted-foreground", "accent", "accent-foreground", "destructive", "border", "input", "ring"]

variable (p : DarkPalette)

lemma declared_eq : p.declared = givenColors (names.zip (p.colors.map Prod.snd)) := rfl

/-- All colors of a palette are declared. -/
lemma map_snd_declared : p.declared.map Prod.snd = (givenColors p.colors).map Prod.snd := by
  rw [declared_eq]
  exact map_snd_givenColors_zip rfl

lemma declared_names_sublist : (p.declared.map Prod.fst).Sublist names :=
  fst_givenColors_sublist (names.zip (p.colors.map Prod.snd))

lemma nodup_declared : (p.declared.map Prod.fst).Nodup :=
  List.Nodup.sublist p.declared_names_sublist (by decide)

/-- What the dark theme overrides has a color in the light one. -/
lemma declared_subset (light : Palette) :
    p.declared.map Prod.fst ⊆ light.declared.map Prod.fst := by
  have hnames : names ⊆ Palette.names.take 19 := by decide
  exact fun name hname =>
    light.names_subset_declared (hnames (p.declared_names_sublist.subset hname))

end DarkPalette

end Restyle
