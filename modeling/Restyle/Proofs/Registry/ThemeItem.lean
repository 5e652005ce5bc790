import Restyle.Proofs.Json.Decoding
import Restyle.Proofs.Theme.Declarations
import Restyle.Registry

/-!
The item of a theme and the theme's stylesheet.

* `ScopedVars.ofDeclarations_eq`: declarations with different names are all kept, in their order;
* `nodup_lightDeclarations`: the names of a block are different;
* `css_eq_cssVars`: the stylesheet declares what the item carries, in the same order, and nothing is
  lost.
-/

namespace Restyle

/-! ### Variables -/

namespace ScopedVars

/-- Declarations as variables. -/
def vars (declarations : List (String × String)) : List (String × Json) :=
  declarations.map fun (name, value) => (name, .string value)

variable {declarations : List (String × String)}

lemma map_fst_vars (declarations : List (String × String)) :
    (vars declarations).map Prod.fst = declarations.map Prod.fst :=
  List.map_map

/-- Declarations with new names are put behind the variables that are there. -/
lemma foldl_insert (before : List (String × String))
    (h : ((before ++ declarations).map Prod.fst).Nodup) :
    declarations.foldl (fun vars (name, value) => Json.insert name (.string value) vars)
      (vars before)
      = vars (before ++ declarations) := by
  induction declarations generalizing before with
  | nil => rw [List.foldl_nil, List.append_nil]
  | cons d declarations ih =>
    obtain ⟨name, value⟩ := d
    have hnew : name ∉ (vars before).map Prod.fst := by
      rw [List.map_append, List.map_cons] at h
      rw [map_fst_vars]
      exact fun hmem => List.disjoint_of_nodup_append h hmem List.mem_cons_self
    have happend : before ++ (name, value) :: declarations
        = (before ++ [(name, value)]) ++ declarations := by
      rw [List.append_assoc, List.singleton_append]
    have hvars : vars before ++ [(name, .string value)] = vars (before ++ [(name, value)]) := by
      rw [vars, vars, List.map_append, List.map_singleton]
    rw [List.foldl_cons]
    dsimp only
    rw [Json.insert_of_notMem hnew, hvars, ih _ (happend ▸ h), happend]

/-- Declarations with different names are all kept, in their order. -/
lemma ofDeclarations_eq (h : (declarations.map Prod.fst).Nodup) :
    ofDeclarations declarations = vars declarations :=
  foldl_insert [] h

end ScopedVars

/-! ### Blocks -/

namespace Tokens

variable (t : Tokens)

lemma map_fst_colorDeclarations (colors : List (String × Color)) :
    (colorDeclarations colors).map Prod.fst = colors.map Prod.fst :=
  List.map_map

lemma nodup_lightDeclarations : (t.lightDeclarations.map Prod.fst).Nodup := by
  rw [lightDeclarations, List.map_cons, map_fst_colorDeclarations, List.nodup_cons]
  have hradius : "radius" ∉ Palette.names := by decide
  exact ⟨fun h => hradius (t.colors.declared_names_sublist.subset h), t.colors.nodup_declared⟩

lemma nodup_darkDeclarations : (t.darkDeclarations.map Prod.fst).Nodup := by
  rw [darkDeclarations, map_fst_colorDeclarations]
  exact t.darkColors.nodup_declared

lemma nodup_fontDeclarations : (t.fontDeclarations.map Prod.fst).Nodup := by
  have hnames : t.fontDeclarations.map Prod.fst = ["font-sans", "font-heading", "font-mono"] := rfl
  rw [hnames]
  decide

lemma darkDeclarations_subset :
    t.darkDeclarations.map Prod.fst ⊆ t.lightDeclarations.map Prod.fst := by
  rw [darkDeclarations, lightDeclarations, List.map_cons, map_fst_colorDeclarations,
    map_fst_colorDeclarations]
  exact fun name hname => List.mem_cons_of_mem _ (t.darkColors.declared_subset t.colors hname)

end Tokens

/-! ### The item -/

namespace Registry

open ScopedVars (vars)

/-- The stylesheet of a theme declares, in its three blocks, what the item of the theme carries, in
the same order and one line for each. Each name stands once in its block, the radius, all colors and
all fonts are there, and what the dark block declares is declared in the light one. -/
theorem css_eq_cssVars (t : Tokens) (settings : RegistrySettings) :
    let lines (entries : List (String × String)) : String :=
      String.join (entries.map fun (key, value) => "  --" ++ key ++ ": " ++ value ++ ";\n")
    ∃ theme light dark : List (String × String),
      (themeItem t settings).cssVars = some ⟨vars theme, vars light, vars dark⟩
        ∧ t.css = ":root \x7b\n" ++ lines light ++ "\x7d\n"
          ++ "\n" ++ ".dark \x7b\n" ++ lines dark ++ "\x7d\n"
          ++ "\n" ++ "@theme inline \x7b\n" ++ lines theme ++ "\x7d\n"
        ∧ (theme.map Prod.fst).Nodup ∧ (light.map Prod.fst).Nodup ∧ (dark.map Prod.fst).Nodup
        ∧ theme.map Prod.snd = [t.fonts.body, t.fonts.heading, t.fonts.mono]
        ∧ light.map Prod.snd = t.radius.text :: (givenColors t.colors.colors).map (·.2.text)
        ∧ dark.map Prod.snd = (givenColors t.darkColors.colors).map (·.2.text)
        ∧ dark.map Prod.fst ⊆ light.map Prod.fst := by
  intro lines
  have hvalues (colors : List (String × Color)) :
      (Tokens.colorDeclarations colors).map Prod.snd = (colors.map Prod.snd).map Color.text := by
    rw [Tokens.colorDeclarations, List.map_map, List.map_map]
    rfl
  refine ⟨t.fontDeclarations, t.lightDeclarations, t.darkDeclarations, ?_, ?_,
    t.nodup_fontDeclarations, t.nodup_lightDeclarations, t.nodup_darkDeclarations, rfl, ?_, ?_,
    t.darkDeclarations_subset⟩
  · rw [← ScopedVars.ofDeclarations_eq t.nodup_fontDeclarations,
      ← ScopedVars.ofDeclarations_eq t.nodup_lightDeclarations,
      ← ScopedVars.ofDeclarations_eq t.nodup_darkDeclarations]
    rfl
  -- The sheet is its three blocks, whose lines are the ones spelled out.
  · have hroot : ":root" ++ " \x7b\n" = ":root \x7b\n" := by decide
    have hdark : ".dark" ++ " \x7b\n" = ".dark \x7b\n" := by decide
    have htheme : "@theme inline" ++ " \x7b\n" = "@theme inline \x7b\n" := by decide
    have hlines (entries : List (String × String)) :
        String.join (entries.map StyleBlock.line) = lines entries := rfl
    simp only [Tokens.css, Tokens.styleBlocks, List.map_cons, List.map_nil, StyleBlock.text, hroot,
      hdark, htheme, hlines, String.intercalate_cons_cons, String.intercalate_singleton,
      String.append_assoc]
  · rw [Tokens.lightDeclarations, List.map_cons, hvalues, t.colors.map_snd_declared, List.map_map]
    rfl
  · rw [Tokens.darkDeclarations, hvalues, t.darkColors.map_snd_declared, List.map_map]
    rfl

end Registry

end Restyle
