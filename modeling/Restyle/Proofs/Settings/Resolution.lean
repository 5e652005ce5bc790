import Restyle.Proofs.Text.Pieces
import Restyle.Settings.Layers

/-!
How the layers of a configuration resolve, field by field.

* `highest`: the value of the highest layer that gives one; `Says`: a variable says a truth value;
* `Resolves`: what each field of a configuration is, by the project's file, the environment and the
  command line;
* `Resolves.unique`, `exists_resolves_iff`: there is one such configuration, if the variables for
  truth values can be read, and none otherwise;
* `load_content_resolves`: the configuration that is loaded is this one, if it keeps the rules.
-/

namespace Restyle.Settings

open Text (Core Lists)

/-! ### Values of layers -/

/-- The value of the highest layer that gives one; the highest stands first. -/
def highest {α : Type} (layers : List (Option α)) : Option α :=
  layers.findSome? id

section Values

variable {α : Type} {setting value : String} {b : Bool}

lemma layered_layered (cli env file : Option α) :
    layered cli (layered env file) = highest [cli, env, file] := by
  cases cli <;> cases env <;> cases file <;> rfl

lemma getD_getD (cli env : Option α) (file : α) :
    cli.getD (env.getD file) = (highest [cli, env]).getD file := by
  cases cli <;> cases env <;> rfl

/-- A variable says a truth value: it is the word for it, with nothing but blanks around. -/
def Says (value : String) (b : Bool) : Prop :=
  Core value.toList (if b then "true" else "false").toList

lemma says_iff : Says value b ↔ Text.trim value = if b then "true" else "false" :=
  Text.trim_eq_iff.symm

/-- A variable is read as what it says; where it says nothing, reading it fails. -/
lemma readBool_some_eq_ok_iff {r : Option Bool} :
    readBool setting (some value) = .ok r ↔ ∃ b, r = some b ∧ Says value b := by
  simp only [says_iff, Bool.exists_bool, readBool]
  split
  · next htrue => simp [htrue, eq_comm]
  · next htrue =>
    split
    · next hfalse => simp [hfalse, eq_comm]
    · next hfalse => simp [htrue, hfalse]

/-- A truth value is read from an entry just when the entry, if set, says it. -/
lemma readBool_eq_ok_iff {entry : Option String} {r : Option Bool} :
    readBool setting entry = .ok r ↔ Option.Rel Says entry r := by
  cases entry with
  | none =>
    rw [readBool, Except.ok.injEq]
    exact ⟨fun h => h ▸ .none, fun h => by cases h; rfl⟩
  | some value =>
    rw [readBool_some_eq_ok_iff]
    exact ⟨fun ⟨b, hr, h⟩ => hr ▸ .some h, fun h => by cases h with | some h => exact ⟨_, rfl, h⟩⟩

/-- An entry lists words just when they are its parts. -/
lemma relLists_iff {entry : Option String} {words : Option (List String)} :
    Option.Rel Lists entry words ↔ entry.map commaParts = words := by
  cases entry with
  | none => exact ⟨fun h => by cases h; rfl, fun h => h ▸ .none⟩
  | some value =>
    constructor
    · rintro (hwords | _)
      rw [Option.map_some, commaParts, Text.lists_iff.mp hwords]
    · rintro rfl
      exact .some (Text.lists_iff.mpr rfl)

/-- An entry can be read just when it is not set or says some truth value. -/
lemma exists_says_iff {entry : Option String} :
    (∃ b, Option.Rel Says entry b) ↔ ∀ value ∈ entry, ∃ b, Says value b := by
  cases entry with
  | none => exact ⟨fun _ => nofun, fun _ => ⟨none, .none⟩⟩
  | some value =>
    constructor
    · rintro ⟨_, h | _⟩ _ ⟨⟩
      exact ⟨_, h⟩
    · intro h
      obtain ⟨b, hb⟩ := h value rfl
      exact ⟨some b, .some hb⟩

end Values

/-! ### The configuration -/

/-- What the fields of a configuration are, by the project's file, the environment and the command
line. -/
structure Resolves (document : Settings) (env : Environment) (o : Overrides) (c : Settings) :
    Prop where
  classAttributes : ∃ words, Option.Rel Lists (env "FORGE_TRANSFORM_CLASS_ATTRIBUTES") words
    ∧ c.transform.classAttributes
      = (highest [o.classAttributes, words]).getD document.transform.classAttributes
  animationLibrary : c.transform.animationLibrary = highest [o.animationLibrary,
    env "FORGE_TRANSFORM_ANIMATION_LIBRARY", document.transform.animationLibrary]
  motionBinding : c.transform.motionBinding = highest [o.motionBinding,
    env "FORGE_TRANSFORM_MOTION_BINDING", document.transform.motionBinding]
  synthesizeMissingProps :
    ∃ b, Option.Rel Says (env "FORGE_TRANSFORM_SYNTHESIZE_MISSING_PROPS") b
      ∧ c.transform.synthesizeMissingProps = highest [o.synthesizeMissingProps, b,
        document.transform.synthesizeMissingProps]
  respectDirectives : ∃ b, Option.Rel Says (env "FORGE_TRANSFORM_RESPECT_DIRECTIVES") b
    ∧ c.transform.respectDirectives = highest [o.respectDirectives, b,
      document.transform.respectDirectives]
  name : c.registry.name
    = highest [o.registryName, env "FORGE_REGISTRY_NAME", document.registry.name]
  homepage : c.registry.homepage
    = highest [o.registryHomepage, env "FORGE_REGISTRY_HOMEPAGE", document.registry.homepage]
  styleDependencies : c.registry.styleDependencies = document.registry.styleDependencies
  componentPathPrefix : c.registry.componentPathPrefix = document.registry.componentPathPrefix

/-- The variables for truth values, where they are set, say one. -/
structure Readable (env : Environment) : Prop where
  synthesizeMissingProps :
    ∀ value ∈ env "FORGE_TRANSFORM_SYNTHESIZE_MISSING_PROPS", ∃ b, Says value b
  respectDirectives : ∀ value ∈ env "FORGE_TRANSFORM_RESPECT_DIRECTIVES", ∃ b, Says value b

section Configuration

variable {document c c' : Settings} {env : Environment} {o : Overrides}

/-- Over nothing, a document gives the configuration that it is. -/
lemma withDocument_default (document : Settings) :
    ({} : Settings).withDocument document = document := by
  have hvalue : ∀ {α : Type} (value : Option α), layered value none = value := fun value => by
    cases value <;> rfl
  have hlist : ∀ {α : Type} (values : List α), layeredList values [] = values := fun values => by
    cases values <;> rfl
  rw [withDocument]
  simp only [hvalue, hlist]

/-- The layers resolve to what the environment and the command line make of the document. -/
lemma resolves_iff :
    Resolves document env o c
      ↔ ∃ c', document.withEnvironment env = .ok c' ∧ c'.withOverrides o = c := by
  constructor
  · intro h
    obtain ⟨words, hwords, hclasses⟩ := h.classAttributes
    obtain ⟨synthesize, hsynthesize, hs⟩ := h.synthesizeMissingProps
    obtain ⟨respect, hrespect, hr⟩ := h.respectDirectives
    -- Field by field the environment comes over the document and the overrides over both.
    rw [withEnvironment, readBool_eq_ok_iff.mpr hsynthesize, readBool_eq_ok_iff.mpr hrespect,
      relLists_iff.mp hwords]
    refine ⟨_, rfl, ?_⟩
    obtain ⟨⟨_, _, _, _, _⟩, _, _, _, _⟩ := c
    simp only [withOverrides, layered_layered, getD_getD, Settings.mk.injEq,
      TransformSettings.mk.injEq, RegistrySettings.mk.injEq]
    exact ⟨⟨hclasses.symm, h.animationLibrary.symm, h.motionBinding.symm, hs.symm, hr.symm⟩,
      h.name.symm, h.homepage.symm, h.styleDependencies.symm, h.componentPathPrefix.symm⟩
  · rintro ⟨c', hc', rfl⟩
    rw [withEnvironment] at hc'
    split at hc'
    · cases hc'
    · next synthesize hsynthesize =>
      split at hc'
      · cases hc'
      · next respect hrespect =>
        cases hc'
        exact {
          classAttributes := ⟨_, relLists_iff.mpr rfl, getD_getD _ _ _⟩
          animationLibrary := layered_layered _ _ _
          motionBinding := layered_layered _ _ _
          synthesizeMissingProps :=
            ⟨_, readBool_eq_ok_iff.mp hsynthesize, layered_layered _ _ _⟩
          respectDirectives := ⟨_, readBool_eq_ok_iff.mp hrespect, layered_layered _ _ _⟩
          name := layered_layered _ _ _
          homepage := layered_layered _ _ _
          styleDependencies := rfl
          componentPathPrefix := rfl }

lemma Resolves.unique (h : Resolves document env o c) (h' : Resolves document env o c') :
    c = c' := by
  obtain ⟨d, hd, rfl⟩ := resolves_iff.mp h
  obtain ⟨d', hd', rfl⟩ := resolves_iff.mp h'
  rw [Except.ok.inj (hd.symm.trans hd')]

/-- The layers resolve if the variables for truth values can be read. -/
lemma exists_resolves_iff : (∃ c, Resolves document env o c) ↔ Readable env := by
  constructor
  · rintro ⟨c, h⟩
    obtain ⟨_, hsynthesize, -⟩ := h.synthesizeMissingProps
    obtain ⟨_, hrespect, -⟩ := h.respectDirectives
    exact ⟨exists_says_iff.mp ⟨_, hsynthesize⟩, exists_says_iff.mp ⟨_, hrespect⟩⟩
  · intro h
    obtain ⟨synthesize, hsynthesize⟩ := exists_says_iff.mpr h.synthesizeMissingProps
    obtain ⟨respect, hrespect⟩ := exists_says_iff.mpr h.respectDirectives
    have hread : ∃ c', document.withEnvironment env = .ok c' := by
      rw [withEnvironment, readBool_eq_ok_iff.mpr hsynthesize, readBool_eq_ok_iff.mpr hrespect]
      exact ⟨_, rfl⟩
    obtain ⟨c', hc'⟩ := hread
    exact ⟨_, resolves_iff.mpr ⟨c', hc', rfl⟩⟩

lemma checked_eq_ok_iff : c.checked = .ok c' ↔ c = c' ∧ c.check = .ok () := by
  rw [checked]
  split <;> simp_all

/-- A document is loaded just when its layers resolve to a configuration that keeps the rules. -/
lemma load_content_eq_ok_iff {text : String} (htext : ofDocument? text = some document)
    {overrides : Option Overrides} :
    load (.content text) env overrides = .ok c
      ↔ Resolves document env (overrides.getD {}) c ∧ c.check = .ok () := by
  have hfile : ofFile (.content text) = .ok document := by
    rw [ofFile, htext]
    exact congrArg _ (withDocument_default document)
  simp only [load, hfile, resolves_iff]
  cases hc' : document.withEnvironment env with
  | error e => simp
  | ok c' =>
    simp only [checked_eq_ok_iff, Except.ok.injEq, exists_eq_left']
    exact and_congr_right fun heq => heq ▸ Iff.rfl

/-- The configuration of a project with a file resolves field by field. There is one exactly if the
variables for truth values can be read and what the layers resolve to keeps the rules. -/
theorem load_content_resolves {text : String} (htext : ofDocument? text = some document)
    (env : Environment) (overrides : Option Overrides) :
    (∀ c, load (.content text) env overrides = .ok c → Resolves document env (overrides.getD {}) c)
      ∧ ((∃ c, load (.content text) env overrides = .ok c)
        ↔ Readable env ∧ ∀ c, Resolves document env (overrides.getD {}) c → c.check = .ok ()) := by
  refine ⟨fun c h => ((load_content_eq_ok_iff htext).mp h).1, ?_, ?_⟩
  · rintro ⟨c, h⟩
    obtain ⟨hresolves, hcheck⟩ := (load_content_eq_ok_iff htext).mp h
    exact ⟨exists_resolves_iff.mp ⟨c, hresolves⟩, fun c' h' => hresolves.unique h' ▸ hcheck⟩
  · rintro ⟨hreadable, hcheck⟩
    obtain ⟨c, hresolves⟩ := exists_resolves_iff.mpr hreadable
    exact ⟨c, (load_content_eq_ok_iff htext).mpr ⟨hresolves, hcheck c hresolves⟩⟩

/-- A list of the environment goes before one of the file, and a name of the command line before
both. -/
theorem load_three_layers :
    let text := "[transform]\nclass_attributes = [\"tw\"]\nmotion_binding = \"m\"\n"
      ++ "[registry]\nname = \"file\"\n"
    let document : Settings :=
      { transform := { classAttributes := ["tw"], motionBinding := some "m" }
        registry := { name := some "file" } }
    let env : Environment := fun entry =>
      if entry = "FORGE_TRANSFORM_CLASS_ATTRIBUTES" then some " class, , css "
      else if entry = "FORGE_TRANSFORM_RESPECT_DIRECTIVES" then some " false\n"
      else if entry = "FORGE_REGISTRY_NAME" then some "env" else none
    let c : Settings :=
      { transform :=
          { classAttributes := ["class", "css"], motionBinding := some "m",
            respectDirectives := some false }
        registry := { name := some "cli" } }
    ofDocument? text = some document
      ∧ load (.content text) env (some { registryName := some "cli" }) = .ok c
      ∧ Resolves document env { registryName := some "cli" } c := by
  intro text document env c
  have htext : ofDocument? text = some document := by decide +kernel
  have hload : load (.content text) env (some { registryName := some "cli" }) = .ok c := by
    decide +kernel
  exact ⟨htext, hload, (load_content_resolves htext env _).1 c hload⟩

end Configuration

end Restyle.Settings
