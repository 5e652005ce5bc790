import Restyle.Proofs.Json.ReadBack
import Restyle.Registry

/-!
A registry is read again from its document.

* `ItemFile.decode_encode`, `ScopedVars.decode_encode`, `RegistryItem.decode_encode`,
  `Registry.decode_encode`: what is decoded again from its JSON value, if that value is;
* `ScopedVars.worded_ofDeclarations`: variables that are put together from declarations have
  different names;
* `RegistryItem.Assembled`: an item that is made of a theme or a component; no number stands in it
  (`Assembled.worded`), and so none stands in a registry of such items;
* `Registry.decode_toJson`: a registry is decoded from its document, and so is each item.
-/

namespace Restyle

/-! ### Files and variables -/

lemma ItemType.decode_encode (levels : ℕ) (t : ItemType) :
    decode levels (.ofJson t.encode) = .ok t := by
  cases t
  all_goals rfl

/-- A file is decoded from the object it is written as. -/
lemma ItemFile.decode_encode {levels : ℕ} (hlevels : 2 ≤ levels) (f : ItemFile) :
    decode levels (.ofJson f.encode) = .ok f := by
  obtain ⟨levels, rfl⟩ : ∃ k, levels = k + 2 := ⟨levels - 2, by omega⟩
  obtain ⟨path, fileType, content⟩ := f
  cases fileType
  all_goals
    cases content
    all_goals rfl

namespace ScopedVars

variable {levels : ℕ} {v : ScopedVars}

/-- The value of a scope, if the scope holds anything. -/
def scope? (vars : List (String × Json)) : Option Json :=
  if vars.isEmpty then none else some (.object vars)

/-- What a scope is decoded to: nothing if it was left out. -/
def stored (vars : List (String × Json)) : Option (List (String × Json)) :=
  if vars.isEmpty then none else some vars

lemma getD_stored (vars : List (String × Json)) : (stored vars).getD [] = vars := by
  cases vars
  all_goals rfl

/-- Variables are written with the scopes that are not empty. -/
lemma encode_eq (v : ScopedVars) :
    v.encode = .object (Json.member? "theme" (scope? v.theme)
      ++ (Json.member? "light" (scope? v.light) ++ Json.member? "dark" (scope? v.dark))) := by
  obtain ⟨theme, light, dark⟩ := v
  cases theme
  all_goals
    cases light
    all_goals
      cases dark
      all_goals rfl

/-- The fields of variables. -/
def record : Decoder.Record Draft := ⟨"CssVars", [
  .defaulted "theme" [] Draft.theme (fun a s => { s with theme := some a }) Decoder.jsonObject,
  .defaulted "light" [] Draft.light (fun a s => { s with light := some a }) Decoder.jsonObject,
  .defaulted "dark" [] Draft.dark (fun a s => { s with dark := some a }) Decoder.jsonObject]⟩

/-- The members of an object that is decoded again are decoded as they are. -/
lemma jsonObject_ofJson {vars : List (String × Json)} (h : (Json.object vars).Again levels) :
    Decoder.jsonObject levels (.ofJson (.object vars)) = .ok vars := by
  obtain ⟨hlevels, vs, hvs, heq⟩ := Decoder.json_object h
  cases heq
  rw [Reading.ofJson, Decoder.jsonObject, Decoder.enter_eq_ok_iff]
  refine ⟨hlevels, ?_⟩
  simp only [hvs]

/-- A scope sets its field if it holds anything; `put` is the draft with what is set there. -/
lemma members_scope {name : String} {f : Decoder.Field Draft}
    (put : Option (List (String × Json)) → Draft)
    (hfind : record.fields.find? (fun f => f.names.contains name) = some f)
    (hset : f.isSet (put none) = false)
    (hdecode : ∀ {r vars}, Decoder.jsonObject levels r = .ok vars →
      f.decode levels r (put none) = .ok (put (some vars)))
    {vars : List (String × Json)} (h : ∀ w ∈ scope? vars, w.Again levels) :
    record.members levels (Reading.ofMembers (Json.member? name (scope? vars))) (put none)
      = .ok (put (stored vars)) := by
  cases vars with
  | nil => rfl
  | cons m vars =>
    exact Decoder.Record.members_cons hfind hset (hdecode (jsonObject_ofJson (h _ rfl)))

lemma settle_record (theme light dark : Option (List (String × Json))) :
    Decoder.Record.settle record.fields ⟨theme, light, dark⟩
      = .ok ⟨some (theme.getD []), some (light.getD []), some (dark.getD [])⟩ := by
  cases theme
  all_goals
    cases light
    all_goals
      cases dark
      all_goals rfl

/-- Variables are decoded again from their JSON value if it is. -/
lemma decode_encode (h : v.encode.Again levels) : decode levels (.ofJson v.encode) = .ok v := by
  rw [encode_eq] at h ⊢
  obtain ⟨hlevels, -, hvalues⟩ := h.of_object
  simp only [List.forall_mem_append, Json.forall_mem_member?] at hvalues
  obtain ⟨htheme, hlight, hdark⟩ := hvalues
  -- The scopes are read one after the other; each stores its variables in the draft of the ones
  -- before.
  have htheme : record.members (levels - 1)
        (Reading.ofMembers (Json.member? "theme" (scope? v.theme))) {}
      = .ok ⟨stored v.theme, none, none⟩ :=
    members_scope (fun vars => ⟨vars, none, none⟩) rfl rfl
      (fun h => Decoder.Field.decode_defaulted h _) htheme
  have hlight : record.members (levels - 1)
        (Reading.ofMembers (Json.member? "light" (scope? v.light))) ⟨stored v.theme, none, none⟩
      = .ok ⟨stored v.theme, stored v.light, none⟩ :=
    members_scope (fun vars => ⟨stored v.theme, vars, none⟩) rfl rfl
      (fun h => Decoder.Field.decode_defaulted h _) hlight
  have hdark : record.members (levels - 1)
        (Reading.ofMembers (Json.member? "dark" (scope? v.dark)))
        ⟨stored v.theme, stored v.light, none⟩
      = .ok ⟨stored v.theme, stored v.light, stored v.dark⟩ :=
    members_scope (fun vars => ⟨stored v.theme, stored v.light, vars⟩) rfl rfl
      (fun h => Decoder.Field.decode_defaulted h _) hdark
  have hmembers : record.members (levels - 1) (Reading.ofMembers
        (Json.member? "theme" (scope? v.theme) ++ (Json.member? "light" (scope? v.light)
          ++ Json.member? "dark" (scope? v.dark)))) {}
      = .ok ⟨stored v.theme, stored v.light, stored v.dark⟩ := by
    rw [Reading.ofMembers_append, Decoder.Record.members_append htheme,
      Reading.ofMembers_append, Decoder.Record.members_append hlight, hdark]
  have hrecord := Decoder.Record.decode_object hlevels hmembers (settle_record ..)
  have hdecode : decode levels = fun r => (record.decode {} levels r).map fun s =>
      ⟨s.theme.getD [], s.light.getD [], s.dark.getD []⟩ := rfl
  rw [hdecode, Reading.ofJson]
  dsimp only
  rw [hrecord]
  simp only [getD_stored, Except.map, Option.getD_some]

end ScopedVars

/-! ### Items and registries -/

namespace RegistryItem

variable {levels : ℕ} {i : RegistryItem}

/-- The value of a list, if the list holds anything. -/
def listed? (ss : List String) : Option Json :=
  if ss.isEmpty then none else some (.strings ss)

/-- What a list is decoded to: nothing if it was left out. -/
def stored (ss : List String) : Option (List String) :=
  if ss.isEmpty then none else some ss

lemma getD_stored (ss : List String) : (stored ss).getD [] = ss := by
  cases ss
  all_goals rfl

/-- The members of an item. -/
def members (i : RegistryItem) : List (String × Json) :=
  Json.member? "$schema" (i.schema.map .string) ++ ([("name", .string i.name)]
    ++ ([("type", i.itemType.encode)] ++ (Json.member? "dependencies" (listed? i.dependencies)
      ++ (Json.member? "registryDependencies" (listed? i.registryDependencies)
        ++ ([("files", .array (i.files.map ItemFile.encode))]
          ++ Json.member? "cssVars" (i.cssVars.map ScopedVars.encode))))))

lemma encode_eq (i : RegistryItem) : i.encode = .object i.members := by
  obtain ⟨schema, name, itemType, dependencies, registryDependencies, files, cssVars⟩ := i
  cases schema
  all_goals
    cases dependencies
    all_goals
      cases registryDependencies
      all_goals rfl

/-- The fields of an item. -/
def record : Decoder.Record Draft := ⟨"RegistryItem", [
  .defaulted "$schema" none Draft.schema (fun a s => { s with schema := some a })
    (Decoder.nullable Decoder.string),
  .required "name" Draft.name (fun a s => { s with name := some a }) Decoder.string,
  .required "type" Draft.itemType (fun a s => { s with itemType := some a }) ItemType.decode,
  .defaulted "dependencies" [] Draft.dependencies (fun a s => { s with dependencies := some a })
    (Decoder.list Decoder.string),
  .defaulted "registryDependencies" [] Draft.registryDependencies
    (fun a s => { s with registryDependencies := some a }) (Decoder.list Decoder.string),
  .required "files" Draft.files (fun a s => { s with files := some a })
    (Decoder.list ItemFile.decode),
  .defaulted "cssVars" none Draft.cssVars (fun a s => { s with cssVars := some a })
    (Decoder.nullable ScopedVars.decode)]⟩

/-- A list sets its field if it holds anything; `put` is the draft with what is set there. -/
lemma members_listed {name : String} {f : Decoder.Field Draft} (put : Option (List String) → Draft)
    (hlevels : 2 ≤ levels)
    (hfind : record.fields.find? (fun f => f.names.contains name) = some f)
    (hset : f.isSet (put none) = false)
    (hdecode : ∀ {r ss}, Decoder.list Decoder.string levels r = .ok ss →
      f.decode levels r (put none) = .ok (put (some ss))) (ss : List String) :
    record.members levels (Reading.ofMembers (Json.member? name (listed? ss))) (put none)
      = .ok (put (stored ss)) := by
  cases ss with
  | nil => rfl
  | cons s ss =>
    have hlist :
        Decoder.list Decoder.string levels (.ofJson (.strings (s :: ss))) = .ok (s :: ss) :=
      Decoder.list_ofJson_self hlevels fun _ _ => rfl
    exact Decoder.Record.members_cons hfind hset (hdecode hlist)

lemma members_schema (schema : Option String) :
    record.members levels (Reading.ofMembers (Json.member? "$schema" (schema.map .string))) {}
      = .ok ⟨schema.map some, none, none, none, none, none, none⟩ := by
  cases schema
  all_goals rfl

/-- The variables, which may be left out, are put in the draft. -/
lemma members_vars {vars : Option ScopedVars} (h : ∀ v ∈ vars.map ScopedVars.encode, v.Again levels)
    (schema : Option (Option String)) (name : Option String) (itemType : Option ItemType)
    (dependencies registryDependencies : Option (List String)) (files : Option (List ItemFile)) :
    record.members levels (Reading.ofMembers (Json.member? "cssVars" (vars.map ScopedVars.encode)))
        ⟨schema, name, itemType, dependencies, registryDependencies, files, none⟩
      = .ok ⟨schema, name, itemType, dependencies, registryDependencies, files, vars.map some⟩ := by
  cases vars with
  | none => rfl
  | some v =>
    have hvars := ScopedVars.decode_encode (h _ rfl)
    exact Decoder.Record.members_cons rfl rfl
      (Decoder.Field.decode_defaulted (Decoder.nullable_of_ok hvars nofun) _)

lemma settle_record (schema : Option (Option String)) (name : String) (itemType : ItemType)
    (dependencies registryDependencies : Option (List String)) (files : List ItemFile)
    (cssVars : Option (Option ScopedVars)) :
    Decoder.Record.settle record.fields ⟨schema, some name, some itemType, dependencies,
        registryDependencies, some files, cssVars⟩
      = .ok ⟨some schema.join, some name, some itemType, some (dependencies.getD []),
          some (registryDependencies.getD []), some files, some cssVars.join⟩ := by
  cases schema
  all_goals
    cases dependencies
    all_goals
      cases registryDependencies
      all_goals
        cases cssVars
        all_goals rfl

lemma decode_of_record {r : Reading} {schema : Option (Option String)} {name : String}
    {itemType : ItemType} {dependencies registryDependencies : Option (List String)}
    {files : List ItemFile} {cssVars : Option (Option ScopedVars)}
    (h : record.decode {} levels r = .ok ⟨schema, some name, some itemType, dependencies,
      registryDependencies, some files, cssVars⟩) :
    decode levels r = .ok ⟨schema.join, name, itemType, dependencies.getD [],
      registryDependencies.getD [], files, cssVars.join⟩ := by
  unfold record at h
  unfold decode
  dsimp only
  rw [h]

/-- An item is decoded again from its JSON value if that value is. -/
lemma decode_encode (h : i.encode.Again levels) : decode levels (.ofJson i.encode) = .ok i := by
  rw [encode_eq] at h ⊢
  obtain ⟨hlevels, -, hvalues⟩ := h.of_object
  simp only [members, List.forall_mem_append, List.forall_mem_singleton,
    Json.forall_mem_member?] at hvalues
  obtain ⟨-, -, -, -, -, hfiles, hvars⟩ := hvalues
  obtain ⟨hbelow, hfiles⟩ := hfiles.of_array
  obtain ⟨schema, name, itemType, dependencies, registryDependencies, files, cssVars⟩ := i
  have hdependencies : record.members (levels - 1)
        (Reading.ofMembers (Json.member? "dependencies" (listed? dependencies)))
        ⟨schema.map some, some name, some itemType, none, none, none, none⟩
      = .ok ⟨schema.map some, some name, some itemType, stored dependencies, none, none, none⟩ :=
    members_listed (fun ss => ⟨schema.map some, some name, some itemType, ss, none, none, none⟩)
      hbelow rfl rfl (fun h => Decoder.Field.decode_defaulted h _) dependencies
  have hregistry : record.members (levels - 1)
        (Reading.ofMembers (Json.member? "registryDependencies" (listed? registryDependencies)))
        ⟨schema.map some, some name, some itemType, stored dependencies, none, none, none⟩
      = .ok ⟨schema.map some, some name, some itemType, stored dependencies,
          stored registryDependencies, none, none⟩ :=
    members_listed (fun ss => ⟨schema.map some, some name, some itemType, stored dependencies, ss,
        none, none⟩)
      hbelow rfl rfl (fun h => Decoder.Field.decode_defaulted h _) registryDependencies
  have hlist : Decoder.list ItemFile.decode (levels - 1)
        (.ofJson (.array (files.map ItemFile.encode))) = .ok files :=
    Decoder.list_ofJson_self hbelow fun f hf =>
      ItemFile.decode_encode (hfiles _ (List.mem_map_of_mem hf)).of_object.1 f
  have hmembers : record.members (levels - 1) (Reading.ofMembers (members
        ⟨schema, name, itemType, dependencies, registryDependencies, files, cssVars⟩)) {}
      = .ok ⟨schema.map some, some name, some itemType, stored dependencies,
          stored registryDependencies, some files, cssVars.map some⟩ := by
    -- one field after the other, in the order in which they are written
    rw [members, Reading.ofMembers_append, Decoder.Record.members_append (members_schema schema),
      Reading.ofMembers_append, Decoder.Record.members_append
        (Decoder.Record.members_cons rfl rfl (Decoder.Field.decode_required rfl _)),
      Reading.ofMembers_append, Decoder.Record.members_append
        (Decoder.Record.members_cons rfl rfl
          (Decoder.Field.decode_required (ItemType.decode_encode _ itemType) _)),
      Reading.ofMembers_append, Decoder.Record.members_append hdependencies,
      Reading.ofMembers_append, Decoder.Record.members_append hregistry,
      Reading.ofMembers_append, Decoder.Record.members_append
        (Decoder.Record.members_cons rfl rfl (Decoder.Field.decode_required hlist _))]
    exact members_vars hvars ..
  have hrecord := Decoder.Record.decode_object hlevels hmembers (settle_record ..)
  have hjoin {α : Type} (o : Option α) : (o.map some).join = o := by
    cases o
    all_goals rfl
  rw [Reading.ofJson, decode_of_record hrecord]
  simp only [hjoin, getD_stored, Option.getD_some, Option.join_some]

end RegistryItem

namespace Registry

variable {levels : ℕ} {r : Registry}

/-- The members of a registry. -/
def members (r : Registry) : List (String × Json) :=
  [("$schema", .string r.schema)] ++ ([("name", .string r.name)]
    ++ (Json.member? "homepage" (r.homepage.map .string)
      ++ [("items", .array (r.items.map RegistryItem.encode))]))

lemma encode_eq (r : Registry) : r.encode = .object r.members := by
  rw [encode, List.append_assoc]
  rfl

/-- The fields of a registry. -/
def record : Decoder.Record Draft := ⟨"Registry", [
  .required "$schema" Draft.schema (fun a s => { s with schema := some a }) Decoder.string,
  .required "name" Draft.name (fun a s => { s with name := some a }) Decoder.string,
  .defaulted "homepage" none Draft.homepage (fun a s => { s with homepage := some a })
    (Decoder.nullable Decoder.string),
  .required "items" Draft.items (fun a s => { s with items := some a })
    (Decoder.list RegistryItem.decode)]⟩

lemma decode_of_record {v : Reading} {schema name : String} {homepage : Option (Option String)}
    {items : List RegistryItem}
    (h : record.decode {} levels v = .ok ⟨some schema, some name, homepage, some items⟩) :
    decode levels v = .ok ⟨schema, name, homepage.join, items⟩ := by
  unfold record at h
  unfold decode
  dsimp only
  rw [h]

/-- A registry is decoded again from its JSON value if that value is. -/
lemma decode_encode (h : r.encode.Again levels) : decode levels (.ofJson r.encode) = .ok r := by
  rw [encode_eq] at h ⊢
  obtain ⟨hlevels, -, hvalues⟩ := h.of_object
  simp only [members, List.forall_mem_append, List.forall_mem_singleton,
    Json.forall_mem_member?] at hvalues
  obtain ⟨hbelow, hitems⟩ := hvalues.2.2.2.of_array
  obtain ⟨schema, name, homepage, items⟩ := r
  have hlist : Decoder.list RegistryItem.decode (levels - 1)
        (.ofJson (.array (items.map RegistryItem.encode))) = .ok items :=
    Decoder.list_ofJson_self hbelow fun i hi =>
      RegistryItem.decode_encode (hitems _ (List.mem_map_of_mem hi))
  have hhomepage : record.members (levels - 1)
        (Reading.ofMembers (Json.member? "homepage" (homepage.map .string)))
        ⟨some schema, some name, none, none⟩
      = .ok ⟨some schema, some name, homepage.map some, none⟩ := by
    cases homepage
    all_goals rfl
  -- The schema and the name, then the homepage if there is one, then the items.
  have hmembers : record.members (levels - 1)
        (Reading.ofMembers (members ⟨schema, name, homepage, items⟩)) {}
      = .ok ⟨some schema, some name, homepage.map some, some items⟩ := by
    rw [members, Reading.ofMembers_append, Decoder.Record.members_append
        (Decoder.Record.members_cons rfl rfl (Decoder.Field.decode_required rfl _)),
      Reading.ofMembers_append, Decoder.Record.members_append
        (Decoder.Record.members_cons rfl rfl (Decoder.Field.decode_required rfl _)),
      Reading.ofMembers_append, Decoder.Record.members_append hhomepage]
    exact Decoder.Record.members_cons rfl rfl (Decoder.Field.decode_required hlist _)
  have hsettle : Decoder.Record.settle record.fields
        ⟨some schema, some name, homepage.map some, some items⟩
      = .ok ⟨some schema, some name, some homepage, some items⟩ := by
    cases homepage
    all_goals rfl
  rw [Reading.ofJson, decode_of_record (Decoder.Record.decode_object hlevels hmembers hsettle)]
  rfl

end Registry

/-! ### Assembled registries -/

section Assembled

variable {levels : ℕ}

/-- A file is written without numbers. -/
lemma ItemFile.worded_encode (hlevels : 2 ≤ levels) (f : ItemFile) : f.encode.Worded levels := by
  refine Json.worded_object hlevels ?_ ?_
  · simp only [List.forall_mem_append, Json.forall_mem_member?, List.forall_mem_cons,
      Option.mem_map]
    refine ⟨⟨Json.worded_string _ _, Json.worded_string _ _,
      List.forall_mem_nil _⟩, ?_⟩
    rintro _ ⟨content, -, rfl⟩
    exact Json.worded_string _ _
  · rw [List.map_append]
    have hsublist := (List.Sublist.refl ["path", "type"]).append
      (Json.map_fst_member?_sublist "content" (f.content.map .string))
    exact List.Nodup.sublist hsublist (by decide)

namespace ScopedVars

/-- Variables with different names whose values are strings. -/
def Worded (vars : List (String × Json)) : Prop :=
  (vars.map Prod.fst).Nodup ∧ ∀ m ∈ vars, ∃ s, m.2 = .string s

/-- Variables that are put together from declarations have different names. -/
lemma worded_ofDeclarations (declarations : List (String × String)) :
    Worded (ofDeclarations declarations) := by
  have hfold : ∀ vars, Worded vars → Worded (declarations.foldl
      (fun vars d => Json.insert d.1 (.string d.2) vars) vars) := by
    induction declarations with
    | nil => exact fun vars hvars => hvars
    | cons d declarations ih =>
      intro vars hvars
      refine ih _ ⟨Json.nodup_insert _ _ hvars.1, fun m hm => ?_⟩
      obtain rfl | hm := Json.mem_insert hm
      · exact ⟨d.2, rfl⟩
      · exact hvars.2 m hm
  exact hfold [] ⟨List.nodup_nil, List.forall_mem_nil _⟩

lemma worded_encode (hlevels : 3 ≤ levels) {v : ScopedVars} (htheme : Worded v.theme)
    (hlight : Worded v.light) (hdark : Worded v.dark) : v.encode.Worded levels := by
  have hscope : ∀ vars, Worded vars → ∀ w ∈ scope? vars, Json.Worded (levels - 1) w := by
    intro vars hvars w hw
    unfold scope? at hw
    split at hw
    · cases hw
    · cases hw
      refine Json.worded_object (by omega) (fun m hm => ?_) hvars.1
      obtain ⟨s, hs⟩ := hvars.2 m hm
      rw [hs]
      exact Json.worded_string _ s
  rw [encode_eq]
  refine Json.worded_object (by omega) ?_ ?_
  · simp only [List.forall_mem_append, Json.forall_mem_member?]
    exact ⟨hscope _ htheme, hscope _ hlight, hscope _ hdark⟩
  · rw [List.map_append, List.map_append]
    have hsublist := (Json.map_fst_member?_sublist "theme" (scope? v.theme)).append
      ((Json.map_fst_member?_sublist "light" (scope? v.light)).append
        (Json.map_fst_member?_sublist "dark" (scope? v.dark)))
    exact List.Nodup.sublist hsublist (by decide)

end ScopedVars

namespace RegistryItem

/-- No member of an item is written twice. -/
lemma nodup_members (i : RegistryItem) : (i.members.map Prod.fst).Nodup := by
  simp only [members, List.map_append]
  have hsublist := (Json.map_fst_member?_sublist "$schema" (i.schema.map .string)).append
    ((List.Sublist.refl ["name"]).append ((List.Sublist.refl ["type"]).append
      ((Json.map_fst_member?_sublist "dependencies" (listed? i.dependencies)).append
        ((Json.map_fst_member?_sublist "registryDependencies"
          (listed? i.registryDependencies)).append ((List.Sublist.refl ["files"]).append
            (Json.map_fst_member?_sublist "cssVars" (i.cssVars.map ScopedVars.encode)))))))
  exact List.Nodup.sublist hsublist (by decide)

lemma worded_encode (hlevels : 4 ≤ levels) {i : RegistryItem}
    (hvars : ∀ v ∈ i.cssVars, v.encode.Worded (levels - 1)) : i.encode.Worded levels := by
  have hlisted : ∀ ss, ∀ w ∈ listed? ss, Json.Worded (levels - 1) w := by
    intro ss w hw
    unfold listed? at hw
    split at hw
    · cases hw
    · cases hw
      exact Json.worded_strings (by omega) ss
  rw [encode_eq]
  refine Json.worded_object (by omega) ?_ i.nodup_members
  simp only [members, List.forall_mem_append, List.forall_mem_singleton,
    Json.forall_mem_member?, Option.mem_map]
  refine ⟨?_, Json.worded_string _ _, Json.worded_string _ _, hlisted _, hlisted _, ?_, ?_⟩
  · rintro _ ⟨s, -, rfl⟩
    exact Json.worded_string _ s
  · exact Json.worded_array (by omega)
      (List.forall_mem_map.mpr fun f _ => f.worded_encode (by omega))
  · rintro _ ⟨v, hv, rfl⟩
    exact hvars v hv

/-- An item that is made of a theme or a component. -/
def Assembled (i : RegistryItem) : Prop :=
  (∃ t settings, i = Registry.themeItem t settings)
    ∨ ∃ name code dependencies registryDependencies settings,
      Registry.componentItem name code dependencies registryDependencies settings = .ok i

/-- The variables of a theme are put together from declarations. -/
lemma exists_themeItem (t : Tokens) (settings : RegistrySettings) :
    ∃ theme light dark, (Registry.themeItem t settings).cssVars
      = some ⟨ScopedVars.ofDeclarations theme, ScopedVars.ofDeclarations light,
          ScopedVars.ofDeclarations dark⟩ :=
  ⟨_, _, _, rfl⟩

/-- An item that a builder assembled is written without numbers. -/
lemma Assembled.worded {i : RegistryItem} (h : i.Assembled) (hlevels : 4 ≤ levels) :
    i.encode.Worded levels := by
  obtain ⟨t, settings, rfl⟩ | ⟨name, code, dependencies, registryDependencies, settings, hi⟩ := h
  · refine worded_encode hlevels fun v hv => ?_
    obtain ⟨theme, light, dark, hvars⟩ := exists_themeItem t settings
    cases hvars.symm.trans hv
    exact ScopedVars.worded_encode (by omega) (ScopedVars.worded_ofDeclarations theme)
      (ScopedVars.worded_ofDeclarations light) (ScopedVars.worded_ofDeclarations dark)
  · unfold Registry.componentItem at hi
    split at hi
    · cases hi
    · cases hi
      exact worded_encode hlevels nofun

end RegistryItem

namespace Registry

lemma worded_encode (hlevels : 6 ≤ levels) {r : Registry}
    (hitems : ∀ i ∈ r.items, i.encode.Worded (levels - 2)) : r.encode.Worded levels := by
  rw [encode_eq]
  refine Json.worded_object (by omega) ?_ ?_
  · simp only [members, List.forall_mem_append, List.forall_mem_singleton,
      Json.forall_mem_member?, Option.mem_map]
    refine ⟨Json.worded_string _ _, Json.worded_string _ _, ?_,
      Json.worded_array (by omega) (List.forall_mem_map.mpr hitems)⟩
    rintro _ ⟨s, -, rfl⟩
    exact Json.worded_string _ s
  · simp only [members, List.map_append]
    have hsublist := (List.Sublist.refl ["$schema"]).append ((List.Sublist.refl ["name"]).append
      ((Json.map_fst_member?_sublist "homepage" (r.homepage.map .string)).append
        (List.Sublist.refl ["items"])))
    exact List.Nodup.sublist hsublist (by decide)

end Registry

end Assembled

/-! ### Documents -/

namespace Registry

lemma text_toJson {r : Registry} (h : r.encode.ReadBack) : Decoder.text decode r.toJson = .ok r :=
  Json.text_pretty h.kept (decode_encode h.again)

lemma text_itemToJson {i : RegistryItem} (h : i.encode.ReadBack) :
    Decoder.text RegistryItem.decode i.toJson = .ok i :=
  Json.text_pretty h.kept (RegistryItem.decode_encode h.again)

/-- A registry is decoded from its document, and so is each item, if the values in it are read back
as they are printed. Those of a registry that is made of themes and components always are. -/
theorem decode_toJson :
    (∀ r : Registry, r.encode.ReadBack → Decoder.text decode r.toJson = .ok r)
      ∧ (∀ i : RegistryItem, i.encode.ReadBack →
        Decoder.text RegistryItem.decode i.toJson = .ok i)
      ∧ ∀ name homepage items, (∀ i ∈ items, RegistryItem.Assembled i) →
        Decoder.text decode (build name homepage items).toJson = .ok (build name homepage items)
          ∧ ∀ i ∈ items, Decoder.text RegistryItem.decode i.toJson = .ok i := by
  refine ⟨fun r => text_toJson, fun i => text_itemToJson, fun name homepage items hitems => ?_⟩
  constructor
  · exact text_toJson
      (worded_encode (by decide) fun i hi => (hitems i hi).worded (by decide)).readBack
  · exact fun i hi => text_itemToJson ((hitems i hi).worded (by decide)).readBack

/-- An item with values of all kinds among its variables, and a file without content. -/
def valuedItem : RegistryItem where
  schema := none
  name := "style"
  itemType := .style
  dependencies := ["motion"]
  registryDependencies := []
  files := [⟨"ui/button/button.tsx", .ui, none⟩, ⟨"ui/card/card.tsx", .ui, some "a\n\"b\"\n"⟩]
  cssVars := some {
    theme := [("font-body", .string "Inter"), ("steps", .array [.number (.whole (-3)), .null,
      .object [("shown", .bool true), ("none", .object [])]])]
    light := []
    dark := [("shadow", .array [])] }

/-- A registry of that item and of one whose variables are there, but empty. -/
def valued : Registry :=
  build "kit" none [valuedItem,
    { valuedItem with name := "plain", files := [], cssVars := some {} }]

theorem decode_toJson_valued :
    valued.encode.ReadBack ∧ valuedItem.encode.ReadBack
      ∧ Decoder.text decode valued.toJson = .ok valued
      ∧ Decoder.text RegistryItem.decode valuedItem.toJson = .ok valuedItem
      ∧ ∃ i, componentItem "button" "export \x7b\x7d;\n" ["motion"] [] {} = .ok i
        ∧ Decoder.text decode (build "kit" none [i]).toJson = .ok (build "kit" none [i])
        ∧ Decoder.text RegistryItem.decode i.toJson = .ok i := by
  have hthree : (Json.number (.whole (-3))).Kept := Json.kept_whole ⟨by decide, by decide⟩
  have hvalued : valued.encode.ReadBack := Json.readBack_of_again rfl fun n hn => by
    obtain rfl := List.mem_singleton.mp hn
    exact hthree
  have hitem : valuedItem.encode.ReadBack := Json.readBack_of_again rfl fun n hn => by
    obtain rfl := List.mem_singleton.mp hn
    exact hthree
  obtain ⟨i, hi⟩ : ∃ i, componentItem "button" "export \x7b\x7d;\n" ["motion"] [] {} = .ok i :=
    ⟨_, rfl⟩
  have hassembled : ∀ i' ∈ [i], RegistryItem.Assembled i' := fun i' hi' => by
    rw [List.mem_singleton.mp hi']
    exact .inr ⟨_, _, _, _, _, hi⟩
  obtain ⟨hkit, hitems⟩ := decode_toJson.2.2 "kit" none [i] hassembled
  exact ⟨hvalued, hitem, decode_toJson.1 _ hvalued, decode_toJson.2.1 _ hitem, i, hi, hkit,
    hitems i List.mem_cons_self⟩

end Registry

end Restyle
