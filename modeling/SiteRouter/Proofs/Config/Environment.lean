import SiteRouter.Config.Sources
import SiteRouter.Proofs.Config.Fields
import SiteRouter.Proofs.Text.Letter

/-!
# Settings from the environment

Variables are read by the rest of their names in lower case, whatever their letters are
(`prefixedSettings_eq`), but put in the place of other settings only where a variable is set in
capitals (`get?_overrides`). Without a file, the two ways to read the environment therefore agree
exactly on those whose other variables stand for the defaults.
-/

namespace SiteRouter.Config

/-! ## Variables -/

/-- What follows a text is what the other one has behind it. -/
theorem dropPrefix?_eq_some_iff {start cs rest : List Char} :
    dropPrefix? start cs = some rest ↔ cs = start ++ rest := by
  induction start generalizing cs with
  | nil => simp [dropPrefix?, eq_comm]
  | cons c start ih =>
    cases cs with
    | nil => simp [dropPrefix?]
    | cons d cs =>
      rw [dropPrefix?, List.cons_append, List.cons.injEq]
      split
      · next heq => simp [ih, heq]
      · next hne => simp [Ne.symm hne]

namespace Environment

/-- The variables with a prefix, by the rest of their names in lower case, and the values that they
stand for. -/
def prefixed (env : Environment) (start : String) : List (String × Value) :=
  env.filterMap fun (name, text) => (dropPrefix? start.toList name.toList).map fun rest =>
    (Text.lowercase (String.ofList rest), variableValue text)

/-- A variable with the prefix stands for the setting. -/
def StandsFor (env : Environment) (start name : String) : Prop :=
  ∃ rest text, (start ++ rest, text) ∈ env ∧ Text.lowercase rest = name

/-- No two of the variables with the prefix have the same rest of their names in lower case. -/
def Unambiguous (env : Environment) (start : String) : Prop :=
  env.Pairwise fun v w => ∀ rest rest', v.1 = start ++ rest → w.1 = start ++ rest' →
    Text.lowercase rest ≠ Text.lowercase rest'

/-- A variable is one of those with the prefix if its name is the prefix and a rest. -/
theorem mem_prefixed {env : Environment} {start name : String} {v : Value} :
    (name, v) ∈ env.prefixed start ↔
      ∃ rest text, (start ++ rest, text) ∈ env ∧ Text.lowercase rest = name ∧
        variableValue text = v := by
  unfold prefixed
  rw [List.mem_filterMap]
  constructor
  · rintro ⟨⟨n, text⟩, hmem, hvariable⟩
    obtain ⟨rest, hrest, heq⟩ := Option.map_eq_some_iff.1 hvariable
    have hname : n = start ++ String.ofList rest := by
      rw [← String.toList_inj, String.toList_append, String.toList_ofList]
      exact dropPrefix?_eq_some_iff.1 hrest
    subst hname
    cases heq
    exact ⟨_, text, hmem, rfl, rfl⟩
  · rintro ⟨rest, text, hmem, rfl, rfl⟩
    refine ⟨_, hmem, Option.map_eq_some_iff.2 ⟨rest.toList, ?_, ?_⟩⟩
    · exact dropPrefix?_eq_some_iff.2 (String.toList_append ..)
    · rw [String.ofList_toList]

/-- No two rests are the same if the names that they make are different. -/
theorem unambiguous_iff {env : Environment} {start : String} :
    env.Unambiguous start ↔ ((env.prefixed start).map Prod.fst).Nodup := by
  have hsplit : ∀ {name rest : String},
      name = start ++ rest ↔ dropPrefix? start.toList name.toList = some rest.toList := by
    intro name rest
    rw [dropPrefix?_eq_some_iff, ← String.toList_append, String.toList_inj]
  rw [List.Nodup, List.pairwise_map, prefixed, List.pairwise_filterMap, Unambiguous]
  refine ⟨fun h => h.imp ?_, fun h => h.imp ?_⟩
  · intro v w hne p hp q hq
    obtain ⟨rest, hrest, rfl⟩ := Option.map_eq_some_iff.1 hp
    obtain ⟨rest', hrest', rfl⟩ := Option.map_eq_some_iff.1 hq
    refine hne _ _ (hsplit.2 ?_) (hsplit.2 ?_) <;> rw [String.toList_ofList] <;> assumption
  · intro v w hne rest rest' hv hw
    have h := hne _ (Option.map_eq_some_iff.2 ⟨_, hsplit.1 hv, rfl⟩) _
      (Option.map_eq_some_iff.2 ⟨_, hsplit.1 hw, rfl⟩)
    rwa [String.ofList_toList, String.ofList_toList] at h

/-- A variable is set exactly if it has a text. -/
theorem has_eq (env : Environment) (name : String) :
    env.has name = (env.lookup name).isSome := by
  induction env with
  | nil => rfl
  | cons v env ih =>
    rw [has, List.any_cons, ← has, ih, List.lookup_cons, Bool.beq_comm]
    split <;> simp_all

end Environment

/-! ## Settings that variables stand for -/

section

variable (env : Environment) (start : String)

theorem prefixedSettings_eq :
    prefixedSettings env start = Mapping.ofPairs (Mapping.ofStrings (env.prefixed start)) := by
  unfold prefixedSettings Mapping.ofStrings Environment.prefixed
  rw [List.map_filterMap]
  simp only [Option.map_map]
  rfl

theorem hasTextKeys_prefixedSettings : (prefixedSettings env start).HasTextKeys := by
  have hnone : Mapping.HasTextKeys [] := nofun
  rw [prefixedSettings_eq]
  exact hnone.putAll (Mapping.hasTextKeys_ofStrings _)

/-- A setting that no variable stands for has no entry. -/
theorem get?_prefixedSettings_eq_none {name : String} (h : ¬env.StandsFor start name) :
    (prefixedSettings env start).get? (.str name) = none := by
  refine Mapping.get?_of_not_mem_keys fun hkey => h ?_
  rw [prefixedSettings_eq] at hkey
  obtain hnone | hkey := Mapping.mem_keys_of_mem_putAll hkey
  · cases hnone
  rw [Mapping.keys_ofStrings, List.mem_map_of_injective fun _ _ => Value.str.inj] at hkey
  obtain ⟨p, hp, rfl⟩ := List.mem_map.1 hkey
  obtain ⟨rest, text, hmem, hrest, -⟩ := Environment.mem_prefixed.1 hp
  exact ⟨rest, text, hmem, hrest⟩

/-- The settings that variables stand for are read, and the others are the defaults. -/
theorem exists_ofEnvironment : ∃ reports,
    ofEnvironment env start = .ok (read (prefixedSettings env start), reports) :=
  exists_ofMapping (hasTextKeys_prefixedSettings env start)

/-! ## Variables over settings -/

/-- The settings whose variables are set in capitals, by name. -/
theorem overrides_eq (c : Config) : overrides env start c = Mapping.ofStrings
    (c.fields.filter fun p => env.has (start ++ Text.uppercase p.1)) := rfl

theorem overrides_names_nodup (c : Config) :
    ((c.fields.filter fun p => env.has (start ++ Text.uppercase p.1)).map Prod.fst).Nodup :=
  (List.filter_sublist.map Prod.fst).nodup fieldNames_nodup

/-- A setting is put in the place of another one if its variable is set in capitals. -/
theorem get?_overrides (c : Config) {name : String} (h : name ∈ fieldNames) :
    (overrides env start c).get? (.str name) =
      if env.has (start ++ Text.uppercase name) then some (c.setting name) else none := by
  rw [overrides_eq]
  split
  · next hset =>
    exact Mapping.get?_ofStrings_of_mem (overrides_names_nodup env start c)
      (List.mem_filter.2 ⟨c.mem_fields h, hset⟩)
  · next hunset =>
    refine Mapping.get?_ofStrings_of_not_mem fun hmem => hunset ?_
    obtain ⟨p, hp, rfl⟩ := List.mem_map.1 hmem
    exact (List.mem_filter.1 hp).2

/-- Every setting is that of the environment if its variable is set in capitals, and otherwise it
stays. -/
theorem setting_withEnvironment (base : Reported) :
    ∃ c reports, withEnvironment base env start = .ok (c, reports) ∧ ∀ name ∈ fieldNames,
      c.setting name = if env.has (start ++ Text.uppercase name) then
        (read (prefixedSettings env start)).setting name else base.1.setting name := by
  obtain ⟨reports, hread⟩ := exists_ofEnvironment env start
  have hkeys : (overrides env start (read (prefixedSettings env start))).keys.Nodup :=
    Mapping.nodup_keys_ofStrings (overrides_names_nodup env start _)
  have htexts : (overrides env start (read (prefixedSettings env start))).HasTextKeys :=
    Mapping.hasTextKeys_ofStrings _
  obtain ⟨⟨c, more⟩, hmerge⟩ := base.1.exists_merge htexts
  refine ⟨c, base.2 ++ reports ++ more, ?_, fun name hname => ?_⟩
  · rw [withEnvironment, hread]
    show ((base.1.merge _).bind _) = _
    rw [hmerge]
    rfl
  · have hsetting : c.setting name = _ := setting_of_merge hkeys hmerge hname
    rw [hsetting, get?_overrides env start _ hname]
    split <;> rfl

/-! ## Settings from the environment alone -/

/-- Without a file, the settings are those that variables stand for, each if its variable is set in
capitals, and the defaults otherwise. They are all those that variables stand for exactly if the
other variables stand for the defaults, and so where each setting that some variable stands for has
its variable in capitals. -/
theorem ofSources_eq_ofEnvironment_iff (yaml : Document.YamlReader) :
    ∃ c c' reports reports', ofEnvironment env start = .ok (c, reports) ∧
      ofSources yaml none env start = .ok (c', reports') ∧
      (∀ name ∈ fieldNames, c'.setting name =
        if env.has (start ++ Text.uppercase name) then c.setting name
        else ({} : Config).setting name) ∧
      (c' = c ↔ ∀ name ∈ fieldNames, env.has (start ++ Text.uppercase name) = true ∨
        c.setting name = ({} : Config).setting name) ∧
      ((∀ name ∈ fieldNames, env.StandsFor start name →
        env.has (start ++ Text.uppercase name) = true) → c' = c) := by
  obtain ⟨reports, hread⟩ := exists_ofEnvironment env start
  obtain ⟨c', reports', hsources, hsetting⟩ := setting_withEnvironment env start ({}, [])
  have hiff : c' = read (prefixedSettings env start) ↔
      ∀ name ∈ fieldNames, env.has (start ++ Text.uppercase name) = true ∨
        (read (prefixedSettings env start)).setting name = ({} : Config).setting name := by
    constructor
    · -- Without its variable in capitals, a setting from the sources is the default.
      rintro rfl name hname
      have hsame := hsetting name hname
      split at hsame
      · next hset => exact .inl hset
      · exact .inr hsame
    · intro h
      refine eq_of_setting_eq fun name hname => ?_
      rw [hsetting name hname]
      split
      · rfl
      · next hunset => exact ((h name hname).resolve_left hunset).symm
  refine ⟨_, c', reports, reports', hread, hsources, hsetting, hiff, fun hcapitals => ?_⟩
  refine hiff.2 fun name hname => ?_
  by_cases hstands : env.StandsFor start name
  · exact .inl (hcapitals name hname hstands)
  · right
    rw [setting_read _ hname, get?_prefixedSettings_eq_none env start hstands, Option.getD_none]

end

/-- A variable in small letters is read from the environment, but is not put over the defaults. -/
theorem ofSources_small_letters :
    ∃ c c' reports reports',
      ofEnvironment [("ROUTES_app_domain", "low.app")] "ROUTES_" = .ok (c, reports) ∧
      ofSources (fun _ => .error .badYaml) none [("ROUTES_app_domain", "low.app")] "ROUTES_" =
        .ok (c', reports') ∧
      c.appDomain = .str "low.app" ∧ c'.appDomain = .null :=
  ⟨_, _, _, _, rfl, rfl, rfl, rfl⟩

end SiteRouter.Config
