import SiteRouter.Proofs.Config.Environment

/-!
# Settings from a file and the environment

Every setting is that of its variable in capitals, else that of the file, else the default. Settings
are compared name by name (`Config.setting`): the file alone decides each setting of the base
(`Gives.baseOf`), the environment those whose variables are set (`setting_withEnvironment`), and a
variable in capitals is the only one whose name folds to that of its setting as long as no two do.
What has no part in the formula for a setting, such as a table of routes or a variable for another
program, can then be changed without changing the settings. All of this holds for every reader of
YAML.
-/

namespace SiteRouter.Config

open Document (File YamlReader)

/-! ## Words for truth values -/

/-- The value of a text: `true` and `false`, in letters of either case, are truth values, and any
other text is itself. -/
def textValue (text : String) : Value :=
  if text.toList.map Char.toLower = "true".toList then .bool true
  else if text.toList.map Char.toLower = "false".toList then .bool false
  else .str text

/-- A variable stands for the value of its text. -/
theorem variableValue_eq (text : String) : variableValue text = textValue text := by
  have htrue : ∀ d ∈ "true".toList, Text.IsPlainLetter d :=
    List.forall_iff_forall_mem.1 (by decide +kernel)
  have hfalse : ∀ d ∈ "false".toList, Text.IsPlainLetter d :=
    List.forall_iff_forall_mem.1 (by decide +kernel)
  unfold variableValue textValue
  simp only [Text.lowercase_eq_iff htrue, Text.lowercase_eq_iff hfalse]

/-! ## Settings in a file -/

/-- What a file gives for settings: nothing if none is named or nothing stands at its path, and
otherwise the mapping that it holds, whose keys are texts. -/
inductive Gives (yaml : YamlReader) : Option File → Mapping → Prop
  /-- No file is named. -/
  | unnamed : Gives yaml none []
  /-- An empty path names no file. -/
  | empty {f : File} : f.path = "" → Gives yaml (some f) []
  /-- Nothing stands at the path. -/
  | missing {f : File} : f.stands = false → Gives yaml (some f) []
  /-- The file holds a mapping. -/
  | mapping {f : File} {data : Mapping} : f.readOrEmpty yaml = .ok (.map data) →
    data.HasTextKeys → Gives yaml (some f) data

variable {yaml : YamlReader}

/-- The settings before the environment is looked at. -/
def baseOf (yaml : YamlReader) : Option File → Except Fault Reported
  | none => .ok ({}, [])
  | some f => if f.path = "" then .ok ({}, []) else ofRouteFile yaml f

theorem ofSources_eq (yaml : YamlReader) (f : Option File) (env : Environment) (start : String) :
    ofSources yaml f env start = (baseOf yaml f).bind (withEnvironment · env start) := by
  cases f with
  | none => rfl
  | some f =>
    unfold ofSources baseOf
    dsimp only
    split <;> rfl

/-- A file without content for a document has no mapping. -/
theorem stands_of_readOrEmpty {f : File} {v : Value} (h : f.readOrEmpty yaml = .ok v) :
    f.stands = true ∧ f.path ≠ "" := by
  obtain ⟨read, hread, -⟩ := map_eq_ok.1 h
  unfold File.read at hread
  unfold File.stands
  split at hread
  · cases hread
  · cases hread
  · next hcontent =>
    rw [hcontent]
    refine ⟨rfl, fun hpath => ?_⟩
    rw [hpath] at hread
    cases hread

theorem HasTextKeys.withoutRoutes {data : Mapping} (h : data.HasTextKeys) :
    (withoutRoutes data).HasTextKeys := by
  intro key hkey
  exact h key ((List.filter_sublist.map Prod.fst).subset hkey)

/-- Before the environment, each setting is that of the file, or else the default. -/
theorem Gives.baseOf {f : Option File} {data : Mapping} (h : Gives yaml f data) :
    ∃ base reports, baseOf yaml f = .ok (base, reports) ∧ ∀ name ∈ fieldNames,
      base.setting name = (data.get? (.str name)).getD (({} : Config).setting name) := by
  cases h with
  | unnamed => exact ⟨_, _, rfl, fun _ _ => rfl⟩
  | empty hpath => exact ⟨_, _, if_pos hpath, fun _ _ => rfl⟩
  | @missing f hmissing =>
    have hroute : ofRouteFile yaml f =
        .ok ({}, [⟨.warning, .config, "Config file not found: " ++ f.path⟩]) := by
      rw [ofRouteFile, hmissing, if_neg Bool.false_ne_true]
    unfold Config.baseOf
    dsimp only
    rw [hroute]
    split <;> exact ⟨_, _, rfl, fun _ _ => rfl⟩
  | @mapping f data hdata htexts =>
    obtain ⟨hstands, hpath⟩ := stands_of_readOrEmpty hdata
    obtain ⟨reports, hread⟩ := exists_ofMapping (HasTextKeys.withoutRoutes htexts)
    refine ⟨read (withoutRoutes data), reports, ?_, fun name hname => ?_⟩
    · unfold Config.baseOf
      dsimp only
      rw [if_neg hpath, ofRouteFile, if_pos hstands, hdata]
      exact hread
    · -- The table of routes is taken out before the settings are read, but none has its name.
      have hroutes : Value.str name ≠ .str "routes" := by
        rintro ⟨⟩
        exact absurd hname (by decide)
      have hget : (withoutRoutes data).get? (.str name) = data.get? (.str name) :=
        Mapping.get?_erase_of_ne hroutes
      rw [setting_read _ hname, hget]

/-! ## Settings from all sources -/

/-- The names of the settings in capitals are these names in small letters. -/
theorem lowercase_uppercase : ∀ name ∈ fieldNames, Text.lowercase (Text.uppercase name) = name := by
  decide +kernel

/-- The value of a setting from the environment, or else from a mapping, or else the default. -/
def sourced (env : Environment) (start : String) (data : Mapping) (name : String) : Value :=
  match env.lookup (start ++ Text.uppercase name) with
  | some text => textValue text
  | none => (data.get? (.str name)).getD (({} : Config).setting name)

/-- Where no two variables have the same rest of their names in lower case, a variable in capitals
decides its setting. -/
theorem setting_read_prefixedSettings {env : Environment} {start : String}
    (henv : env.Unambiguous start) {name text : String} (hname : name ∈ fieldNames)
    (h : env.lookup (start ++ Text.uppercase name) = some text) :
    (read (prefixedSettings env start)).setting name = textValue text := by
  have hmem : (name, textValue text) ∈ env.prefixed start :=
    Environment.mem_prefixed.2 ⟨_, text, mem_of_lookup h,
      lowercase_uppercase name hname, variableValue_eq text⟩
  -- No variable is entered over another one, so each is found.
  have hnodup := Environment.unambiguous_iff.1 henv
  have hentries : prefixedSettings env start = Mapping.ofStrings (env.prefixed start) := by
    rw [prefixedSettings_eq]
    have hnone : (([] ++ env.prefixed start).map Prod.fst).Nodup := hnodup
    exact Mapping.putAll_ofStrings hnone
  rw [setting_read _ hname, hentries, Mapping.get?_ofStrings_of_mem hnodup hmem,
    Option.getD_some]

/-- Two environments and two mappings agree on the settings: on the variables in capitals and on the
entries of their names. -/
def AgreeOnSettings (start : String) (env env' : Environment) (data data' : Mapping) : Prop :=
  ∀ name ∈ fieldNames,
    env'.lookup (start ++ Text.uppercase name) = env.lookup (start ++ Text.uppercase name) ∧
      data'.get? (.str name) = data.get? (.str name)

/-- Each setting from all sources is the one sourced. -/
theorem exists_ofSources {f : Option File} {data : Mapping} (hfile : Gives yaml f data)
    {env : Environment} {start : String} (henv : env.Unambiguous start) :
    ∃ c reports, ofSources yaml f env start = .ok (c, reports) ∧
      ∀ name ∈ fieldNames, c.setting name = sourced env start data name := by
  obtain ⟨base, reports, hbase, hfields⟩ := hfile.baseOf
  obtain ⟨c, all, hall, hsetting⟩ := setting_withEnvironment env start (base, reports)
  refine ⟨c, all, ?_, fun name hname => ?_⟩
  · rw [ofSources_eq, hbase]
    exact hall
  · rw [hsetting name hname, Environment.has_eq, sourced]
    cases hlookup : env.lookup (start ++ Text.uppercase name) with
    | none => exact hfields name hname
    | some text => exact setting_read_prefixedSettings henv hname hlookup

/-- Whatever the environment and the file are, so long as no two variables with the prefix have the
same rest of their names in lower case, every setting is that of the variable in capitals, or else
that of the file, or else the default. Nothing else in the environment or in the file has a part in
the settings. -/
theorem ofSources_setting {f : Option File} {data : Mapping} (hfile : Gives yaml f data)
    {env : Environment} {start : String} (henv : env.Unambiguous start) :
    ∃ c reports, ofSources yaml f env start = .ok (c, reports) ∧
      (∀ name ∈ fieldNames, c.setting name = sourced env start data name) ∧
      ∀ f' data' env', Gives yaml f' data' → env'.Unambiguous start →
        AgreeOnSettings start env env' data data' →
        ∃ reports', ofSources yaml f' env' start = .ok (c, reports') := by
  obtain ⟨c, reports, hc, hsetting⟩ := exists_ofSources hfile henv
  refine ⟨c, reports, hc, hsetting, fun f' data' env' hfile' henv' hagree => ?_⟩
  obtain ⟨c', reports', hc', hsetting'⟩ := exists_ofSources hfile' henv'
  have hsame : c' = c := by
    refine eq_of_setting_eq fun name hname => ?_
    obtain ⟨hvariable, hentry⟩ := hagree name hname
    rw [hsetting name hname, hsetting' name hname, sourced, sourced, hvariable, hentry]
  exact ⟨reports', hsame ▸ hc'⟩

/-- A variable in capitals decides before the file, one in small letters does not, and the table of
routes and the keys of other programs do not matter. What the file holds is JSON, which YAML reads
as it is. -/
theorem ofSources_setting_teams :
    ∃ (yaml : YamlReader) (f : Option File) (data : Mapping) (env : Environment) (c : Config)
        (reports : List LogEntry),
      yaml = Document.Json.parse ∧
      f = some ⟨"c.yaml", .file ("\x7b\"strict\": true, \"app_domain\": \"test.app\", " ++
        "\"routes\": [\"home\"], \"port\": \"80\"\x7d")⟩ ∧
      env = [("PATH", "/bin"), ("ROUTES_CLUBS_PREFIX", "/teams"), ("ROUTES_STRICT", "False"),
        ("ROUTES_app_domain", "env.app"), ("ROUTES_PORT", "81")] ∧
      Gives yaml f data ∧ env.Unambiguous "ROUTES_" ∧
      ofSources yaml f env "ROUTES_" = .ok (c, reports) ∧
      (∀ name ∈ fieldNames, c.setting name = sourced env "ROUTES_" data name) ∧
      c.strict = .bool false ∧ c.clubsPrefix = .str "/teams" ∧ c.appDomain = .str "test.app" := by
  let f : File := ⟨"c.yaml", .file ("\x7b\"strict\": true, \"app_domain\": \"test.app\", " ++
    "\"routes\": [\"home\"], \"port\": \"80\"\x7d")⟩
  let data : Mapping := [(.str "strict", .bool true), (.str "app_domain", .str "test.app"),
    (.str "routes", .list [.str "home"]), (.str "port", .str "80")]
  let env : Environment := [("PATH", "/bin"), ("ROUTES_CLUBS_PREFIX", "/teams"),
    ("ROUTES_STRICT", "False"), ("ROUTES_app_domain", "env.app"), ("ROUTES_PORT", "81")]
  have hdata : f.readOrEmpty Document.Json.parse = .ok (.map data) := by cbv
  have htexts : data.HasTextKeys := Mapping.hasTextKeys_ofStrings [("strict", .bool true),
    ("app_domain", .str "test.app"), ("routes", .list [.str "home"]), ("port", .str "80")]
  have hfile : Gives Document.Json.parse (some f) data := .mapping hdata htexts
  have henv : env.Unambiguous "ROUTES_" := Environment.unambiguous_iff.2 (by decide +kernel)
  obtain ⟨c, reports, hc, hsetting, -⟩ := ofSources_setting hfile henv
  refine ⟨_, some f, data, env, c, reports, rfl, rfl, rfl, hfile, henv, hc, hsetting, ?_, ?_, ?_⟩
  · exact hsetting "strict" (by decide)
  · exact hsetting "clubs_prefix" (by decide)
  · exact hsetting "app_domain" (by decide)

end SiteRouter.Config
