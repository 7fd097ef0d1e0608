import SiteRouter.Value.Convert
import SiteRouter.Value.Order
import SiteRouter.Log
import SiteRouter.Text.Case

/-!
# Settings

The settings of a registry. They come from a mapping, in which unknown keys are reported and
ignored, from the environment, or from both, the environment winning.
-/

namespace SiteRouter

/-- The settings of a registry. A setting may hold a value of any kind. -/
structure Config where
  /-- The domain on which club folders are stripped from paths. -/
  appDomain : Value := .null
  /-- The common prefix of club folders. -/
  clubsPrefix : Value := .str "/clubs"
  /-- Whether upper and lower case differ in patterns. -/
  caseSensitive : Value := .bool false
  /-- Whether a slash at the end of a path counts. -/
  strict : Value := .bool false
  /-- Whether a registry is frozen once it is loaded. -/
  freezeOnLoad : Value := .bool true
  /-- The level of the log, or nothing to leave it alone. -/
  logLevel : Value := .null

namespace Config

/-- The settings by name, in order. -/
def fields (c : Config) : List (String × Value) :=
  [("app_domain", c.appDomain), ("clubs_prefix", c.clubsPrefix),
    ("case_sensitive", c.caseSensitive), ("strict", c.strict),
    ("freeze_on_load", c.freezeOnLoad), ("log_level", c.logLevel)]

/-- The names of the settings. -/
def fieldNames : List String := ({} : Config).fields.map Prod.fst

/-- The settings as a mapping. -/
def toMapping (c : Config) : Mapping := c.fields.map fun (name, v) => (.str name, v)

/-- Whether the key names a setting. -/
def isField : Value → Bool
  | .str s => fieldNames.contains s
  | _ => false

/-- The settings in a mapping, and the defaults for the others. -/
def read (data : Mapping) : Config :=
  let get (name : String) (default : Value) : Value := (data.get? (.str name)).getD default
  let d : Config := {}
  { appDomain := get "app_domain" d.appDomain
    clubsPrefix := get "clubs_prefix" d.clubsPrefix
    caseSensitive := get "case_sensitive" d.caseSensitive
    strict := get "strict" d.strict
    freezeOnLoad := get "freeze_on_load" d.freezeOnLoad
    logLevel := get "log_level" d.logLevel }

/-- Settings and what reading them reported. -/
abbrev Reported := Config × List LogEntry

/-- The report on keys that name no setting; it lists them in order. -/
def unknownReport (keys : List Value) : Except Fault (List LogEntry) :=
  match keys with
  | [] => .ok []
  | keys =>
    match Value.sorted? keys with
    | none => .error .wrongKind
    | some keys =>
      if !Value.areWritable keys then .error .wrongValue
      else
        .ok [⟨.warning, .config,
          "Ignoring unknown config keys: " ++ (Value.list keys).literal⟩]

/-- The settings in a mapping; keys that name no setting are reported. -/
def ofMapping (data : Mapping) : Except Fault Reported :=
  (unknownReport (data.keys.filter (!isField ·))).map (read data, ·)

/-- The settings given by keywords, all of which must name one. -/
def ofKeywords (data : Mapping) : Except Fault Config :=
  if data.keys.all isField then .ok (read data) else .error .wrongKind

/-- The values without repetition. -/
def distinct (vs : List Value) : List Value :=
  vs.foldl (fun seen v => if seen.any (·.same v) then seen else seen ++ [v]) []

/-- The settings in a document, which should be a mapping. A value of another kind is refused for
its elements first, if it has any, and then for having no keys. -/
def ofDocument (document : Value) : Except Fault Reported :=
  match document with
  | .map data => ofMapping data
  | v =>
    match v.elements? with
    | none => .error .wrongKind
    | some items =>
      if items.all Value.isKey then do
        let _ ← unknownReport ((distinct items).filter (!isField ·))
        .error .missingOperation
      else .error .wrongKind

/-- The settings with those of a mapping in their place. -/
def merge (c : Config) (other : Mapping) : Except Fault Reported :=
  ofMapping (c.toMapping.putAll other)

/-! ## The environment -/

/-- The variables of an environment with their texts, in order; every name occurs once. -/
abbrev Environment := List (String × String)

namespace Environment

/-- Sets a variable; one that is set already keeps its place. -/
def set : Environment → String → String → Environment
  | [], name, text => [(name, text)]
  | (n, t) :: rest, name, text =>
    if n = name then (n, text) :: rest else (n, t) :: set rest name text

/-- The environment that results from setting variables in turn. -/
def ofPairs (pairs : List (String × String)) : Environment :=
  pairs.foldl (fun env (name, text) => env.set name text) []

/-- Whether a variable is set. -/
def has (env : Environment) (name : String) : Bool := env.any (·.1 == name)

end Environment

/-- The value that the text of a variable stands for: the words for truth and falsehood in any case,
or the text itself. -/
def variableValue (text : String) : Value :=
  let lower := Text.lowercase text
  if lower = "true" then .bool true
  else if lower = "false" then .bool false
  else .str text

/-- What follows a text at the start of another. -/
def dropPrefix? : List Char → List Char → Option (List Char)
  | [], cs => some cs
  | p :: ps, c :: cs => if p = c then dropPrefix? ps cs else none
  | _ :: _, [] => none

/-- The settings that the variables with a prefix stand for, by the rest of their names in lower
case. Of two variables with the same rest the later one counts. -/
def prefixedSettings (env : Environment) (start : String) : Mapping :=
  Mapping.ofPairs (env.filterMap fun (name, text) =>
    (dropPrefix? start.toList name.toList).map fun rest =>
      (.str (Text.lowercase (String.ofList rest)), variableValue text))

/-- The settings in an environment. -/
def ofEnvironment (env : Environment) (start : String) : Except Fault Reported :=
  ofMapping (prefixedSettings env start)

/-- The settings whose variables are set under their names in upper case. -/
def overrides (env : Environment) (start : String) (c : Config) : Mapping :=
  (c.fields.filter fun (name, _) => env.has (start ++ Text.uppercase name)).map
    fun (name, v) => (.str name, v)

/-- Settings with those of an environment in their place. -/
def withEnvironment (base : Reported) (env : Environment) (start : String) :
    Except Fault Reported := do
  let (c, reports) ← ofEnvironment env start
  let (merged, more) ← base.1.merge (overrides env start c)
  return (merged, base.2 ++ reports ++ more)

/-- The mapping without the table of routes that may stand beside the settings. -/
def withoutRoutes (data : Mapping) : Mapping :=
  data.filter fun (k, _) => !k.same (.str "routes")

/-- The settings in a document that may hold a table of routes too. -/
def ofRouteDocument (document : Value) : Except Fault Reported :=
  match document with
  | .map data => ofMapping (withoutRoutes data)
  | _ => .error .missingOperation

/-- The level that a setting names. -/
def levelNumber (v : Value) : Except Fault Nat :=
  match v with
  | .str s =>
    match Log.levelNumber? (Text.uppercase s) with
    | some n => .ok n
    | none => .error .wrongValue
  | _ => .error v.textFault

end Config

end SiteRouter
