import SiteRouter.Registry
import SiteRouter.Config.Sources

/-!
# Route documents

A document with a list of registrations and, beside it, settings. Loading it makes a registry: the
settings go over the base settings, every entry is registered in order, and the registry is frozen
if the settings say so. A level among the settings is set before the entries are registered.
-/

namespace SiteRouter

open Document (File YamlReader)

/-- A document with a table of routes. -/
structure RouteDocument where
  /-- Where it comes from, as reports name it. -/
  origin : String
  /-- Its fields in order. -/
  fields : Mapping

/-- A registry with what was reported while it was made. -/
structure Loaded where
  registry : Registry
  log : Log

namespace RouteDocument

/-- The document that a mapping is. -/
def ofMapping (fields : Mapping) : RouteDocument := ⟨"<mapping>", fields⟩

/-- The document in a file. -/
def ofFile (yaml : YamlReader) (f : File) : Except Fault RouteDocument :=
  (f.readOrEmpty yaml).bind fun
    | .map fields => .ok ⟨f.path, fields⟩
    | _ => .error (.documentNotMapping f.path)

/-- The entries of the table; a table that does not count as given has none. -/
def entries (d : RouteDocument) : Except Fault (List Value) :=
  match (d.fields.getD (.str "routes")).orElse (.list []) with
  | .list entries => .ok entries
  | _ => .error (.routesNotList d.origin)

/-- The settings beside the table. -/
def settings (d : RouteDocument) : Mapping := Config.withoutRoutes d.fields

/-- The arguments of the registration that an entry is. -/
def entryArguments (position : Nat) : Value → Except Fault (List Value)
  | .str name => .ok [.str name]
  | .list args => .ok args
  | .tuple args => .ok args
  | .map fields => .ok [.map fields]
  | v => .error (.unsupportedEntry position v.kind)

/-- Registers entries, of which the first has the given position. -/
def register [CharacterNames] : Nat → List Value → Loaded → Except Fault Loaded
  | _, [], l => .ok l
  | position, entry :: rest, l => do
    let args ← entryArguments position entry
    let (registry, added) := l.registry.add args []
    let route ← added
    register (position + 1) rest ⟨registry, l.log.report (Registry.addReport route)⟩

/-- The log with the level that the settings ask for, if they do. -/
def withLevel (l : Log) (c : Config) : Except Fault Log :=
  if c.logLevel.truthy then (Config.levelNumber c.logLevel).map fun n => { l with level := n }
  else .ok l

/-- The report on a loaded table. -/
def loadReport (d : RouteDocument) (count : Nat) : List LogEntry :=
  [⟨.info, .loader, "Loaded " ++ toString count ++ " routes from " ++ d.origin⟩]

/-- Freezes the registry if its settings say so. -/
def close (l : Loaded) : Loaded :=
  if l.registry.config.freezeOnLoad.truthy then
    ⟨l.registry.freeze, l.log.report l.registry.freezeReport⟩
  else l

/-- Makes the registry of a document. -/
def load [CharacterNames] (d : RouteDocument) (base : Config) : Except Fault Loaded := do
  let entries ← d.entries
  let (config, reports) ← base.merge d.settings
  let log ← withLevel (Log.empty.report reports) config
  let registry ← Registry.empty config none
  let l ← register 0 entries ⟨registry, log⟩
  return close ⟨l.registry, l.log.report (d.loadReport l.registry.routes.length)⟩

end RouteDocument

end SiteRouter
