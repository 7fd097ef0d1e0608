import SiteRouter.Config
import SiteRouter.Document.File

/-!
# Sources of settings

Settings are read from a file, from the environment, or from both. A file of routes may hold
settings beside its table; where both are asked for, a missing file is reported and passed over.
-/

namespace SiteRouter

open Document (File YamlReader)

namespace Config

/-- The settings in a file that holds nothing else. -/
def ofFile (yaml : YamlReader) (f : File) : Except Fault Reported :=
  (f.readOrEmpty yaml).bind ofDocument

/-- The settings in a file that may hold a table of routes too, or the defaults if it is missing. -/
def ofRouteFile (yaml : YamlReader) (f : File) : Except Fault Reported :=
  if f.stands then (f.readOrEmpty yaml).bind ofRouteDocument
  else .ok ({}, [⟨.warning, .config, "Config file not found: " ++ f.path⟩])

/-- The settings in a file, if one is named, with those of the environment in their place. An empty
path names no file. -/
def ofSources (yaml : YamlReader) (f : Option File) (env : Environment) (start : String) :
    Except Fault Reported := do
  let base ← match f with
    | none => .ok ({}, [])
    | some f => if f.path = "" then .ok ({}, []) else ofRouteFile yaml f
  withEnvironment base env start

end Config

end SiteRouter
