/-!
# Log entries

What operations report. A log keeps the entries at or above its threshold: the level that was set,
or warnings if none was.
-/

namespace SiteRouter

/-- How much an entry matters. -/
inductive Severity where
  | debug
  | info
  | warning
deriving DecidableEq, Repr

namespace Severity

/-- The number of a severity. -/
def number : Severity → Nat
  | debug => 10
  | info => 20
  | warning => 30

/-- The name of a severity. -/
def name : Severity → String
  | debug => "DEBUG"
  | info => "INFO"
  | warning => "WARNING"

end Severity

/-- The part of the library that reports. -/
inductive Reporter where
  | registry
  | loader
  | config
  | tenants
  | navigator
deriving DecidableEq, Repr

/-- The name of a part. -/
def Reporter.name : Reporter → String
  | registry => "registry"
  | loader => "loader"
  | config => "config"
  | tenants => "tenants"
  | navigator => "navigator"

/-- A report. -/
structure LogEntry where
  severity : Severity
  reporter : Reporter
  message : String
deriving DecidableEq, Repr

/-- The reports kept so far, and the level that was set; 0 stands for none. -/
structure Log where
  level : Nat
  entries : List LogEntry
deriving Repr

namespace Log

/-- A log without entries and without a level. -/
def empty : Log := ⟨0, []⟩

/-- The least number of a severity that is kept. -/
def threshold (l : Log) : Nat := if l.level = 0 then Severity.warning.number else l.level

/-- Keeps the entries that are at or above the threshold. -/
def report (l : Log) (entries : List LogEntry) : Log :=
  { l with entries := l.entries ++ entries.filter fun e => l.threshold ≤ e.severity.number }

/-- The number of a level with a name. -/
def levelNumber? : String → Option Nat
  | "CRITICAL" => some 50
  | "FATAL" => some 50
  | "ERROR" => some 40
  | "WARN" => some 30
  | "WARNING" => some 30
  | "INFO" => some 20
  | "DEBUG" => some 10
  | "NOTSET" => some 0
  | _ => none

end Log

end SiteRouter
