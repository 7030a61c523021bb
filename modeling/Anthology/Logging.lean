/-
**Logging.**

What the catalog does is written to a log, each entry with a level.  Logging is set up once; a
second time fails, and so does a filter that cannot be read.

Main definitions:

* `Anthology.LogLevel` — the levels, in ascending order;
* `Anthology.LogEntry` — an entry with its fields;
* `Anthology.LogSettings` — how the log is written;
* `Anthology.LogSettings.install` — sets logging up;
* `Anthology.baseName` — a path without its directories, which are kept out of the log.
-/

import Anthology.Fault
import Anthology.Json
import Anthology.Logging.Filter

set_option relaxedAutoImplicit false
set_option autoImplicit false

namespace Anthology

/-! ### Levels -/

inductive LogLevel where
  | trace
  | debug
  | info
  | warn
  | error
deriving DecidableEq, Repr

namespace LogLevel

def all : List LogLevel := [trace, debug, info, warn, error]

def name : LogLevel → String
  | trace => "trace"
  | debug => "debug"
  | info => "info"
  | warn => "warn"
  | error => "error"

def rank : LogLevel → Nat
  | trace => 0
  | debug => 1
  | info => 2
  | warn => 3
  | error => 4

instance : LE LogLevel := ⟨fun l m => l.rank ≤ m.rank⟩

instance (l m : LogLevel) : Decidable (l ≤ m) := inferInstanceAs (Decidable (l.rank ≤ m.rank))

/-- The level with a given name, in capitals or not; `warning` is a name too. -/
def ofName (s : String) : Except SettingsFault LogLevel :=
  let lowered := asciiLowercase s
  match all.find? fun l => l.name == lowered || (l == warn && lowered == "warning") with
  | some l => .ok l
  | none => .error (.refused s!"Unknown log level: {lowered}")

def codec : Codec LogLevel := .named all name

end LogLevel

/-! ### Entries -/

structure LogEntry where
  level : LogLevel
  message : String
  fields : Fields

namespace LogEntry

/-- The name of the level, in capitals. -/
def levelName : LogLevel → String
  | .trace => "TRACE"
  | .debug => "DEBUG"
  | .info => "INFO"
  | .warn => "WARN"
  | .error => "ERROR"

/-- A collection of which the cached number of works was wrong. -/
def drift (collection : String) (cached actual : Int) : LogEntry where
  level := .warn
  message := "Manifestations count drift corrected"
  fields := [("collection_id", .string collection), ("cached", .number cached),
    ("actual", .number actual)]

/-- An orphan that nobody can tell the owner of. -/
def unowned (collection : String) (owners : Nat) : LogEntry where
  level := .warn
  message := "Cannot determine owning authority of orphaned uncollected collection"
  fields := [("collection_id", .string collection), ("candidate_owners", .number owners)]

/-- A refresh that was given up. -/
def refreshFailed (authority : String) (attempts : Nat) (cause : Fault) : LogEntry where
  level := .error
  message := "Uncollected refresh failed"
  fields := [("authority_id", .string authority), ("attempts", .number attempts),
    ("error", .string cause.message)]

/-- The upkeep lost events because it was too far behind. -/
def lagged (skipped : Nat) : LogEntry where
  level := .warn
  message := "Uncollected worker lagged behind the event bus"
  fields := [("skipped", .number skipped)]

end LogEntry

/-! ### Settings -/

inductive LogFormat where
  | pretty
  | json
  | compact
deriving DecidableEq, Repr

namespace LogFormat

def name : LogFormat → String
  | pretty => "Pretty"
  | json => "Json"
  | compact => "Compact"

end LogFormat

/-- How the log is written. -/
@[ext] structure LogSettings where
  format : LogFormat
  level : LogLevel
  /-- Takes the place of the levels that hold by default. -/
  filter : Option String
  spans : Bool
  target : Bool
  threadInfo : Bool
deriving DecidableEq

namespace LogSettings

def default : LogSettings := ⟨.pretty, .info, none, true, true, false⟩

instance : Inhabited LogSettings := ⟨default⟩

/-- One setting of the log. -/
inductive Change where
  | format (value : LogFormat)
  | level (value : LogLevel)
  | filter (value : String)
  | spans (value : Bool)
  | target (value : Bool)
  | threadInfo (value : Bool)
deriving DecidableEq

def set (l : LogSettings) : Change → LogSettings
  | .format v => { l with format := v }
  | .level v => { l with level := v }
  | .filter v => { l with filter := some v }
  | .spans v => { l with spans := v }
  | .target v => { l with target := v }
  | .threadInfo v => { l with threadInfo := v }

/-- Sets logging up, where `installed` says that it was set up before. -/
def install (l : LogSettings) (installed : Bool) : Except SettingsFault Unit := do
  match l.filter.map LogFilter.check with
  | some (.error flaw) => throw (.refused s!"Invalid log filter: {flaw.message}")
  | _ => pure ()
  if installed then
    throw (.refused ("Failed to initialize logging: a global default trace dispatcher has " ++
      "already been set"))

end LogSettings

/-! ### Paths -/

/-- The part of a path behind its last slash or backslash. -/
def baseName (path : String) : String :=
  String.ofList (path.toList.reverse.takeWhile fun c => c != '/' && c != '\\').reverse

end Anthology
