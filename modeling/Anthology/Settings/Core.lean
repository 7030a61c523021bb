/-
**Settings of the catalog.**

Settings are collected one by one; of several values for the same setting the last one counts, and
what is never set keeps its default.  The settings are built once everything is collected, and only
if they are consistent.

Main definitions:

* `Anthology.Settings` — the settings; `Anthology.Settings.check` — refuses what is inconsistent;
* `Anthology.Setting` — one setting as it is collected;
* `Anthology.SettingsDraft` — what was collected, and `Anthology.SettingsDraft.build`.
-/

import Anthology.Settings.Maintainer

set_option relaxedAutoImplicit false
set_option autoImplicit false

namespace Anthology

/-- Where the store is kept. -/
inductive Location where
  | file (path : String)
  | memory
deriving DecidableEq, Repr

/-! ### Settings -/

@[ext] structure Settings where
  location : Location
  minConnections : Nat
  maxConnections : Nat
  /-- How long a caller waits for a connection. -/
  acquireTimeout : Duration
  /-- How long a write waits for the write lock. -/
  busyTimeout : Duration
  /-- How many events the bus keeps. -/
  eventBufferSize : Nat
  maintainer : Maintainer
deriving DecidableEq

namespace Settings

open SettingsFault (refuseUnless)

/-- Refuses settings that are inconsistent or out of bounds. -/
def check (s : Settings) : Except SettingsFault Unit := do
  refuseUnless (s.location != .file "") "Database path cannot be empty"
  refuseUnless (s.maxConnections != 0) "max_connections must be greater than 0"
  refuseUnless (decide (s.maxConnections ≤ 100)) "max_connections exceeds maximum of 100"
  refuseUnless (decide (s.minConnections ≤ s.maxConnections))
    s!"min_connections ({s.minConnections}) cannot exceed max_connections ({s.maxConnections})"
  refuseUnless (s.acquireTimeout.nanos != 0) "acquire_timeout must be greater than 0"
  refuseUnless (s.busyTimeout.nanos != 0)
    "busy_timeout must be greater than 0; concurrent refreshes rely on it"
  refuseUnless (s.eventBufferSize != 0) "event_buffer_size must be greater than 0"
  s.maintainer.check

def isInMemory (s : Settings) : Bool := s.location == .memory

end Settings

/-! ### Collecting settings -/

/-- One setting as it is collected. -/
inductive Setting where
  | location (value : Location)
  | minConnections (value : Nat)
  | maxConnections (value : Nat)
  | acquireTimeout (value : Duration)
  | busyTimeout (value : Duration)
  | eventBufferSize (value : Nat)
  | maintainer (value : Maintainer)
  /-- Switches the upkeep on or off and leaves its other settings as they are. -/
  | enableMaintainer (value : Bool)
deriving DecidableEq

/-- What was collected so far. -/
@[ext] structure SettingsDraft where
  location : Option Location
  minConnections : Option Nat
  maxConnections : Option Nat
  acquireTimeout : Option Duration
  busyTimeout : Option Duration
  eventBufferSize : Option Nat
  maintainer : Option Maintainer
deriving DecidableEq

namespace SettingsDraft

/-- Nothing is collected. -/
def start : SettingsDraft := ⟨none, none, none, none, none, none, none⟩

def set (d : SettingsDraft) : Setting → SettingsDraft
  | .location v => { d with location := some v }
  | .minConnections v => { d with minConnections := some v }
  | .maxConnections v => { d with maxConnections := some v }
  | .acquireTimeout v => { d with acquireTimeout := some v }
  | .busyTimeout v => { d with busyTimeout := some v }
  | .eventBufferSize v => { d with eventBufferSize := some v }
  | .maintainer v => { d with maintainer := some v }
  | .enableMaintainer v =>
    { d with maintainer := some { d.maintainer.getD .default with enabled := v } }

/-- The draft after the listed settings, the first of them first. -/
def collect (settings : List Setting) : SettingsDraft := settings.foldl set start

/-- The settings, with defaults for what was not collected, if they are consistent. -/
def build (d : SettingsDraft) : Except SettingsFault Settings :=
  match d.location with
  | none =>
    .error (.refused "Database location is required. Use .database_path() or .in_memory().")
  | some location => do
    let settings : Settings := {
      location
      minConnections := d.minConnections.getD 1
      maxConnections := d.maxConnections.getD 5
      acquireTimeout := d.acquireTimeout.getD (.ofSeconds 30)
      busyTimeout := d.busyTimeout.getD (.ofSeconds 5)
      eventBufferSize := d.eventBufferSize.getD 100
      maintainer := d.maintainer.getD .default }
    settings.check
    return settings

end SettingsDraft

end Anthology
