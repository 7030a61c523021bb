/-
**Settings of the connection pool.**

The store is reached through a pool of connections.  A pool over a file renews its connections from
time to time; one over memory must not, because the store ends with its last connection.

Main definitions:

* `Anthology.PoolSettings` — the settings of a pool;
* `Anthology.PoolSettings.ofFile`, `Anthology.PoolSettings.inMemory` — their defaults;
* `Anthology.Settings.pool` — the pool that the settings of the catalog ask for.
-/

import Anthology.Settings.Core

set_option relaxedAutoImplicit false
set_option autoImplicit false

namespace Anthology

@[ext] structure PoolSettings where
  /-- Where the store is kept, as an address. -/
  url : String
  minConnections : Nat
  maxConnections : Nat
  acquireTimeout : Duration
  busyTimeout : Duration
  maxLifetime : Option Duration
  idleTimeout : Option Duration
  /-- How many prepared statements a connection keeps. -/
  statementCache : Nat
deriving DecidableEq

namespace PoolSettings

/-- A pool over a store in memory. -/
def inMemory : PoolSettings where
  url := "sqlite::memory:"
  minConnections := 1
  maxConnections := 5
  acquireTimeout := .ofSeconds 30
  busyTimeout := .ofSeconds 5
  maxLifetime := none
  idleTimeout := none
  statementCache := 100

/-- A pool over the store in a file. -/
def ofFile (path : String) : PoolSettings :=
  { inMemory with
    url := s!"sqlite:{path}"
    maxLifetime := some (.ofSeconds 1800)
    idleTimeout := some (.ofSeconds 600) }

instance : Inhabited PoolSettings := ⟨inMemory⟩

/-- One setting of a pool. -/
inductive Change where
  | minConnections (value : Nat)
  | maxConnections (value : Nat)
  | acquireTimeout (value : Duration)
  | busyTimeout (value : Duration)
  | maxLifetime (value : Option Duration)
  | idleTimeout (value : Option Duration)
  | statementCache (value : Nat)
deriving DecidableEq

def set (p : PoolSettings) : Change → PoolSettings
  | .minConnections v => { p with minConnections := v }
  | .maxConnections v => { p with maxConnections := v }
  | .acquireTimeout v => { p with acquireTimeout := v }
  | .busyTimeout v => { p with busyTimeout := v }
  | .maxLifetime v => { p with maxLifetime := v }
  | .idleTimeout v => { p with idleTimeout := v }
  | .statementCache v => { p with statementCache := v }

end PoolSettings

/-- The pool that the settings of the catalog ask for. -/
def Settings.pool (s : Settings) : PoolSettings :=
  let base :=
    match s.location with
    | .file path => PoolSettings.ofFile path
    | .memory => PoolSettings.inMemory
  { base with
    minConnections := s.minConnections
    maxConnections := s.maxConnections
    acquireTimeout := s.acquireTimeout
    busyTimeout := s.busyTimeout }

end Anthology
