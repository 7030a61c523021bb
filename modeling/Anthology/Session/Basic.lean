/-
**Sessions.**

A session is a catalog that is open: a store, the settings it was opened with, a supply of ids, the
time, and the upkeep in the background if it runs.  A session over a file keeps its store when it is
closed and opened again; one over memory starts empty each time.  While the session is closed
nothing can be read or written; while somebody else holds the write lock of its file it can be read
and not written.

What a request does to the store is one step, which happens as a whole or not at all.  A request may
read once more behind its step; such a read may fail, and then the step was done all the same.

Main definitions:

* `Anthology.IdSupply` — the ids that are given to new records;
* `Anthology.Session` — the state; `Anthology.Session.start`, `Anthology.Session.reopen`;
* `Anthology.Session.readable`, `Anthology.Session.writable` — what closing and locking forbid;
* `Anthology.Session.edit` — a step on the store; `Anthology.Session.readBehind` — a read after one;
* `Anthology.Session.carryOut` — a routine of the upkeep against the store.
-/

import Anthology.Session.Request
import Anthology.Settings.Address
import Anthology.Settings.Pool
import Anthology.Upkeep.Routine

set_option relaxedAutoImplicit false
set_option autoImplicit false

namespace Anthology

/-! ### Ids -/

/-- The ids that are given to new records: a letter and a number, counted up from 1 or down from
9999. -/
structure IdSupply where
  taken : Nat
  descending : Bool

namespace IdSupply

/-- A number with at least four digits. -/
def digits (n : Nat) : String :=
  let s := toString n
  String.ofList (List.replicate (4 - s.length) '0') ++ s

/-- The id that is given after `k` more. -/
def id (i : IdSupply) (k : Nat) : Id :=
  let n := i.taken + k + 1
  "u" ++ digits (if i.descending then 10000 - n else n)

/-- The supply after so many more ids were given. -/
def take (i : IdSupply) (n : Nat) : IdSupply := { i with taken := i.taken + n }

end IdSupply

/-! ### The state -/

structure Session where
  settings : Settings
  /-- The store is kept in memory and ends when the session is closed. -/
  volatile : Bool
  store : Store
  ids : IdSupply
  now : Time
  /-- Another connection holds the write lock of the file. -/
  locked : Bool
  /-- The pool of connections is closed. -/
  closed : Bool
  /-- The upkeep was started in the background and not shut down. -/
  started : Bool
  /-- The upkeep was shut down once, and does nothing any more. -/
  cancelled : Bool
  /-- The upkeep in the background broke off. -/
  halted : Bool
  /-- How the store fails, at a given time, a read behind a step. -/
  outages : Time → Option StorageFault
  /-- What was announced during the current request, the latest first. -/
  announced : List Event
  /-- What was logged during the current request, the latest first. -/
  logged : List LogEntry

namespace Session

/-- The time before the first request. -/
def epoch : Time := 1700000000

/-- Opens a session. -/
def start (settings : Settings) (descending : Bool) (outages : Time → Option StorageFault) :
    Except ServiceFault Session := do
  let volatile ← match settings.location with
    | .memory => .ok true
    | .file path => (Address.connect path).mapError fun f => .initialization f.message
  return {
    settings
    volatile
    store := .empty
    ids := ⟨0, descending⟩
    now := epoch
    locked := false
    closed := false
    started := settings.maintainer.enabled
    cancelled := false
    halted := false
    outages
    announced := []
    logged := [] }

/-- Shuts the session down and opens it again. -/
def reopen (n : Session) : Session :=
  { n with
    store := if n.volatile then .empty else n.store
    closed := false
    started := n.settings.maintainer.enabled
    cancelled := false
    halted := false }

/-- The last step of a path that leads somewhere. -/
def fileName (path : String) : String := (Address.segments path).getLast?.getD path

/-- What is logged when a session is opened. -/
def openingLog (s : Settings) : List LogEntry :=
  let shown (name : String → String) : String :=
    match s.location with
    | .file path => name path
    | .memory => ":memory:"
  let entry (message : String) (fields : Fields) : LogEntry := ⟨.info, message, fields⟩
  [entry "Starting catalog service"
      [("database", .string (shown baseName)), ("maintainer", .bool s.maintainer.enabled)],
    entry "Creating database connection pool"
      [("database", .string (shown fileName)), ("min_connections", .number s.minConnections),
        ("max_connections", .number s.maxConnections)],
    entry "Database connection pool created" [("connections", .number (max 1 s.minConnections))],
    entry "Running database migrations" [],
    entry "Database migrations completed" []]

/-! ### Access -/

/-- Nothing can be read from a closed session. -/
def readable (n : Session) : Except Fault Unit :=
  Store.ensure (!n.closed) (.storage .poolClosed)

/-- Nothing can be written to a closed session or past the lock of somebody else. -/
def writable (n : Session) : Except Fault Unit := do
  n.readable
  Store.ensure (!n.locked) (.storage .locked)

/-- Reads from the store. -/
def read {α : Type} (n : Session) (f : Store → Except Fault α) : Except Fault α := do
  n.readable
  f n.store

/-- A step on the store, which gives `ids` ids to new records. -/
def edit {α : Type} (n : Session) (ids : α → Nat) (f : Store → Except Fault (α × Store)) :
    Except Fault (α × Session) := do
  n.writable
  let (a, store) ← f n.store
  return (a, { n with store, ids := n.ids.take (ids a) })

/-- Reads from the store behind a step. -/
def readBehind {α : Type} (n : Session) (f : Store → α) : Except Fault α :=
  match n.outages n.now with
  | some cause => .error (.storage cause)
  | none => n.read fun s => .ok (f s)

/-- The session with one more event announced. -/
def announce (n : Session) (e : Event) : Session := { n with announced := e :: n.announced }

/-- The session with one more entry in its log. -/
def log (n : Session) (entry : LogEntry) : Session := { n with logged := entry :: n.logged }

/-! ### Upkeep -/

/-- One refresh of an authority.  The lock of somebody else makes it fail like another refresh.  A
refresh that fails leaves everything as it was but for the ids, which are not given out again. -/
def refreshOnce [Arithmetic] (n : Session) (a : Id) : Except Fault RefreshOutcome × Session :=
  if n.closed then (.error (.storage .poolClosed), n)
  else if n.locked then (.error (.lockContention a), n)
  else
    let m := { n with ids := n.ids.take (n.store.idsGiven n.now n.ids.id a) }
    match n.store.refresh n.now n.ids.id a with
    | .ok (outcome, store) => (.ok outcome, { m with store })
    | .error fault => (.error fault, m)

/-- The attempt broke off. -/
def brokeOff {α : Type} : Except Fault α → Bool
  | .error fault => fault.breaksOff
  | .ok _ => false

/-- Carries a routine of the upkeep out against the store.  Nobody can cancel it meanwhile, so a
wait ends early only where the upkeep had been cancelled before.  Where an attempt breaks off so
does the routine, and there is no value. -/
def carryOut [Arithmetic] {α : Type} (n : Session) : Routine α → Option α × Session
  | .done a => (some a, n)
  | .attempt a next =>
    let (answer, n) := n.refreshOnce a
    if brokeOff answer then (none, n) else n.carryOut (next answer)
  | .pause _ next => n.carryOut (next n.cancelled)
  | .unlessCancelled next => n.carryOut (next n.cancelled)
  | .announce e next => (n.announce e).carryOut next
  | .report entry next => (n.log entry).carryOut next

/-- The upkeep in the background answers changed credits. -/
def upkeepRuns (n : Session) : Bool := n.started && !n.cancelled && !n.halted

/-- One refresh in the background with its repetitions.  Where it breaks off so does the upkeep. -/
def attend [Arithmetic] (n : Session) (a : Id) : Session :=
  let (answer, n) := n.carryOut (n.settings.maintainer.retry a)
  { n with halted := answer.isNone }

/-- The upkeep in the background refreshes the authorities, one after the other. -/
def respond [Arithmetic] (n : Session) (authorities : List Id) : Session :=
  authorities.foldl (fun n a => if n.halted then n else n.attend a) n

end Session

end Anthology
