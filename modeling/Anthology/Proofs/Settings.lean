/-
**Which settings are built.**

Settings are collected call by call and checked at the end.  What a call says of a setting holds
until another call says something else of it.  One call is about a part of a setting only: switching
the upkeep on or off keeps its attempts and its wait.  So the attempts and the wait are those of the
last call that gives the upkeep as a whole, and whether it is switched on is what the last call says
that is about the upkeep at all.

Of the bounds that go with the settings, all are checked but one: that there is at least one
connection to begin with.  Collected settings are therefore built exactly if they keep to the bounds
once a missing connection is put in.

Main definitions:

* `Anthology.Setting.lastOf` — what the last call says that says anything;
* `Anthology.Settings.chosen` — the settings that a sequence of calls comes to;
* `Anthology.Settings.Documented` — the bounds of settings.

Main results:

* `Anthology.SettingsDraft.settled_collect` — what is collected is what the last calls say;
* `Anthology.Settings.check_eq_ok` — what is checked;
* `Anthology.SettingsDraft.built_iff` — **which settings are built**, and when the bounds tell;
* `Anthology.SettingsDraft.built_without_connections` — settings without a connection are built.
-/

import Anthology.Proofs.Outcome
import Anthology.Settings.Core
import Mathlib.Data.List.Induction

set_option relaxedAutoImplicit false
set_option autoImplicit false

namespace Anthology

/-! ### What calls say -/

namespace Setting

def location? : Setting → Option Location
  | location v => some v
  | _ => none

def minConnections? : Setting → Option Nat
  | minConnections v => some v
  | _ => none

def maxConnections? : Setting → Option Nat
  | maxConnections v => some v
  | _ => none

def acquireTimeout? : Setting → Option Duration
  | acquireTimeout v => some v
  | _ => none

def busyTimeout? : Setting → Option Duration
  | busyTimeout v => some v
  | _ => none

def eventBufferSize? : Setting → Option Nat
  | eventBufferSize v => some v
  | _ => none

/-- Whether the upkeep is switched on is said along with its other settings, and alone. -/
def enabled? : Setting → Option Bool
  | maintainer v => some v.enabled
  | enableMaintainer v => some v
  | _ => none

def maxAttempts? : Setting → Option Nat
  | maintainer v => some v.maxAttempts
  | _ => none

def initialBackoff? : Setting → Option Duration
  | maintainer v => some v.initialBackoff
  | _ => none

variable {α : Type}

/-- What the last of the calls says that says anything. -/
def lastOf (said? : Setting → Option α) (calls : List Setting) : Option α :=
  (calls.filterMap said?).getLast?

theorem lastOf_nil (said? : Setting → Option α) : lastOf said? [] = none := rfl

theorem lastOf_snoc (said? : Setting → Option α) (calls : List Setting) (call : Setting) :
    lastOf said? (calls ++ [call]) = (said? call).or (lastOf said? calls) := by
  cases h : said? call <;> simp [lastOf, List.filterMap_append, h]

end Setting

namespace Settings

open Setting (lastOf)

/-- The settings that the calls come to at the given location: what the last call says of each, or
its default. -/
def chosen (calls : List Setting) (location : Location) : Settings where
  location
  minConnections := (lastOf Setting.minConnections? calls).getD 1
  maxConnections := (lastOf Setting.maxConnections? calls).getD 5
  acquireTimeout := (lastOf Setting.acquireTimeout? calls).getD (.ofSeconds 30)
  busyTimeout := (lastOf Setting.busyTimeout? calls).getD (.ofSeconds 5)
  eventBufferSize := (lastOf Setting.eventBufferSize? calls).getD 100
  maintainer := {
    enabled := (lastOf Setting.enabled? calls).getD true
    maxAttempts := (lastOf Setting.maxAttempts? calls).getD 5
    initialBackoff := (lastOf Setting.initialBackoff? calls).getD (.ofMillis 100) }

/-- The settings after one more call: what it says, and as they were where it says nothing. -/
def after (s : Settings) (call : Setting) : Settings where
  location := s.location
  minConnections := call.minConnections?.getD s.minConnections
  maxConnections := call.maxConnections?.getD s.maxConnections
  acquireTimeout := call.acquireTimeout?.getD s.acquireTimeout
  busyTimeout := call.busyTimeout?.getD s.busyTimeout
  eventBufferSize := call.eventBufferSize?.getD s.eventBufferSize
  maintainer := {
    enabled := call.enabled?.getD s.maintainer.enabled
    maxAttempts := call.maxAttempts?.getD s.maintainer.maxAttempts
    initialBackoff := call.initialBackoff?.getD s.maintainer.initialBackoff }

/-- **What the last call says holds**, one call after another. -/
theorem chosen_snoc (calls : List Setting) (call : Setting) (l : Location) :
    chosen (calls ++ [call]) l = (chosen calls l).after call := by
  simp only [chosen, after, Setting.lastOf_snoc, Option.getD_or]

/-- The bounds of settings. -/
structure Documented (s : Settings) : Prop where
  /-- The path of a file is not empty. -/
  location : s.location ≠ .file ""
  connections : 1 ≤ s.minConnections ∧ s.minConnections ≤ s.maxConnections ∧ s.maxConnections ≤ 100
  timeouts : 0 < s.acquireTimeout.nanos ∧ 0 < s.busyTimeout.nanos
  eventBuffer : 0 < s.eventBufferSize
  attempts : 1 ≤ s.maintainer.maxAttempts ∧ s.maintainer.maxAttempts ≤ 20
  /-- The first wait is a minute at most. -/
  backoff : s.maintainer.initialBackoff.nanos ≤ 60 * nanosPerSecond

/-- The settings with a connection to begin with. -/
def connected (s : Settings) : Settings := { s with minConnections := max 1 s.minConnections }

theorem connected_of_pos {s : Settings} (h : 1 ≤ s.minConnections) : s.connected = s := by
  ext <;> simp [connected, h]

end Settings

/-! ### What is checked -/

theorem SettingsFault.refuseUnless_eq_ok {c : Bool} {text : String} {u : Unit} :
    refuseUnless c text = .ok u ↔ c = true := by
  cases c <;> simp [refuseUnless]

open SettingsFault (refuseUnless_eq_ok)

theorem Maintainer.check_eq_ok {m : Maintainer} : m.check = .ok () ↔
    (1 ≤ m.maxAttempts ∧ m.maxAttempts ≤ 20) ∧ m.initialBackoff.nanos ≤ 60 * nanosPerSecond := by
  simp [check, bind_eq_ok, refuseUnless_eq_ok, Nat.one_le_iff_ne_zero, and_assoc]

/-- **All bounds are checked but the first connection.** -/
theorem Settings.check_eq_ok {s : Settings} : s.check = .ok () ↔ s.connected.Documented := by
  have hchecks : s.check = .ok () ↔ s.location ≠ .file "" ∧ s.maxConnections ≠ 0 ∧
      s.maxConnections ≤ 100 ∧ s.minConnections ≤ s.maxConnections ∧ s.acquireTimeout.nanos ≠ 0 ∧
      s.busyTimeout.nanos ≠ 0 ∧ s.eventBufferSize ≠ 0 ∧ s.maintainer.check = .ok () := by
    simp [check, bind_eq_ok, refuseUnless_eq_ok]
  rw [hchecks, Maintainer.check_eq_ok]
  constructor
  · rintro ⟨hlocation, hsome, hmost, hleast, hacquire, hbusy, hbuffer, hattempts, hbackoff⟩
    refine {
      location := hlocation
      connections := ?_
      timeouts := ⟨Nat.pos_of_ne_zero hacquire, Nat.pos_of_ne_zero hbusy⟩
      eventBuffer := Nat.pos_of_ne_zero hbuffer
      attempts := hattempts
      backoff := hbackoff }
    simp only [connected]
    omega
  · intro h
    have hconnections := h.connections
    simp only [connected] at hconnections
    refine ⟨h.location, ?_, hconnections.2.2, ?_, Nat.ne_of_gt h.timeouts.1,
      Nat.ne_of_gt h.timeouts.2, Nat.ne_of_gt h.eventBuffer, h.attempts, h.backoff⟩ <;> omega

namespace SettingsDraft

open Setting (lastOf lastOf_nil lastOf_snoc)

/-! ### What is collected -/

theorem collect_snoc (calls : List Setting) (call : Setting) :
    collect (calls ++ [call]) = (collect calls).set call := by
  simp [collect]

theorem location_collect (calls : List Setting) :
    (collect calls).location = lastOf Setting.location? calls := by
  induction calls using List.reverseRecOn with
  | nil => rfl
  | append_singleton calls call ih =>
      rw [collect_snoc, lastOf_snoc, ← ih]
      cases call <;> rfl

/-- The settings of a draft at the given location, with a default for what was not collected. -/
def settled (d : SettingsDraft) (location : Location) : Settings where
  location
  minConnections := d.minConnections.getD 1
  maxConnections := d.maxConnections.getD 5
  acquireTimeout := d.acquireTimeout.getD (.ofSeconds 30)
  busyTimeout := d.busyTimeout.getD (.ofSeconds 5)
  eventBufferSize := d.eventBufferSize.getD 100
  maintainer := d.maintainer.getD .default

theorem build_eq_ok {d : SettingsDraft} {s : Settings} :
    d.build = .ok s ↔ ∃ l, d.location = some l ∧ s = d.settled l ∧ s.connected.Documented := by
  rw [build]
  cases d.location with
  | none => simp
  | some l =>
      have hbuild : (do (d.settled l).check; return d.settled l) = .ok s ↔
          s = d.settled l ∧ s.connected.Documented := by
        rw [← Settings.check_eq_ok]
        simp only [bind_eq_ok, pure_eq_ok]
        constructor
        · rintro ⟨u, hcheck, rfl⟩
          exact ⟨rfl, hcheck⟩
        · rintro ⟨rfl, hcheck⟩
          exact ⟨(), hcheck, rfl⟩
      simpa [settled] using hbuild

/-- One call says something of one setting, or of a part of it. -/
theorem settled_set (d : SettingsDraft) (call : Setting) (l : Location) :
    (d.set call).settled l = (d.settled l).after call := by
  cases call <;> rfl

/-- **What was collected is what the calls come to.** -/
theorem settled_collect (calls : List Setting) (l : Location) :
    (collect calls).settled l = Settings.chosen calls l := by
  induction calls using List.reverseRecOn with
  | nil => rfl
  | append_singleton calls call ih =>
      rw [collect_snoc, settled_set, ih, Settings.chosen_snoc]

/-! ### What is built -/

/-- **Which settings are built.**  Collected settings are built exactly if a location was given and
they keep to the bounds once a missing connection is put in; and what is built is what the calls
come to.  So the bounds tell what is built, unless no connection is asked for and nothing else is
out of bounds. -/
theorem built_iff (calls : List Setting) :
    (∀ s, (collect calls).build = .ok s ↔
      ∃ l, lastOf Setting.location? calls = some l ∧ s = Settings.chosen calls l ∧
        s.connected.Documented) ∧
    (((∃ s, (collect calls).build = .ok s) ↔
        ∃ l, lastOf Setting.location? calls = some l ∧ (Settings.chosen calls l).Documented) ↔
      ¬ ∃ l, lastOf Setting.location? calls = some l ∧
        (Settings.chosen calls l).minConnections = 0 ∧
        (Settings.chosen calls l).connected.Documented) := by
  have hbuild : ∀ s, (collect calls).build = .ok s ↔
      ∃ l, lastOf Setting.location? calls = some l ∧ s = Settings.chosen calls l ∧
        s.connected.Documented := by
    intro s
    simp only [build_eq_ok, location_collect, settled_collect]
  refine ⟨hbuild, ?_⟩
  simp only [hbuild]
  constructor
  · rintro hbounds ⟨l, hl, hnone, hconnected⟩
    obtain ⟨l', -, hwithin⟩ := hbounds.1 ⟨_, l, hl, rfl, hconnected⟩
    have hfirst := hwithin.connections.1
    -- the connections do not depend on the location
    have hsame : (Settings.chosen calls l').minConnections = 0 := hnone
    omega
  · intro hconnections
    constructor
    · rintro ⟨s, l, hl, rfl, hconnected⟩
      have hsome : 1 ≤ (Settings.chosen calls l).minConnections := by
        by_contra hnone
        exact hconnections ⟨l, hl, by omega, hconnected⟩
      rw [Settings.connected_of_pos hsome] at hconnected
      exact ⟨l, hl, hconnected⟩
    · rintro ⟨l, hl, hwithin⟩
      have hconnected := Settings.connected_of_pos hwithin.connections.1
      exact ⟨_, l, hl, rfl, hconnected.symm ▸ hwithin⟩

/-- Calls of which later ones overwrite earlier ones, in whole or in part. -/
def overwritten : List Setting :=
  [.minConnections 0, .maintainer ⟨false, 3, .ofMillis 5⟩, .location (.file ""),
    .enableMaintainer true, .location .memory, .minConnections 2]

theorem built_iff_overwritten : (collect overwritten).build = .ok
    ⟨.memory, 2, 5, .ofSeconds 30, .ofSeconds 5, 100, ⟨true, 3, .ofMillis 5⟩⟩ := by
  refine ((built_iff overwritten).1 _).2 ⟨.memory, rfl, rfl, ?_⟩
  exact {
    location := by decide
    connections := by decide
    timeouts := by decide
    eventBuffer := by decide
    attempts := by decide
    backoff := by decide }

/-- **Settings without a connection to begin with are built**, though they are out of bounds. -/
theorem built_without_connections :
    ¬ ((∃ s, (collect [.location .memory, .minConnections 0]).build = .ok s) ↔
      ∃ l, lastOf Setting.location? [.location .memory, .minConnections 0] = some l ∧
        (Settings.chosen [.location .memory, .minConnections 0] l).Documented) := by
  intro hbounds
  obtain ⟨l, -, hwithin⟩ := hbounds.1 (exists_eq_ok_of_isOk (by decide))
  exact Nat.not_succ_le_zero 0 hwithin.connections.1

end SettingsDraft

end Anthology
