/-
**Refreshing with repetitions.**

The upkeep refreshes the uncollected collection of an authority, and where a refresh fails for a
reason that may pass it waits and tries again.  It gives up when the reason will not pass, when all
attempts are used up, or when it is cancelled during a wait.  Either way the end is announced by one
event, and giving up is written to the log too.

What the upkeep does is described apart from how it is carried out: a routine says which refresh to
attempt, how long to wait and what to announce, and goes on according to the answers.  The same
routine runs against a store and along a timeline with scripted answers.

Main definitions:

* `Anthology.Routine` — a course of attempts, waits and announcements;
* `Anthology.Maintainer.retry` — one refresh with its repetitions;
* `Anthology.Maintainer.retryAll` — several refreshes one after the other.
-/

import Anthology.Event
import Anthology.Logging
import Anthology.Settings.Maintainer
import Anthology.Uncollected.Refresh

set_option relaxedAutoImplicit false
set_option autoImplicit false

namespace Anthology

/-! ### Routines -/

/-- A course of attempts, waits and announcements that ends in a value. -/
inductive Routine (α : Type) where
  | done (value : α)
  /-- Attempts a refresh of an authority, and goes on according to how it ended. -/
  | attempt (authority : Id) (next : Except Fault RefreshOutcome → Routine α)
  /-- Waits, and goes on according to whether the upkeep was cancelled meanwhile. -/
  | pause (span : Duration) (next : Bool → Routine α)
  /-- Goes on according to whether the upkeep is cancelled. -/
  | unlessCancelled (next : Bool → Routine α)
  | announce (event : Event) (next : Routine α)
  | report (entry : LogEntry) (next : Routine α)

namespace Routine

variable {α β : Type}

/-- One routine after another, which depends on the value of the first. -/
def andThen : Routine α → (α → Routine β) → Routine β
  | done a, k => k a
  | attempt a next, k => attempt a fun answer => (next answer).andThen k
  | pause d next, k => pause d fun cancelled => (next cancelled).andThen k
  | unlessCancelled next, k => unlessCancelled fun cancelled => (next cancelled).andThen k
  | announce e next, k => announce e (next.andThen k)
  | report l next, k => report l (next.andThen k)

@[simp] theorem done_andThen (a : α) (k : α → Routine β) : (done a).andThen k = k a := rfl

/-- Ends a refresh that succeeded. -/
def succeed (o : RefreshOutcome) (a : Id) : Routine (Except Fault RefreshOutcome) :=
  announce (.authority (.refreshed a o.collection o.added o.removed)) (done (.ok o))

/-- Ends a refresh that is given up after so many attempts. -/
def giveUp (a : Id) (attempts : Nat) (f : Fault) : Routine (Except Fault RefreshOutcome) :=
  report (.refreshFailed a attempts f)
    (announce (.authority (.refreshFailed a f.message attempts)) (done (.error f)))

end Routine

namespace Maintainer

open Routine

/-! ### One authority -/

/-- The attempt with the given number, counted from one, and those after it, of which `left` more
are allowed. -/
def retryFrom (m : Maintainer) (a : Id) (number : Nat) :
    Nat → Routine (Except Fault RefreshOutcome)
  | 0 => attempt a fun
    | .ok o => succeed o a
    | .error f => giveUp a number f
  | left + 1 => attempt a fun
    | .ok o => succeed o a
    | .error f =>
      if f.isRetryable then
        pause (m.backoff number) fun cancelled =>
          if cancelled then giveUp a number f else m.retryFrom a (number + 1) left
      else giveUp a number f

/-- One refresh with its repetitions.  There is always a first attempt. -/
def retry (m : Maintainer) (a : Id) : Routine (Except Fault RefreshOutcome) :=
  m.retryFrom a 1 (m.maxAttempts - 1)

/-! ### Several authorities -/

/-- Refreshes the listed authorities one after the other, and stops once cancelled. -/
def retryEach (m : Maintainer) : List Id → Routine (List RefreshOutcome)
  | [] => done []
  | a :: as => unlessCancelled fun cancelled =>
    if cancelled then done []
    else (m.retry a).andThen fun answer => (m.retryEach as).andThen fun outcomes =>
      done (answer.toOption.toList ++ outcomes)

/-- Refreshes each of the authorities once, in the order in which they are first named.  The
outcomes are those of the refreshes that succeeded. -/
def retryAll (m : Maintainer) (authorities : List Id) : Routine (List RefreshOutcome) :=
  m.retryEach authorities.eraseDups

end Maintainer

end Anthology
