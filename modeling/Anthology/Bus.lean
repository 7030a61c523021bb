/-
**The event bus.**

Events are published on a bus and read from streams.  A stream sees every event that is published
after it was opened, in order.  The bus keeps as many of the last events as its capacity, rounded
up to a power of two; a stream that has fallen further behind is told once how many events it has
lost and goes on with the oldest that is kept.  A stream may have a filter, and then reading passes
over the events that the filter rejects; that events were lost it is told all the same.

Publishing without any stream fails and leaves no event behind.  Once nobody can publish any more,
a stream still reads what is left for it, and then it is closed.

Main definitions:

* `Anthology.Bus` and `Anthology.EventStream` — the published events, and a place in them;
* `Anthology.Bus.publish`, `Anthology.Bus.subscribe` — publishing, and opening a stream;
* `Anthology.Bus.next`, `Anthology.Bus.receive` — one step of reading, and reading up to an
  event that passes the filter.
-/

import Anthology.Event

set_option relaxedAutoImplicit false
set_option autoImplicit false

namespace Anthology

/-! ### The bus -/

/-- The least power of two that is at least `n`, found by doubling `p`; `fuel` bounds how often. -/
def doubleUpTo (n : Nat) : Nat → Nat → Nat
  | 0, p => p
  | fuel + 1, p => if n ≤ p then p else doubleUpTo n fuel (2 * p)

/-- The least power of two that is at least `n`. -/
def nextPowerOfTwo (n : Nat) : Nat := doubleUpTo n n 1

/-- The events published so far and who takes part. -/
structure Bus where
  /-- How many of the last events are kept for streams that are behind. -/
  kept : Nat
  /-- The published events, the latest first. -/
  latest : List Event
  /-- How many events were published. -/
  published : Nat
  /-- How many streams are open. -/
  streams : Nat
  /-- How many hold the bus and can publish. -/
  publishers : Nat

namespace Bus

/-- How many events are kept where nothing is said. -/
def defaultCapacity : Nat := 100

/-- A new bus with one publisher and no stream. -/
def create (capacity : Nat) : Bus where
  kept := nextPowerOfTwo capacity
  latest := []
  published := 0
  streams := 0
  publishers := 1

/-- Publishes an event to every open stream, if there is one. -/
def publish? (b : Bus) (e : Event) : Option Bus :=
  if b.streams = 0 then none
  else some { b with latest := e :: b.latest, published := b.published + 1 }

/-- Publishes an event; that nobody reads it is fine. -/
def publish (b : Bus) (e : Event) : Bus := (b.publish? e).getD b

/-- The event with the given number, counted from zero, if it was published. -/
def event? (b : Bus) (n : Nat) : Option Event :=
  if n < b.published then b.latest[b.published - 1 - n]? else none

end Bus

/-! ### Streams -/

/-- A place in the published events, and which of them are wanted. -/
structure EventStream where
  /-- The number of the next event to be read. -/
  position : Nat
  /-- The test that wanted events pass; without one all are wanted. -/
  wanted? : Option (Event → Bool)

/-- What reading brings. -/
inductive Received where
  | event (e : Event)
  /-- So many events were lost. -/
  | lagged (n : Nat)
  /-- Nothing is left, and nothing can come. -/
  | closed
  /-- Nothing is left for now. -/
  | pending
deriving DecidableEq, Repr

namespace EventStream

def accepts (s : EventStream) (e : Event) : Bool := s.wanted?.all fun wanted => wanted e

def isFiltered (s : EventStream) : Bool := s.wanted?.isSome

end EventStream

namespace Bus

/-- Opens a stream of all events from now on. -/
def subscribe (b : Bus) (wanted? : Option (Event → Bool)) : EventStream × Bus :=
  (⟨b.published, wanted?⟩, { b with streams := b.streams + 1 })

/-- Closes a stream. -/
def unsubscribe (b : Bus) : Bus := { b with streams := b.streams - 1 }

/-- Reads one step, whatever the filter says: the next event, or how many were lost. -/
def next (b : Bus) (position : Nat) : Received × Nat :=
  if b.kept < b.published - position then
    let oldest := b.published - b.kept
    (.lagged (oldest - position), oldest)
  else
    match b.event? position with
    | some e => (.event e, position + 1)
    | none => (if b.publishers = 0 then .closed else .pending, position)

/-- Reads up to the first wanted event.  Each step but the last passes over an event, so there are
at most as many as there are events ahead, and one. -/
def receiveWithin (b : Bus) (accepts : Event → Bool) : Nat → Nat → Received × Nat
  | 0, position => (.pending, position)
  | fuel + 1, position =>
    match b.next position with
    | (.event e, position') =>
      if accepts e then (.event e, position') else b.receiveWithin accepts fuel position'
    | answer => answer

/-- Reads the next wanted event from a stream. -/
def receive (b : Bus) (s : EventStream) : Received × EventStream :=
  let (answer, position) := b.receiveWithin s.accepts (b.published - s.position + 1) s.position
  (answer, { s with position })

/-- Reads a stream until nothing more is left for it, within the given number of steps. -/
def drainWithin (b : Bus) : Nat → EventStream → List Received × EventStream
  | 0, s => ([], s)
  | fuel + 1, s =>
    match b.receive s with
    | (.pending, s) => ([], s)
    | (.closed, s) => ([], s)
    | (answer, s) =>
      let (answers, s) := b.drainWithin fuel s
      (answer :: answers, s)

/-- Reads a stream until nothing more is left for it.  It may be told once of lost events. -/
def drain (b : Bus) (s : EventStream) : List Received × EventStream :=
  b.drainWithin (b.published - s.position + 2) s

end Bus

end Anthology
