/-
**The upkeep along a timeline.**

Several workers share one bus, one cancellation and one script of answers to their refreshes.  Time
stands still while anybody can act and jumps to the earliest wake-up when nobody can.  A worker
listens for changed credits, runs the refresh of the authority with its repetitions, and listens
again; cancellation ends it while it listens, and ends a wait for a repetition.  The caller acts in
between: what it does itself it does at once, and workers act only while it waits.

Workers that can act do so in the order in which they came to be able to.  A publication wakes the
listeners in the order in which they began to listen to the bus, a moment ends the waits in the
order in which they began, and cancellation wakes those that it reaches in the order in which they
began to wait for it.  Waits that end together with a wait of the caller have ended when the caller
goes on, but the caller acts first.

A worker that acts takes a turn.  In one turn it takes in at most so many readings of the bus and
ends of waits.  When its turn is used up it gives way to those who can act.  After so many turns, or
when nobody can act, a round is over, and then those who gave way can act again, the last of them
first.  The caller has turns too, each from one of its waits to the next, and goes on from a wait
between two rounds.

Main definitions:

* `Anthology.ScriptedRefresh` — an answer of the script and how long it takes;
* `Anthology.Timeline` — the time, the bus, the workers and what they did;
* `Anthology.Timeline.follow` — a routine up to its next wait or to the end of the turn;
* `Anthology.Timeline.settle` — one round;
* `Anthology.Timeline.waitUntil`, `Anthology.Timeline.waitFor` — the caller waits for a moment or
  for the end of a worker;
* `Anthology.Timeline.run` — the caller runs a routine itself;
* `Anthology.Timeline.spawn`, `Anthology.Timeline.shutdown` — starts and ends a worker.
-/

import Anthology.Bus
import Anthology.Upkeep.Routine

set_option relaxedAutoImplicit false
set_option autoImplicit false

namespace Anthology

/-! ### The parts -/

/-- An answer of the script, and how many milliseconds the refresh takes. -/
structure ScriptedRefresh where
  takes : Nat
  answer : Except Fault RefreshOutcome

/-- A routine that waits. -/
structure Wait (α : Type) where
  /-- When it goes on. -/
  wake : Nat
  /-- Cancellation ends the wait. -/
  cancellable : Bool
  /-- How it goes on, by whether it was cancelled. -/
  next : Bool → Routine α

/-- What is left to do at the beginning of a turn. -/
inductive Course (α : Type) where
  | routine (r : Routine α)
  /-- A wait that has not begun. -/
  | wait (w : Wait α)

/-- Where a routine stops. -/
inductive Stop (α : Type) where
  | ended (value : α)
  | waits (wait : Wait α)
  /-- The turn is used up. -/
  | givesWay (rest : Course α)

/-- What a worker is doing. -/
inductive WorkerState where
  /-- Listens to the bus, and waits for the cancellation since the ticket was given out, if it does
  yet. -/
  | listening (ticket : Option Nat)
  /-- Waits since the ticket was given out. -/
  | waiting (ticket : Nat) (wait : Wait Unit)
  /-- Can go on, with so much of its turn left. -/
  | resumed (left : Nat) (course : Course Unit)
  | finished

structure Worker where
  stream : EventStream
  state : WorkerState

structure Timeline where
  maintainer : Maintainer
  /-- The answers that are left for each authority. -/
  script : List (Id × List ScriptedRefresh)
  /-- Milliseconds since the start. -/
  now : Nat
  bus : Bus
  cancelled : Bool
  workers : List Worker
  /-- The workers that can act, the first of them first. -/
  ready : List Nat
  /-- The workers that gave way, the last of them first. -/
  aside : List Nat
  /-- The workers that wait for a publication, the first of them first. -/
  listeners : List Nat
  /-- How many tickets were given out.  Who has the lower ticket began to wait earlier. -/
  tickets : Nat
  /-- The worker that a shutdown would end. -/
  handle : Option Nat
  /-- How much of the caller's turn is left. -/
  left : Nat
  /-- The refreshes so far, with the moments at which they began, the latest first. -/
  calls : List (Nat × Id)
  /-- The entries of the log, the latest first. -/
  logs : List LogEntry

namespace Timeline

variable {α : Type}

/-- How many readings and ends of waits make a turn. -/
def turn : Nat := 128

/-- How many turns of workers make a round. -/
def round : Nat := 61

/-- The start, without workers. -/
def start (maintainer : Maintainer) (capacity : Nat) (script : List (Id × List ScriptedRefresh)) :
    Timeline where
  maintainer
  script
  now := 0
  bus := .create capacity
  cancelled := false
  workers := []
  ready := []
  aside := []
  listeners := []
  tickets := 0
  handle := none
  left := turn
  calls := []
  logs := []

/-- Publishes an event, which wakes the listeners. -/
def publish (t : Timeline) (e : Event) : Timeline :=
  match t.bus.publish? e with
  | none => t
  | some bus => { t with bus, ready := t.ready ++ t.listeners, listeners := [] }

/-- Takes the next answer for an authority; the last one is given again and again.  An authority
that the script does not know does not exist. -/
def nextAnswer (t : Timeline) (a : Id) : ScriptedRefresh × Timeline :=
  let unknown : ScriptedRefresh := ⟨0, .error (.notFound "Authority" a)⟩
  match t.script.lookup a with
  | none | some [] => (unknown, t)
  | some [last] => (last, t)
  | some (first :: rest) =>
    (first, { t with
      script := t.script.map fun entry => if entry.1 == a then (a, rest) else entry })

/-- The moment after so many milliseconds, of which a wait has thirty years at most. -/
def after (t : Timeline) (millis : Nat) : Nat := t.now + min millis Duration.thirtyYears

/-! ### Routines -/

/-- Follows a routine to its end, to its next wait or to the end of the turn, of which `left` is
left.  A wait of no time uses up as much of the turn as one that has ended, and a wait does not
begin when nothing is left. -/
def follow (t : Timeline) (left : Nat) : Routine α → Stop α × Nat × Timeline
  | .done a => (.ended a, left, t)
  | .attempt a next =>
    let (refresh, t) := t.nextAnswer a
    let t := { t with calls := (t.now, a) :: t.calls }
    if refresh.takes = 0 then t.follow left (next refresh.answer)
    else
      let wait : Wait α := ⟨t.after refresh.takes, false, fun _ => next refresh.answer⟩
      if left = 0 then (.givesWay (.wait wait), 0, t) else (.waits wait, left, t)
  | .pause span next =>
    if left = 0 then (.givesWay (.routine (.pause span next)), 0, t)
    else if t.cancelled then t.follow left (next true)
    else if span.waitMillis = 0 then t.follow (left - 1) (next false)
    else (.waits ⟨t.now + span.waitMillis, true, next⟩, left, t)
  | .unlessCancelled next => t.follow left (next t.cancelled)
  | .announce e next => (t.publish e).follow left next
  | .report entry next => { t with logs := entry :: t.logs }.follow left next

/-! ### Workers -/

def setWorker (t : Timeline) (i : Nat) (w : Worker) : Timeline :=
  { t with workers := t.workers.set i w }

/-- A worker begins to wait. -/
def beginWait (t : Timeline) (i : Nat) (w : Worker) (wait : Wait Unit) : Timeline :=
  { t.setWorker i { w with state := .waiting t.tickets wait } with tickets := t.tickets + 1 }

/-- A worker gives way. -/
def giveWay (t : Timeline) (i : Nat) (w : Worker) : Timeline :=
  { t.setWorker i w with aside := i :: t.aside }

/-- A worker ends, and its stream with it. -/
def finish (t : Timeline) (i : Nat) (w : Worker) : Timeline :=
  { t.setWorker i { w with state := .finished } with bus := t.bus.unsubscribe }

/-- A worker goes on with what is left to do.  If it comes to listen again, the answer is how much
of its turn is left then. -/
def proceed (t : Timeline) (i : Nat) (w : Worker) (left : Nat) :
    Course Unit → Option Nat × Timeline
  | .wait wait => (none, t.beginWait i w wait)
  | .routine r =>
    match t.follow left r with
    | (.ended _, left, t) => (some left, t.setWorker i { w with state := .listening none })
    | (.waits wait, _, t) => (none, t.beginWait i w wait)
    | (.givesWay rest, _, t) => (none, t.giveWay i { w with state := .resumed turn rest })

/-- A worker begins to wait for a publication, and for the cancellation if it does not yet. -/
def beginListening (t : Timeline) (i : Nat) (w : Worker) (ticket : Option Nat) : Timeline :=
  { t.setWorker i { w with state := .listening (some (ticket.getD t.tickets)) } with
    tickets := t.tickets + 1
    listeners := if t.listeners.contains i then t.listeners else t.listeners ++ [i] }

/-- The refresh that a changed credit asks for; how it ends has been announced. -/
def response (m : Maintainer) (a : Id) : Routine Unit := (m.retry a).andThen fun _ => .done ()

/-- A worker that listens, with `left` of its turn left, reads the bus and answers what it hears.
Each reading but the last uses up some of the turn, which bounds their number. -/
def listenWithin : Nat → Timeline → Nat → Nat → Timeline
  | 0, t, _, _ => t
  | fuel + 1, t, i, left =>
    match t.workers[i]? with
    | none => t
    | some w =>
      match w.state with
      | .finished | .waiting .. | .resumed .. => t
      | .listening ticket =>
        if t.cancelled then t.finish i w
        else if left = 0 then t.giveWay i w
        else
          let (answer, position) := t.bus.next w.stream.position
          let w := { w with stream := { w.stream with position } }
          match answer with
          | .pending => t.beginListening i w ticket
          | .closed => t.finish i w
          | .lagged n =>
            let t := { t.setWorker i { w with state := .listening none } with
              logs := .lagged n :: t.logs }
            listenWithin fuel t i (left - 1)
          | .event e =>
            if !w.stream.accepts e then listenWithin fuel (t.setWorker i w) i (left - 1)
            else
              match e.involvement? with
              | none =>
                listenWithin fuel (t.setWorker i { w with state := .listening none }) i (left - 1)
              | some a =>
                match t.proceed i w (left - 1) (.routine (response t.maintainer a)) with
                | (some left, t) => listenWithin fuel t i left
                | (none, t) => t

/-- A worker that listens takes the rest of its turn. -/
def listen (t : Timeline) (i left : Nat) : Timeline := listenWithin (turn + 1) t i left

/-- The worker with the given number takes a turn. -/
def act (t : Timeline) (i : Nat) : Timeline :=
  match t.workers[i]? with
  | none => t
  | some w =>
    match w.state with
    | .finished | .waiting .. => t
    | .listening _ => t.listen i turn
    | .resumed left course =>
      match t.proceed i w left course with
      | (some left, t) => t.listen i left
      | (none, t) => t

/-- Those who gave way can act again, the last of them first. -/
def callBack (t : Timeline) : Timeline :=
  { t with ready := t.ready ++ t.aside.filter fun i => !t.ready.contains i, aside := [] }

/-- The moments and tickets of the waits, with the numbers of their workers. -/
def wakeUps (t : Timeline) : List (Nat × Nat × Nat) :=
  t.workers.zipIdx.filterMap fun (w, i) =>
    match w.state with
    | .waiting ticket wait => some (wait.wake, ticket, i)
    | _ => none

/-- The earliest moment at which a wait ends. -/
def nextWake? (t : Timeline) : Option Nat :=
  t.wakeUps.foldl (fun m u => some (match m with
    | none => u.1
    | some n => min n u.1)) none

/-- Ends a wait of a worker, which can act then.  A wait that has run its time uses up some of the
turn, and one that was cancelled does not. -/
def resume (t : Timeline) (cancelled : Bool) (i : Nat) : Timeline :=
  match t.workers[i]? with
  | some w =>
    match w.state with
    | .waiting _ wait =>
      let left := if cancelled then turn else turn - 1
      { t.setWorker i { w with state := .resumed left (.routine (wait.next cancelled)) } with
        ready := t.ready ++ [i] }
    | _ => t
  | none => t

/-- Pairs of a ticket and a number, by ticket. -/
def byTicket (xs : List (Nat × Nat)) : List (Nat × Nat) :=
  xs.mergeSort fun x y => decide (x.1 ≤ y.1)

/-- Time jumps to a moment, and the waits that end there end in the order of their tickets. -/
def jump (t : Timeline) (moment : Nat) : Timeline :=
  let due := byTicket ((t.wakeUps.filter fun u => u.1 == moment).map Prod.snd)
  due.foldl (fun t u => t.resume false u.2) { t with now := moment }

/-- How many rounds one wait of the caller may take: each worker answers each event by at most all
attempts with two waits each, may be woken by each publication, and gives way no more often than it
acts. -/
def patience (t : Timeline) : Nat :=
  2 * (t.workers.length + 1) * (t.bus.published + 2) *
    (4 * t.maintainer.maxAttempts + t.workers.length + 8)

/-! ### The caller waits -/

/-- At most so many turns, after which those who gave way are called back. -/
def settleWithin : Nat → Timeline → Timeline
  | 0, t => t.callBack
  | turns + 1, t =>
    match t.ready with
    | i :: ready => settleWithin turns ({ t with ready }.act i)
    | [] => t.callBack

/-- One round.  When nobody can act after it, nobody can act before time goes on. -/
def settle (t : Timeline) : Timeline := settleWithin round t

/-- The caller gives way if nothing of its turn is left. -/
def yield (t : Timeline) : Timeline :=
  if t.left = 0 then { t.settle with left := turn } else t

/-- Something that the caller waited for has ended, which uses up some of its turn. -/
def spend (t : Timeline) (left : Nat) : Timeline := { t with left := left - 1 }

/-- Rounds, and jumps of time, until the given moment. -/
def waitUntilWithin : Nat → Timeline → Nat → Timeline
  | 0, t, moment => { t with now := moment }
  | fuel + 1, t, moment =>
    let t := t.settle
    if !t.ready.isEmpty then waitUntilWithin fuel t moment
    else
      match t.nextWake? with
      | some wake =>
        if wake < moment then waitUntilWithin fuel (t.jump wake) moment else t.jump moment
      | none => t.jump moment

/-- The caller waits until the given moment, if it is still to come. -/
def waitUntil (t : Timeline) (moment : Nat) : Timeline :=
  if moment ≤ t.now then t.spend t.left
  else (waitUntilWithin t.patience t moment).spend turn

/-- The caller waits for so many milliseconds. -/
def sleep (t : Timeline) (millis : Nat) : Timeline :=
  let moment := t.after millis
  t.yield.waitUntil moment

def isFinished (t : Timeline) (i : Nat) : Bool :=
  match t.workers[i]? with
  | some w =>
    match w.state with
    | .finished => true
    | _ => false
  | none => true

/-- Rounds, and jumps of time, until the given worker has ended. -/
def waitForWithin : Nat → Timeline → Nat → Timeline
  | 0, t, _ => t
  | fuel + 1, t, i =>
    let t := t.settle
    if t.isFinished i then t
    else if !t.ready.isEmpty then waitForWithin fuel t i
    else
      match t.nextWake? with
      | some wake => waitForWithin fuel (t.jump wake) i
      | none => t

/-- The caller waits for the end of a worker. -/
def waitFor (t : Timeline) (i : Nat) : Timeline :=
  let t := t.yield
  if t.isFinished i then t.spend t.left else (waitForWithin t.patience t i).spend turn

/-! ### The caller acts -/

/-- The caller follows a routine itself, through at most so many waits. -/
def runWithin : Nat → Timeline → Routine α → Option α × Timeline
  | 0, t, _ => (none, t)
  | fuel + 1, t, r =>
    match t.follow t.left r with
    | (.ended a, left, t) => (some a, { t with left })
    | (.waits wait, _, t) => runWithin fuel (t.waitUntil wait.wake) (wait.next false)
    | (.givesWay (.routine r), left, t) => runWithin fuel { t with left }.yield r
    | (.givesWay (.wait wait), left, t) =>
      runWithin fuel ({ t with left }.yield.waitUntil wait.wake) (wait.next false)

/-- The caller runs a routine that attempts at most so many refreshes. -/
def run (t : Timeline) (attempts : Nat) (r : Routine α) : Option α × Timeline :=
  runWithin (3 * attempts + 4) t r

/-- The caller refreshes one authority. -/
def refresh (t : Timeline) (a : Id) : Option (Except Fault RefreshOutcome) × Timeline :=
  t.run (t.maintainer.maxAttempts + 1) (t.maintainer.retry a)

/-- The caller refreshes several authorities. -/
def refreshAll (t : Timeline) (authorities : List Id) : Option (List RefreshOutcome) × Timeline :=
  t.run ((t.maintainer.maxAttempts + 1) * (authorities.length + 1))
    (t.maintainer.retryAll authorities)

/-- Announces that the credits of the authorities changed. -/
def involve (t : Timeline) (authorities : List Id) : Timeline :=
  authorities.foldl (fun t a => t.publish (.authority (.involvementChanged a))) t

/-- Starts a worker.  It listens from now on, and acts when the caller waits. -/
def spawn (t : Timeline) : Timeline :=
  let (stream, bus) := t.bus.subscribe (some fun e => e.involvement?.isSome)
  let i := t.workers.length
  { t with
    bus
    workers := t.workers ++ [⟨stream, .listening none⟩]
    ready := t.ready ++ [i]
    handle := some i }

/-- The tickets of those whom cancellation reaches, with their numbers. -/
def reached (t : Timeline) : List (Nat × Nat) :=
  t.workers.zipIdx.filterMap fun (w, i) =>
    match w.state with
    | .listening (some ticket) => some (ticket, i)
    | .waiting ticket wait => if wait.cancellable then some (ticket, i) else none
    | _ => none

/-- A worker that cancellation reaches can act. -/
def reach (t : Timeline) (i : Nat) : Timeline :=
  match t.workers[i]? with
  | some w =>
    match w.state with
    | .waiting .. => t.resume true i
    | _ => if t.ready.contains i then t else { t with ready := t.ready ++ [i] }
  | none => t

/-- Cancels the upkeep, which wakes those who listen and ends the waits for a repetition. -/
def cancel (t : Timeline) : Timeline :=
  (byTicket t.reached).foldl (fun t u => t.reach u.2) { t with cancelled := true, listeners := [] }

/-- Ends the worker that was started last, and tells whether there was one. -/
def shutdown (t : Timeline) : Bool × Timeline :=
  match t.handle with
  | none => (false, t)
  | some i => (true, ({ t with handle := none }.cancel).waitFor i)

/-- Whether the worker that was started last has ended, if there is one. -/
def finished? (t : Timeline) : Option Bool := t.handle.map t.isFinished

end Timeline

end Anthology
