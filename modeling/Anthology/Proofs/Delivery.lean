/-
**What a filtered stream delivers.**

A reader asks for the next wanted event while others publish.  A call does not look at the bus once:
it looks again after each event that the filter rejects, and anything may be published between two
looks.  So the runs considered here are made of single looks, and a call is what goes on from its
beginning to the look that answers it.  What was returned, followed by what is wanted of the events
that are still unread, is at all times what is wanted of the published events: a look that returns
an event moves it from the second part to the first, and a look that passes one over drops what
belongs to neither.

A whole call, with nothing published in between, is `Anthology.Bus.receive`.

Main definitions:

* `Anthology.Reader` — a bus, a stream and the call under way;
* `Anthology.Move`, `Anthology.Reader.answers` — publications, calls and looks in any order, and
  what the calls answer;
* `Anthology.Reader.KeepsUp` — no more is unread at any time than the capacity;
* `Anthology.Reader.Delivered` — what the reader got so far, and what it gets next.

Main results:

* `Anthology.le_nextPowerOfTwo` — a bus keeps as much as its capacity;
* `Anthology.Reader.Subscribed.answer?_eq` — what one look answers;
* `Anthology.Reader.Subscribed.run_looks` — looks one after another are one whole call;
* `Anthology.Reader.delivered` — **the wanted events are delivered**, in order, each once.
-/

import Anthology.Proofs.Streams
import Mathlib.Data.List.Basic

set_option relaxedAutoImplicit false
set_option autoImplicit false

namespace Anthology

/-! ### How much a bus keeps -/

theorem lt_count_self (n : ℕ) : n < Word.count n := by
  induction n with
  | zero => decide
  | succ n ih =>
      rw [Word.count_succ]
      omega

theorem le_doubleUpTo {n fuel p : ℕ} (h : n ≤ p * Word.count fuel) : n ≤ doubleUpTo n fuel p := by
  induction fuel generalizing p with
  | zero => simpa [doubleUpTo] using h
  | succ fuel ih =>
      rw [doubleUpTo]
      by_cases hp : n ≤ p
      · rw [if_pos hp]
        exact hp
      · rw [if_neg hp]
        refine ih ?_
        rw [Word.count_succ, ← Nat.mul_assoc, Nat.mul_comm p 2] at h
        exact h

theorem le_nextPowerOfTwo (n : ℕ) : n ≤ nextPowerOfTwo n := by
  refine le_doubleUpTo ?_
  have hn := lt_count_self n
  omega

/-! ### A reader among publishers -/

/-- The event that reading brought. -/
def Received.event? : Received → Option Event
  | event e => some e
  | _ => none

/-- How a reader asks for the next event. -/
inductive Asking where
  /-- It waits until there is one. -/
  | waiting
  /-- It is told if there is none. -/
  | atOnce
deriving DecidableEq

/-- What the reader is told: one that waits is not told that there is no event. -/
def Asking.answered : Asking → Received → List Received
  | waiting, .pending => []
  | _, answer => [answer]

/-- A reader of a bus. -/
structure Reader where
  bus : Bus
  stream : EventStream
  /-- The call under way. -/
  call? : Option Asking

/-- What happens next on a bus with a reader. -/
inductive Move where
  /-- Whoever holds the bus publishes. -/
  | publish (e : Event)
  /-- The reader begins a call, if none is under way. -/
  | call (asking : Asking)
  /-- The call under way looks at the bus once. -/
  | look
  /-- The reader gives up the call under way. -/
  | abandon
deriving DecidableEq

/-- The event that is published. -/
def Move.event? : Move → Option Event
  | publish e => some e
  | _ => none

namespace Reader

variable {r : Reader} {ms : List Move} {capacity : ℕ} {wanted? : Option (Event → Bool)}

/-- A new bus with a stream that was opened before anything was published. -/
def start (capacity : ℕ) (wanted? : Option (Event → Bool)) : Reader where
  bus := ((Bus.create capacity).subscribe wanted?).2
  stream := ((Bus.create capacity).subscribe wanted?).1
  call? := none

/-- The events that the reader has not read, in order. -/
def unread (r : Reader) : List Event := r.bus.unread r.stream.position

/-- How the call under way is answered if it looks at the bus now; without an answer it goes on. -/
def answer? (r : Reader) : Option Received :=
  match r.call?, (r.bus.next r.stream.position).1 with
  | none, _ => none
  | some _, .event e => if r.stream.accepts e then some (.event e) else none
  | some .waiting, .pending => none
  | some _, answer => some answer

/-- The reader after the call under way looked at the bus. -/
def look (r : Reader) : Reader :=
  match r.call? with
  | none => r
  | some asking =>
    { r with
      stream := { r.stream with position := (r.bus.next r.stream.position).2 }
      call? := if r.answer?.isSome then none else some asking }

def follow (r : Reader) : Move → Reader
  | .publish e => { r with bus := r.bus.publish e }
  | .call asking => { r with call? := some (r.call?.getD asking) }
  | .look => r.look
  | .abandon => { r with call? := none }

/-- What a move lets the call under way answer. -/
def answerTo (r : Reader) : Move → Option Received
  | .look => r.answer?
  | _ => none

/-- The reader after all moves. -/
def after (r : Reader) (ms : List Move) : Reader := ms.foldl follow r

/-- The answers of all calls, in order. -/
def answers (r : Reader) : List Move → List Received
  | [] => []
  | m :: ms => (r.answerTo m).toList ++ (r.follow m).answers ms

/-- At no time more events are unread than the capacity. -/
def KeepsUp (capacity : ℕ) (r : Reader) : List Move → Prop
  | [] => r.unread.length ≤ capacity
  | m :: ms => r.unread.length ≤ capacity ∧ (r.follow m).KeepsUp capacity ms

instance decidableKeepsUp (capacity : ℕ) :
    (r : Reader) → (ms : List Move) → Decidable (r.KeepsUp capacity ms)
  | r, [] => inferInstanceAs (Decidable (r.unread.length ≤ capacity))
  | r, m :: ms =>
    have := decidableKeepsUp capacity (r.follow m) ms
    inferInstanceAs (Decidable (r.unread.length ≤ capacity ∧ (r.follow m).KeepsUp capacity ms))

theorem KeepsUp.of_prefix {before : List Move} (h : r.KeepsUp capacity ms)
    (hbefore : before <+: ms) : r.KeepsUp capacity before := by
  induction before generalizing r ms with
  | nil =>
      cases ms with
      | nil => exact h
      | cons m ms => exact h.1
  | cons m before ih =>
      obtain ⟨rest, rfl⟩ := hbefore
      exact ⟨h.1, ih h.2 (List.prefix_append before rest)⟩

theorem after_cons (r : Reader) (m : Move) (ms : List Move) :
    r.after (m :: ms) = (r.follow m).after ms := rfl

theorem answers_cons (r : Reader) (m : Move) (ms : List Move) :
    r.answers (m :: ms) = (r.answerTo m).toList ++ (r.follow m).answers ms := rfl

/-- The reader has its place on a bus on which others publish, and the bus keeps all it has not
read. -/
structure Subscribed (r : Reader) : Prop where
  isOpen : r.bus.Open
  streams : r.bus.streams ≠ 0
  position : r.stream.position ≤ r.bus.published
  kept : r.unread.length ≤ r.bus.kept

/-! ### One look -/

/-- Where the reader stands after one step of reading, and what it found. -/
theorem Subscribed.next_eq (h : r.Subscribed) : r.bus.next r.stream.position =
    match r.unread with
    | [] => (.pending, r.stream.position)
    | e :: _ => (.event e, r.stream.position + 1) := by
  have hkept := h.kept
  cases hunread : r.unread with
  | nil => exact h.isOpen.next_pending hunread
  | cons e rest =>
      rw [hunread] at hkept
      exact h.isOpen.next_event hunread hkept

/-- **What one look answers**: a wanted event, or to a call at once that there is none.  After an
event that is not wanted the call goes on, and so does a call that waits. -/
theorem Subscribed.answer?_eq (h : r.Subscribed) {asking : Asking} (hcall : r.call? = some asking) :
    r.answer? =
      match r.unread with
      | e :: _ => if r.stream.accepts e then some (.event e) else none
      | [] => if asking = .atOnce then some .pending else none := by
  rw [answer?, h.next_eq, hcall]
  cases r.unread with
  | nil => cases asking <;> rfl
  | cons e rest => cases asking <;> rfl

theorem look_idle (hcall : r.call? = none) : r.look = r := by
  rw [look, hcall]

theorem Subscribed.look_eq (h : r.Subscribed) {asking : Asking} (hcall : r.call? = some asking) :
    r.look =
      ⟨r.bus, ⟨r.stream.position + (r.unread.take 1).length, r.stream.wanted?⟩,
        if r.answer?.isSome then none else some asking⟩ := by
  rw [look, hcall, h.next_eq]
  cases r.unread <;> rfl

/-- A look takes the next event, if there is one. -/
theorem Subscribed.unread_look (h : r.Subscribed) {asking : Asking}
    (hcall : r.call? = some asking) : r.look.unread = r.unread.drop 1 := by
  have hsplit : r.bus.unread r.stream.position = r.unread.take 1 ++ r.unread.drop 1 :=
    (List.take_append_drop 1 r.unread).symm
  rw [h.look_eq hcall, unread]
  exact Bus.unread_append hsplit

/-! ### One move -/

theorem accepts_follow (r : Reader) (m : Move) :
    (r.follow m).stream.accepts = r.stream.accepts := by
  cases m with
  | publish e => rfl
  | call asking => rfl
  | look =>
      rw [follow, look]
      cases r.call? <;> rfl
  | abandon => rfl

/-- The reader stays subscribed as long as it keeps up. -/
theorem Subscribed.of_follow (h : r.Subscribed) (m : Move)
    (hkept : (r.follow m).unread.length ≤ r.bus.kept) : (r.follow m).Subscribed := by
  cases m with
  | publish e =>
      have hpublish : r.bus.publish e =
          { r.bus with latest := e :: r.bus.latest, published := r.bus.published + 1 } := by
        rw [Bus.publish, Bus.publish?, if_neg h.streams]
        rfl
      have hposition := h.position
      have hpublished := h.isOpen.published
      rw [follow, hpublish] at hkept ⊢
      exact {
        isOpen := ⟨by simp [hpublished], h.isOpen.publishers⟩
        streams := h.streams
        position := by simp; omega
        kept := hkept }
  | call asking => exact ⟨h.isOpen, h.streams, h.position, hkept⟩
  | look =>
      cases hcall : r.call? with
      | none => rwa [follow, look_idle hcall]
      | some asking =>
          have hlength := h.isOpen.length_unread r.stream.position
          have hposition := h.position
          rw [follow, h.look_eq hcall] at hkept ⊢
          exact {
            isOpen := h.isOpen
            streams := h.streams
            position := by simp [unread]; omega
            kept := hkept }
  | abandon => exact ⟨h.isOpen, h.streams, h.position, hkept⟩

theorem kept_follow (r : Reader) (m : Move) : (r.follow m).bus.kept = r.bus.kept := by
  cases m with
  | publish e =>
      rw [follow, Bus.publish, Bus.publish?]
      split_ifs <;> rfl
  | call asking => rfl
  | look =>
      rw [follow, look]
      cases r.call? <;> rfl
  | abandon => rfl

/-- **A look moves an event from the unread to the returned** or drops one that is not wanted, and a
publication adds one to the unread. -/
theorem Subscribed.delivers (h : r.Subscribed) (m : Move) :
    (r.answerTo m).toList.filterMap Received.event? ++
        (r.follow m).unread.filter r.stream.accepts =
      r.unread.filter r.stream.accepts ++ m.event?.toList.filter r.stream.accepts := by
  cases m with
  | publish e =>
      have hposition : r.stream.position ≤ r.bus.latest.length := by
        rw [← h.isOpen.published]
        exact h.position
      have hlatest : (r.bus.publish e).latest = e :: r.bus.latest := by
        rw [Bus.publish, Bus.publish?, if_neg h.streams]
        rfl
      have hunread : (r.follow (.publish e)).unread = r.unread ++ [e] :=
        Bus.unread_of_latest hlatest hposition
      rw [hunread, List.filter_append]
      rfl
  | call asking => exact (List.append_nil _).symm
  | look =>
      cases hcall : r.call? with
      | none =>
          rw [answerTo, follow, look_idle hcall, answer?, hcall]
          exact (List.append_nil _).symm
      | some asking =>
          rw [answerTo, follow, h.unread_look hcall, h.answer?_eq hcall]
          cases r.unread with
          | nil => cases asking <;> rfl
          | cons e rest =>
              cases he : r.stream.accepts e <;> simp [he, Received.event?, Move.event?]
  | abandon => exact (List.append_nil _).symm

/-- A call is answered by a wanted event, or a call at once by that there is none. -/
theorem Subscribed.answerTo_cases (h : r.Subscribed) {m : Move} {answer : Received}
    (hanswer : r.answerTo m = some answer) :
    (∃ e, answer = .event e ∧ r.stream.accepts e = true) ∨ answer = .pending := by
  cases m with
  | look =>
      rw [answerTo] at hanswer
      cases hcall : r.call? with
      | none => simp [answer?, hcall] at hanswer
      | some asking =>
          rw [h.answer?_eq hcall] at hanswer
          cases hunread : r.unread with
          | nil =>
              rw [hunread] at hanswer
              cases asking <;> simp_all
          | cons e rest =>
              cases he : r.stream.accepts e <;> simp [hunread, he] at hanswer
              exact .inl ⟨e, hanswer.symm, he⟩
  | publish e => simp [answerTo] at hanswer
  | call asking => simp [answerTo] at hanswer
  | abandon => simp [answerTo] at hanswer

/-! ### Whole calls -/

/-- Without a call under way, looks do nothing. -/
theorem looks_idle (hcall : r.call? = none) (n : ℕ) :
    r.answers (List.replicate n .look) = [] ∧ r.after (List.replicate n .look) = r := by
  induction n with
  | zero => exact ⟨rfl, rfl⟩
  | succ n ih =>
      have hanswer : r.answerTo .look = none := by
        rw [answerTo, answer?, hcall]
      rw [List.replicate_succ, answers_cons, after_cons, hanswer, follow, look_idle hcall]
      exact ih

/-- The look that answers a call is its last. -/
theorem looks_answered {answer : Received} (hanswer : r.answer? = some answer) (n : ℕ) :
    r.answers (List.replicate (n + 1) .look) = [answer] ∧
    r.after (List.replicate (n + 1) .look) = r.look := by
  have hover : r.look.call? = none := by
    rw [look]
    cases hcall : r.call? with
    | none => exact hcall
    | some asking => simp [hanswer]
  obtain ⟨hanswers, hafter⟩ := looks_idle hover n
  rw [List.replicate_succ, answers_cons, after_cons, answerTo, hanswer, follow, hanswers, hafter]
  exact ⟨rfl, rfl⟩

/-- The reader as many events further on, in the same call. -/
def past (r : Reader) (k : ℕ) : Reader :=
  { r with stream := ⟨r.stream.position + k, r.stream.wanted?⟩ }

/-- A look at an event that is not wanted passes over it. -/
theorem Subscribed.look_rejected (h : r.Subscribed) {asking : Asking}
    (hcall : r.call? = some asking) {e : Event} {rest : List Event} (hunread : r.unread = e :: rest)
    (he : r.stream.accepts e = false) : r.answerTo .look = none ∧ r.follow .look = r.past 1 := by
  have hanswer : r.answer? = none := by
    rw [h.answer?_eq hcall, hunread]
    simp [he]
  refine ⟨hanswer, ?_⟩
  rw [follow, h.look_eq hcall, hanswer, hunread, past, hcall]
  rfl

/-- Looks pass over the events that are not wanted, and the call goes on. -/
theorem Subscribed.looks_passed (h : r.Subscribed) {asking : Asking}
    (hcall : r.call? = some asking) {passed rest : List Event} (hunread : r.unread = passed ++ rest)
    (hpassed : ∀ x ∈ passed, r.stream.accepts x = false) (n : ℕ) :
    (r.past passed.length).Subscribed ∧
    r.answers (List.replicate (passed.length + n) .look) =
      (r.past passed.length).answers (List.replicate n .look) ∧
    r.after (List.replicate (passed.length + n) .look) =
      (r.past passed.length).after (List.replicate n .look) := by
  induction passed generalizing r with
  | nil =>
      rw [List.length_nil, Nat.zero_add]
      exact ⟨h, rfl, rfl⟩
  | cons e passed ih =>
      have he : r.stream.accepts e = false := hpassed e List.mem_cons_self
      obtain ⟨hanswer, hlook⟩ := h.look_rejected hcall hunread he
      have hunread' : (r.past 1).unread = passed ++ rest := Bus.unread_cons hunread
      have hpassed' : ∀ x ∈ passed, (r.past 1).stream.accepts x = false := by
        intro x hx
        exact hpassed x (List.mem_cons_of_mem e hx)
      have hkept := h.kept
      have hone : (r.past 1).Subscribed := by
        rw [← hlook]
        refine h.of_follow .look ?_
        rw [hlook, hunread']
        rw [hunread, List.cons_append, List.length_cons] at hkept
        omega
      have hpast : (r.past 1).past passed.length = r.past (e :: passed).length := by
        rw [past, past, past, List.length_cons, Nat.add_assoc, Nat.add_comm 1]
      have hcount : (e :: passed).length + n = passed.length + n + 1 := by
        rw [List.length_cons]
        omega
      rw [hcount, List.replicate_succ, answers_cons, after_cons, hanswer, hlook, ← hpast]
      exact ih hone hcall hunread' hpassed'

/-- Either none of the unread events is wanted, or there is a first one that is. -/
theorem exists_wanted (r : Reader) :
    (r.unread.find? r.stream.accepts = none ∧ ∀ x ∈ r.unread, r.stream.accepts x = false) ∨
      ∃ passed e rest, r.unread.find? r.stream.accepts = some e ∧
        r.unread = passed ++ e :: rest ∧ (∀ x ∈ passed, r.stream.accepts x = false) ∧
        r.stream.accepts e = true := by
  cases hfind : r.unread.find? r.stream.accepts with
  | none =>
      refine .inl ⟨rfl, ?_⟩
      simpa using hfind
  | some e =>
      obtain ⟨he, passed, rest, hunread, hbefore⟩ := List.find?_eq_some_iff_append.1 hfind
      refine .inr ⟨passed, e, rest, rfl, hunread, ?_, he⟩
      intro x hx
      simpa using hbefore x hx

/-- **A whole call returns the first wanted event**, and a call that waits is not answered without
one. -/
theorem Subscribed.receive_eq (h : r.Subscribed) : (r.bus.receive r.stream).1 =
    ((r.unread.find? r.stream.accepts).map Received.event).getD .pending := by
  have hkept := h.kept
  rcases r.exists_wanted with ⟨hfind, hpassed⟩ | ⟨passed, e, rest, hfind, hunread, hpassed, he⟩
  · rw [h.isOpen.receive_pending hpassed hkept h.position, hfind]
    rfl
  · rw [hunread] at hkept
    rw [h.isOpen.receive_wanted hunread hpassed he hkept, hfind]
    rfl

/-- Looks up to a wanted event return it. -/
theorem Subscribed.looks_wanted (h : r.Subscribed) {asking : Asking} (hcall : r.call? = some asking)
    {passed rest : List Event} {e : Event} (hunread : r.unread = passed ++ e :: rest)
    (hpassed : ∀ x ∈ passed, r.stream.accepts x = false) (he : r.stream.accepts e = true) (n : ℕ) :
    r.answers (List.replicate (passed.length + (n + 1)) .look) = [.event e] ∧
    (r.after (List.replicate (passed.length + (n + 1)) .look)).stream =
      ⟨r.stream.position + passed.length + 1, r.stream.wanted?⟩ := by
  obtain ⟨hsubscribed, hanswers, hafter⟩ := h.looks_passed hcall hunread hpassed (n + 1)
  have hnext : (r.past passed.length).unread = e :: rest := Bus.unread_append hunread
  have hanswer : (r.past passed.length).answer? = some (.event e) := by
    rw [hsubscribed.answer?_eq hcall, hnext]
    exact if_pos he
  obtain ⟨hone, hlast⟩ := looks_answered hanswer n
  refine ⟨hanswers.trans hone, ?_⟩
  rw [hafter, hlast, hsubscribed.look_eq hcall, hnext]
  rfl

/-- Looks past all that is unread come to the end. -/
theorem Subscribed.looks_exhausted (h : r.Subscribed) {asking : Asking}
    (hcall : r.call? = some asking) (hpassed : ∀ x ∈ r.unread, r.stream.accepts x = false) :
    r.answers (List.replicate (r.unread.length + 1) .look) = asking.answered .pending ∧
    (r.after (List.replicate (r.unread.length + 1) .look)).stream =
      ⟨r.bus.published, r.stream.wanted?⟩ := by
  have hall : r.unread = r.unread ++ [] := (List.append_nil _).symm
  obtain ⟨hsubscribed, hanswers, hafter⟩ := h.looks_passed hcall hall hpassed 1
  have hnext : (r.past r.unread.length).unread = [] := Bus.unread_append hall
  have hanswer := hsubscribed.answer?_eq hcall
  rw [hnext] at hanswer
  have hend : r.stream.position + r.unread.length = r.bus.published := by
    have hlength := h.isOpen.length_unread r.stream.position
    have hposition := h.position
    rw [unread]
    omega
  rw [hanswers, hafter, List.replicate_one, answers_cons, after_cons, answerTo, hanswer, follow,
    hsubscribed.look_eq hcall, hnext, past, hend]
  cases asking <;> exact ⟨rfl, rfl⟩

/-- **Looks one after another are one whole call**: they answer what it answers, and leave the
stream where it leaves it. -/
theorem Subscribed.run_looks (h : r.Subscribed) {asking : Asking} (hcall : r.call? = some asking) :
    r.answers (List.replicate (r.unread.length + 1) .look) =
      asking.answered (r.bus.receive r.stream).1 ∧
    (r.after (List.replicate (r.unread.length + 1) .look)).stream =
      (r.bus.receive r.stream).2 := by
  have hkept := h.kept
  rcases r.exists_wanted with ⟨-, hpassed⟩ | ⟨passed, e, rest, -, hunread, hpassed, he⟩
  · rw [h.isOpen.receive_pending hpassed hkept h.position]
    exact h.looks_exhausted hcall hpassed
  · rw [hunread] at hkept
    have hcount : r.unread.length + 1 = passed.length + (rest.length + 1 + 1) := by
      rw [hunread, List.length_append, List.length_cons]
      omega
    have hanswered : asking.answered (.event e) = [.event e] := by cases asking <;> rfl
    rw [h.isOpen.receive_wanted hunread hpassed he hkept, hcount, hanswered]
    exact h.looks_wanted hcall hunread hpassed he (rest.length + 1)

/-! ### All calls -/

/-- What a reader got that keeps up with what was published, and what it gets next. -/
structure Delivered (accepts : Event → Bool) (published : List Event) (answers : List Received)
    (r : Reader) : Prop where
  /-- What was returned and what is wanted of the unread make up what is wanted of the published. -/
  events : answers.filterMap Received.event? ++ r.unread.filter accepts = published.filter accepts
  /-- Nothing is returned but wanted events, or that there is none for now. -/
  answers : ∀ answer ∈ answers, (∃ e, answer = .event e ∧ accepts e = true) ∨ answer = .pending
  /-- A call ends with a wanted event, or at once where nothing is unread; else it goes on. -/
  look : ∀ asking, r.call? = some asking → r.answer? =
    match r.unread with
    | e :: _ => if accepts e then some (.event e) else none
    | [] => if asking = .atOnce then some .pending else none
  /-- A whole call returns the first wanted event of the unread. -/
  receive : (r.bus.receive r.stream).1 =
    ((r.unread.find? accepts).map Received.event).getD .pending
  /-- Looks one after another are a whole call. -/
  call : ∀ asking, r.call? = some asking →
    r.answers (List.replicate (r.unread.length + 1) .look) =
      asking.answered (r.bus.receive r.stream).1 ∧
    (r.after (List.replicate (r.unread.length + 1) .look)).stream = (r.bus.receive r.stream).2

/-- What holds of one move after another. -/
theorem Subscribed.follows (h : r.Subscribed) (hcapacity : capacity ≤ r.bus.kept)
    (hkeeps : r.KeepsUp capacity ms) :
    (r.after ms).Subscribed ∧ (r.after ms).stream.accepts = r.stream.accepts ∧
    (r.answers ms).filterMap Received.event? ++ (r.after ms).unread.filter r.stream.accepts =
      r.unread.filter r.stream.accepts ++
        (ms.filterMap Move.event?).filter r.stream.accepts ∧
    ∀ answer ∈ r.answers ms,
      (∃ e, answer = .event e ∧ r.stream.accepts e = true) ∨ answer = .pending := by
  induction ms generalizing r with
  | nil =>
      refine ⟨h, rfl, ?_, ?_⟩
      · exact (List.append_nil _).symm
      · intro answer hanswer
        cases hanswer
  | cons m ms ih =>
      obtain ⟨-, hkeeps⟩ := hkeeps
      have hkept : (r.follow m).unread.length ≤ r.bus.kept := by
        refine Nat.le_trans ?_ hcapacity
        cases ms with
        | nil => exact hkeeps
        | cons m' ms => exact hkeeps.1
      have hcapacity' : capacity ≤ (r.follow m).bus.kept := by
        rw [r.kept_follow m]
        exact hcapacity
      have haccepts := r.accepts_follow m
      obtain ⟨hsubscribed, hsame, hevents, hanswers⟩ :=
        ih (h.of_follow m hkept) hcapacity' hkeeps
      rw [haccepts] at hsame hevents hanswers
      refine ⟨hsubscribed, hsame, ?_, ?_⟩
      · have hmove := h.delivers m
        have hpublished : (m :: ms).filterMap Move.event? =
            m.event?.toList ++ ms.filterMap Move.event? := by
          cases hm : m.event? <;> simp [hm]
        rw [answers_cons, after_cons, List.filterMap_append, List.append_assoc, hevents, hpublished,
          List.filter_append, ← List.append_assoc, hmove, List.append_assoc]
      · intro answer hanswer
        rw [answers_cons, List.mem_append] at hanswer
        rcases hanswer with hanswer | hanswer
        · exact h.answerTo_cases (Option.mem_toList.1 hanswer)
        · exact hanswers answer hanswer

theorem subscribed_start (capacity : ℕ) (wanted? : Option (Event → Bool)) :
    (start capacity wanted?).Subscribed where
  isOpen := ⟨rfl, Nat.one_ne_zero⟩
  streams := Nat.one_ne_zero
  position := Nat.le_refl 0
  kept := Nat.zero_le _

/-- **The wanted events are delivered.**  As long as no more events are unread than the capacity of
the bus, the calls of a reader have at all times returned the wanted events among the published, in
order, without loss and each once, but for those that are still unread.  An event that is not wanted
is never returned, ends no call and hides no later one; and a call is told that there is no event
only where nothing is unread. -/
theorem delivered (h : (start capacity wanted?).KeepsUp capacity ms) :
    ∀ before, before <+: ms →
      Delivered (start capacity wanted?).stream.accepts (before.filterMap Move.event?)
        ((start capacity wanted?).answers before) ((start capacity wanted?).after before) := by
  intro before hbefore
  have hstart := subscribed_start capacity wanted?
  obtain ⟨hsubscribed, haccepts, hevents, hanswers⟩ :=
    hstart.follows (le_nextPowerOfTwo capacity) (h.of_prefix hbefore)
  refine {
    events := hevents
    answers := hanswers
    look := ?look
    receive := ?receive
    call := ?call }
  case look =>
    intro asking hcall
    rw [← haccepts]
    exact hsubscribed.answer?_eq hcall
  case receive =>
    rw [← haccepts]
    exact hsubscribed.receive_eq
  case call =>
    intro asking hcall
    exact hsubscribed.run_looks hcall

/-- A reader of changed credits begins to wait, and is told of one after two other events; then it
asks until it is told that there is no more. -/
def listening : List Move :=
  [.call .waiting, .look, .publish (.collection (.updated "c")), .look,
    .publish (.collection (.deleted "c")), .publish (.authority (.involvementChanged "a")), .look,
    .publish (.authority (.involvementChanged "b")), .look, .call .atOnce, .look, .call .atOnce,
    .look]

theorem delivered_listening :
    (start 2 (some fun e => e.involvement?.isSome)).KeepsUp 2 listening ∧
    ((start 2 (some fun e => e.involvement?.isSome)).answers listening).filterMap Received.event? =
      [.authority (.involvementChanged "a"), .authority (.involvementChanged "b")] ∧
    (start 2 (some fun e => e.involvement?.isSome)).answers listening =
      [.event (.authority (.involvementChanged "a")), .event (.authority (.involvementChanged "b")),
        .pending] := by
  have hkeeps : (start 2 (some fun e => e.involvement?.isSome)).KeepsUp 2 listening := by decide
  have hdelivered := delivered hkeeps listening (List.prefix_refl listening)
  refine ⟨hkeeps, ?_, by decide⟩
  -- nothing is left to read at the end
  have hunread : ((start 2 (some fun e => e.involvement?.isSome)).after listening).unread = [] := by
    decide
  have hevents := hdelivered.events
  rw [hunread, List.filter_nil, List.append_nil] at hevents
  rw [hevents]
  decide

end Reader

end Anthology
