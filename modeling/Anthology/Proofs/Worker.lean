/-
**The upkeep listens in the background.**

The upkeep in the background reads a bus on which everything is published that a session announces,
its own announcements among it.  It reads through a filter that only changed credits pass, and
answers each of them by a refresh before it reads on.  While it does so the bus grows by one event
for each that is read, so nothing is lost that was not lost before; and since no refresh announces
a change of credits, the upkeep comes to rest after the changes that were there when it began.  It
reads no further when a refresh breaks off.

Main definitions:

* `Anthology.Session.bus` — the bus with what a session announced;
* `Anthology.Session.listen` — the upkeep in the background;
* `Anthology.Session.attended` — the changes that it answers.

Main results:

* `Anthology.Session.listen_eq` — **one refresh for each change of credits**, in order, and no more.
-/

import Anthology.Proofs.Streams
import Anthology.Proofs.Upkeep

set_option relaxedAutoImplicit false
set_option autoImplicit false

namespace Anthology

namespace Session

open Store

variable {n m : Session} {kept turns : ℕ} {older : List Event} {s : EventStream} {cs : List Id}

/-! ### Listening -/

/-- The event says that credits changed. -/
def isCredit (e : Event) : Bool := e.involvement?.isSome

/-- The bus on which everything is published that the session announces, after `older` events.  It
keeps the last `kept` events for readers that are behind; the upkeep reads it. -/
def bus (n : Session) (kept : ℕ) (older : List Event) : Bus where
  kept := kept
  latest := n.announced ++ older
  published := (n.announced ++ older).length
  streams := 1
  publishers := 1

theorem open_bus (n : Session) (kept : ℕ) (older : List Event) : (n.bus kept older).Open :=
  ⟨rfl, Nat.one_ne_zero⟩

/-- One more event is left to read when one more is announced. -/
theorem unread_bus_of_announced {e : Event} (kept : ℕ) (h : m.announced = e :: n.announced)
    {position : ℕ} (hposition : position ≤ (n.announced ++ older).length) :
    (m.bus kept older).unread position = (n.bus kept older).unread position ++ [e] := by
  have hlatest : (m.bus kept older).latest = e :: (n.bus kept older).latest := by
    rw [bus, bus, h]
    rfl
  exact Bus.unread_of_latest hlatest hposition

/-- The upkeep in the background: it reads the next change of credits and answers it by a refresh,
until it is cancelled, a refresh breaks off, or nothing is left to read.  It tells the authorities
that it answered, in order, and where it stands on the bus. -/
def listen [Arithmetic] (kept : ℕ) (older : List Event) :
    ℕ → Session → EventStream → List Id × Session × EventStream
  | 0, n, s => ([], n, s)
  | turns + 1, n, s =>
    if n.cancelled || n.halted then ([], n, s)
    else
      match (n.bus kept older).receive s with
      | (.event e, s) =>
        match e.involvement? with
        | some a =>
          let (answered, m, s) := listen kept older turns (n.attend a) s
          (a :: answered, m, s)
        | none => listen kept older turns n s
      | (.lagged _, s) => listen kept older turns n s
      | (.closed, s) | (.pending, s) => ([], n, s)

theorem listen_halted [Arithmetic] (h : n.halted = true) :
    listen kept older turns n s = ([], n, s) := by
  cases turns with
  | zero => rfl
  | succ turns => rw [listen, h, Bool.or_true, if_pos rfl]

/-- The authorities among the listed ones that the upkeep answers, in order: it is the last of them
where a refresh breaks off. -/
def attended [Arithmetic] (n : Session) : List Id → List Id
  | [] => []
  | a :: as => if n.halted then [] else a :: (n.attend a).attended as

theorem attended_cons [Arithmetic] (h : n.halted = false) (a : Id) (as : List Id) :
    n.attended (a :: as) = a :: (n.attend a).attended as := by
  rw [attended, if_neg (Bool.eq_false_iff.1 h)]

theorem attended_halted [Arithmetic] (h : n.halted = true) (as : List Id) : n.attended as = [] := by
  cases as with
  | nil => rfl
  | cons a as => rw [attended, if_pos h]

theorem attended_prefix [Arithmetic] (n : Session) (as : List Id) : n.attended as <+: as := by
  induction as generalizing n with
  | nil => exact List.prefix_rfl
  | cons a as ih =>
      cases h : n.halted with
      | true =>
          rw [attended_halted h]
          exact List.nil_prefix
      | false =>
          rw [attended_cons h]
          exact List.cons_prefix_cons.2 ⟨rfl, ih _⟩

/-- All are answered where no refresh breaks off. -/
theorem attended_eq [Arithmetic] (h : (n.respond cs).halted = false) : n.attended cs = cs := by
  induction cs generalizing n with
  | nil => rfl
  | cons a as ih =>
      have hrunning : n.halted = false := by
        rw [← Bool.not_eq_true]
        intro hhalted
        rw [respond_halted hhalted, hhalted] at h
        contradiction
      rw [respond_cons hrunning] at h
      rw [attended_cons hrunning, ih h]

theorem not_isCredit {e : Event} (h : e.involvement? = none) : isCredit e = false := by
  rw [isCredit, h, Option.isSome_none]

theorem accepts_of_isCredit (hs : s.wanted? = some isCredit) : s.accepts = isCredit := by
  funext x
  rw [EventStream.accepts, hs, Option.all_some]

/-- One turn of the upkeep: it passes the events that are no changes of credits, and answers the
first one that is. -/
theorem listen_answered [Arithmetic] {passed rest : List Event} {e : Event} {a : Id}
    (hgoing : n.cancelled = false) (hrunning : n.halted = false) (hs : s.wanted? = some isCredit)
    (hunread : (n.bus kept older).unread s.position = passed ++ e :: rest)
    (hpassed : ∀ x ∈ passed, x.involvement? = none) (he : e.involvement? = some a)
    (hkept : (passed ++ e :: rest).length ≤ kept) :
    listen kept older (turns + 1) n s =
      let next := listen kept older turns (n.attend a) ⟨s.position + passed.length + 1, s.wanted?⟩
      (a :: next.1, next.2) := by
  have hpassed' : ∀ x ∈ passed, s.accepts x = false := by
    intro x hx
    rw [accepts_of_isCredit hs]
    exact not_isCredit (hpassed x hx)
  have hcredit : s.accepts e = true := by
    rw [accepts_of_isCredit hs, isCredit, he, Option.isSome_some]
  have hreceive := (n.open_bus kept older).receive_wanted hunread hpassed' hcredit hkept
  rw [listen, hgoing, hrunning, hreceive]
  simp only [Bool.or_self, Bool.false_eq_true, if_false, he]

/-- A refresh adds one event to those that are left behind the change it answers, and that one is
not a change of credits. -/
theorem unread_attend [Arithmetic] {passed rest : List Event} {e : Event} {a : Id} {position : ℕ}
    (hhalted : (n.attend a).halted = false)
    (hunread : (n.bus kept older).unread position = passed ++ e :: rest) :
    ∃ answer : Event, answer.involvement? = none ∧
      ((n.attend a).bus kept older).unread (position + passed.length + 1) = rest ++ [answer] ∧
        position + passed.length + 1 ≤ ((n.attend a).announced ++ older).length := by
  obtain ⟨answer, hanswer, hannounced⟩ := n.attend_announced a hhalted
  have hahead := (n.open_bus kept older).length_unread position
  rw [hunread, List.length_append, List.length_cons] at hahead
  have hread : position + passed.length + 1 ≤ (n.announced ++ older).length := by
    have hpublished : (n.bus kept older).published = (n.announced ++ older).length := rfl
    omega
  have hleft := unread_bus_of_announced kept hannounced hread
  rw [Bus.unread_cons (Bus.unread_append hunread)] at hleft
  refine ⟨answer, hanswer, hleft, ?_⟩
  rw [hannounced, List.cons_append, List.length_cons]
  omega

/-- **The upkeep answers each change of credits by one refresh**, in order, and no other event,
until a refresh breaks off.  So its own announcements bring no more refreshes, and where no refresh
breaks off it comes to rest behind them. -/
theorem listen_eq [Arithmetic] (hgoing : n.cancelled = false) (hrunning : n.halted = false)
    (hs : s.wanted? = some isCredit)
    (hcs : ((n.bus kept older).unread s.position).filterMap Event.involvement? = cs)
    (hkept : ((n.bus kept older).unread s.position).length ≤ kept)
    (hposition : s.position ≤ (n.announced ++ older).length) (hturns : cs.length < turns) :
    ∃ s', listen kept older turns n s = (n.attended cs, n.respond cs, s') ∧
      ((n.respond cs).halted = false →
        s' = ⟨((n.respond cs).announced ++ older).length, s.wanted?⟩) := by
  induction cs generalizing n s turns with
  | nil =>
      obtain ⟨turns, rfl⟩ := Nat.exists_eq_add_of_lt hturns
      have hpassed : ∀ x ∈ (n.bus kept older).unread s.position, s.accepts x = false := by
        intro x hx
        rw [accepts_of_isCredit hs]
        exact not_isCredit (List.filterMap_eq_nil_iff.1 hcs x hx)
      have hreceive := (n.open_bus kept older).receive_pending hpassed hkept hposition
      rw [List.length_nil, Nat.zero_add, listen, hgoing, hrunning, hreceive]
      exact ⟨_, rfl, fun _ => rfl⟩
  | cons a cs ih =>
      obtain ⟨turns, rfl⟩ := Nat.exists_eq_add_of_lt (Nat.zero_lt_of_lt hturns)
      obtain ⟨passed, e, rest, hunread, hpassed, he, hrest⟩ := List.filterMap_eq_cons_iff.1 hcs
      rw [hunread] at hkept
      rw [Nat.zero_add, listen_answered hgoing hrunning hs hunread hpassed he hkept,
        attended_cons hrunning, respond_cons hrunning]
      cases hhalted : (n.attend a).halted with
      | true =>
          rw [listen_halted hhalted, respond_halted hhalted, attended_halted hhalted]
          exact ⟨_, rfl, fun hgoes => absurd (hhalted.symm.trans hgoes) (by decide)⟩
      | false =>
          obtain ⟨-, hcancelled⟩ := n.attend_started a
          obtain ⟨answer, hanswer, hleft, hposition'⟩ := unread_attend hhalted hunread
          have hcredits : (rest ++ [answer]).filterMap Event.involvement? = cs := by
            rw [List.filterMap_append, hrest, List.filterMap_cons, hanswer]
            exact List.append_nil cs
          have hkept' : (rest ++ [answer]).length ≤ kept := by
            rw [List.length_append, List.length_cons] at hkept
            rw [List.length_append, List.length_singleton]
            omega
          have hturns' : cs.length < turns := by
            rw [List.length_cons] at hturns
            omega
          obtain ⟨s', hnext, hend⟩ := ih (s := ⟨s.position + passed.length + 1, s.wanted?⟩)
            (hcancelled.trans hgoing) hhalted hs (hleft ▸ hcredits) (hleft ▸ hkept') hposition'
            hturns'
          rw [hnext]
          exact ⟨s', rfl, hend⟩

end Session

end Anthology
