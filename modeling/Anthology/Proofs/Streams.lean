/-
**Reading a stream through a filter.**

A reader sees the events that were published after its place, in order, and passes over those that
its filter rejects.  As long as no more of them are unread than the bus keeps, none is lost: the
reader comes to the first event that passes the filter, or to the end.

Main definitions:

* `Anthology.Bus.unread` — what a reader has not read yet;
* `Anthology.Bus.Open` — the bus counts its events, and somebody can publish.

Main results:

* `Anthology.Bus.Open.next_event`, `Anthology.Bus.Open.next_pending` — one step of reading;
* `Anthology.Bus.Open.receive_wanted`, `Anthology.Bus.Open.receive_pending` — reading through a
  filter.
-/

import Anthology.Bus
import Mathlib.Data.Nat.Notation

set_option relaxedAutoImplicit false
set_option autoImplicit false

namespace Anthology

namespace Bus

variable {b : Bus} {s : EventStream} {wanted : Event → Bool} {e : Event} {passed rest : List Event}

/-- The events that a reader at the position has not read, in order. -/
def unread (b : Bus) (position : ℕ) : List Event := b.latest.reverse.drop position

/-- The number of published events is right, and somebody can publish. -/
structure Open (b : Bus) : Prop where
  published : b.published = b.latest.length
  publishers : b.publishers ≠ 0

theorem Open.length_unread (hb : b.Open) (position : ℕ) :
    (b.unread position).length = b.published - position := by
  rw [unread, List.length_drop, List.length_reverse, hb.published]

/-- What is left behind the events that were read. -/
theorem unread_append {position : ℕ} (h : b.unread position = passed ++ rest) :
    b.unread (position + passed.length) = rest := by
  rw [unread, ← List.drop_drop, ← unread, h, List.drop_left]

theorem unread_cons {position : ℕ} (h : b.unread position = e :: rest) :
    b.unread (position + 1) = rest := by
  rw [unread, ← List.drop_drop, ← unread, h, List.drop_succ_cons, List.drop_zero]

/-- One more published event is one more to read. -/
theorem unread_of_latest {c : Bus} (h : c.latest = e :: b.latest) {position : ℕ}
    (hposition : position ≤ b.latest.length) : c.unread position = b.unread position ++ [e] := by
  rw [unread, h, List.reverse_cons, List.drop_append_of_le_length, ← unread]
  rwa [List.length_reverse]

/-- Where nothing was lost, the next event is read. -/
theorem Open.next_event (hb : b.Open) {position : ℕ} (h : b.unread position = e :: rest)
    (hkept : (e :: rest).length ≤ b.kept) : b.next position = (.event e, position + 1) := by
  have hlength := hb.length_unread position
  rw [h] at hlength
  have hnothingLost : ¬ b.kept < b.published - position := by omega
  have hpositive : 0 < b.published - position := by
    rw [← hlength, List.length_cons]
    omega
  have hevent : b.event? position = some e := by
    have hread : b.latest.reverse[position]? = some e := by
      have hhead : (b.latest.reverse.drop position)[0]? = some e := by
        rw [← unread, h]
        rfl
      rwa [List.getElem?_drop, Nat.add_zero] at hhead
    rw [List.getElem?_reverse (by rw [← hb.published]; omega), ← hb.published] at hread
    rw [event?, if_pos (by omega), hread]
  rw [next, if_neg hnothingLost, hevent]

theorem Open.next_pending (hb : b.Open) {position : ℕ} (h : b.unread position = []) :
    b.next position = (.pending, position) := by
  have hlength := hb.length_unread position
  rw [h, List.length_nil] at hlength
  have hnone : b.event? position = none := if_neg (by omega)
  rw [next, if_neg (by omega), hnone, if_neg hb.publishers]

/-- Reading passes over the events that are not wanted. -/
theorem Open.receiveWithin_passed (hb : b.Open) (position fuel : ℕ)
    (h : b.unread position = passed ++ rest) (hpassed : ∀ x ∈ passed, wanted x = false)
    (hkept : (passed ++ rest).length ≤ b.kept) :
    b.receiveWithin wanted (passed.length + fuel) position =
      b.receiveWithin wanted fuel (position + passed.length) := by
  induction passed generalizing position with
  | nil => rw [List.length_nil, Nat.zero_add, Nat.add_zero]
  | cons x passed ih =>
      have hnext := hb.next_event h hkept
      have hx : wanted x = false := hpassed x List.mem_cons_self
      have hpassed' : ∀ y ∈ passed, wanted y = false := by
        intro y hy
        exact hpassed y (List.mem_cons_of_mem x hy)
      have hkept' : (passed ++ rest).length ≤ b.kept := by
        rw [List.cons_append, List.length_cons] at hkept
        omega
      have hrest := ih (position + 1) (unread_cons h) hpassed' hkept'
      have hfuel : (x :: passed).length + fuel = passed.length + fuel + 1 := by
        rw [List.length_cons]
        omega
      have hposition : position + (x :: passed).length = position + 1 + passed.length := by
        rw [List.length_cons]
        omega
      rw [hfuel, hposition, ← hrest, receiveWithin, hnext]
      simp only [hx, Bool.false_eq_true, if_false]

/-- **The next wanted event is read** where nothing was lost. -/
theorem Open.receive_wanted (hb : b.Open) (h : b.unread s.position = passed ++ e :: rest)
    (hpassed : ∀ x ∈ passed, s.accepts x = false) (he : s.accepts e = true)
    (hkept : (passed ++ e :: rest).length ≤ b.kept) :
    b.receive s = (.event e, ⟨s.position + passed.length + 1, s.wanted?⟩) := by
  have hfuel : b.published - s.position + 1 = passed.length + (rest.length + 1 + 1) := by
    rw [← hb.length_unread, h, List.length_append, List.length_cons]
    omega
  have hkept' : (e :: rest).length ≤ b.kept := by
    rw [List.length_append] at hkept
    omega
  rw [receive, hfuel, hb.receiveWithin_passed _ _ h hpassed hkept, receiveWithin,
    hb.next_event (unread_append h) hkept']
  simp only [he, if_true]

/-- **Reading comes to rest** where no event is wanted, behind all that were published. -/
theorem Open.receive_pending (hb : b.Open)
    (hpassed : ∀ x ∈ b.unread s.position, s.accepts x = false)
    (hkept : (b.unread s.position).length ≤ b.kept) (hposition : s.position ≤ b.published) :
    b.receive s = (.pending, ⟨b.published, s.wanted?⟩) := by
  have hlength := hb.length_unread s.position
  have hend : s.position + (b.unread s.position).length = b.published := by omega
  have hall : b.unread s.position = b.unread s.position ++ [] := (List.append_nil _).symm
  have hnothing : b.unread b.published = [] := hend ▸ unread_append hall
  rw [receive, ← hlength, hb.receiveWithin_passed _ _ hall hpassed (hall ▸ hkept), hend,
    receiveWithin, hb.next_pending hnothing]

end Bus

end Anthology
