/-
**Slots moved in their collection.**

A slot is moved to a position by taking it out of the list of its collection and putting it in
there.  The numbers then follow the list, whatever gaps and ties there were before, and a row is
written only where its number is not that of its position.  To exchange a slot with a neighbour is
the same as to move it by one position, so that a move to one side is undone by a move to the other.
Before anything else the list is read, so nothing is moved in a collection that has a slot whose
number cannot be read.

Main definitions:

* `Anthology.Store.numbersTo` — the numbers of slots without a gap;
* `Anthology.Store.Reordered` — what is left when slots were put into an order;
* `Anthology.Store.Restores` — two moves, the second of which undoes the first.

Main results:

* `Anthology.Store.reordered_renumber` — slots that are numbered along a list;
* `Anthology.Store.reorder_relocates` — **a slot is taken out of the order and put in at the
  position that was asked for**;
* `Anthology.Store.reorder_fails_unreadable` — a collection in which no slot can be moved;
* `Anthology.Store.exchanged_back` — slots that are exchanged twice are in the order they had;
* `Anthology.Store.moves_are_reorders` — **a move is a reorder by one, and a move back undoes it**.
-/

import Anthology.Proofs.Operation
import Anthology.Proofs.Renumber

set_option relaxedAutoImplicit false
set_option autoImplicit false

namespace Anthology

/-- A shelf with a gap and a tie, for examples: its slots are numbered 1, 5 and 5. -/
def Operation.uneven : List Operation := [
  .createCollection (.create "shelf" 0 "Shelf" .other),
  .addItem 1 "front" "shelf" .empty ⟨some 1, none, none⟩,
  .addItem 1 "right" "shelf" .empty ⟨some 5, none, none⟩,
  .addItem 1 "left" "shelf" .empty ⟨some 5, none, none⟩]

namespace Store

/-! ### Lists -/

section Lists

variable {α β : Type} {xs : List α} {x : α} {i j p : ℕ}

theorem relocate_of_getElem? (hx : xs[p]? = some x) (q : ℕ) :
    relocate xs p q = (xs.eraseIdx p).insertIdx q x := by
  rw [relocate, hx]

theorem exchange_of_getElem? {y : α} (hx : xs[i]? = some x) (hy : xs[j]? = some y) :
    exchange xs i j = (xs.set i y).set j x := by
  rw [exchange, hx, hy]

theorem map_relocate (f : α → β) (hp : p < xs.length) (q : ℕ) :
    (relocate xs p q).map f = relocate (xs.map f) p q := by
  have hx : xs[p]? = some xs[p] := List.getElem?_eq_getElem hp
  have hfx : (xs.map f)[p]? = some (f xs[p]) := by rw [List.getElem?_map, hx, Option.map_some]
  rw [relocate_of_getElem? hx, relocate_of_getElem? hfx, List.map_insertIdx, List.eraseIdx_map]

theorem map_exchange (f : α → β) (hi : i < xs.length) (hj : j < xs.length) :
    (exchange xs i j).map f = exchange (xs.map f) i j := by
  have hx : xs[i]? = some xs[i] := List.getElem?_eq_getElem hi
  have hy : xs[j]? = some xs[j] := List.getElem?_eq_getElem hj
  have hfx : (xs.map f)[i]? = some (f xs[i]) := by rw [List.getElem?_map, hx, Option.map_some]
  have hfy : (xs.map f)[j]? = some (f xs[j]) := by rw [List.getElem?_map, hy, Option.map_some]
  rw [exchange_of_getElem? hx hy, exchange_of_getElem? hfx hfy, List.map_set, List.map_set]

/-- Where no element stands twice, the one that is moved may be named by itself. -/
theorem relocate_eq_erase [DecidableEq α] (hnodup : xs.Nodup) (hx : xs[p]? = some x) (q : ℕ) :
    relocate xs p q = (xs.erase x).insertIdx q x := by
  obtain ⟨hp, rfl⟩ := List.getElem?_eq_some_iff.1 hx
  rw [relocate_of_getElem? hx, hnodup.erase_getElem]

theorem relocate_cons_succ (x : α) (xs : List α) (p q : ℕ) :
    relocate (x :: xs) (p + 1) (q + 1) = x :: relocate xs p q := by
  unfold relocate
  rw [List.getElem?_cons_succ]
  cases xs[p]? with
  | none => rfl
  | some y => rfl

theorem exchange_cons_succ (x : α) (xs : List α) (i j : ℕ) :
    exchange (x :: xs) (i + 1) (j + 1) = x :: exchange xs i j := by
  unfold exchange
  rw [List.getElem?_cons_succ, List.getElem?_cons_succ]
  cases xs[i]? with
  | none => rfl
  | some y =>
      cases xs[j]? with
      | none => rfl
      | some z => rfl

theorem exchange_comm (xs : List α) (hij : i ≠ j) : exchange xs i j = exchange xs j i := by
  unfold exchange
  cases xs[i]? with
  | none => cases xs[j]? <;> rfl
  | some x =>
      cases xs[j]? with
      | none => rfl
      | some y => exact List.set_comm _ _ hij

/-- To exchange an element with one beside it is to move it there. -/
theorem exchange_eq_relocate {q : ℕ} (hp : p < xs.length) (hq : q < xs.length)
    (hbeside : q = p + 1 ∨ p = q + 1) : exchange xs p q = relocate xs p q := by
  induction xs generalizing p q with
  | nil => simp at hp
  | cons x xs ih =>
      cases p with
      | zero =>
          obtain rfl : q = 1 := by omega
          cases xs with
          | nil => simp at hq
          | cons y xs => rfl
      | succ p =>
          cases q with
          | zero =>
              obtain rfl : p = 0 := by omega
              cases xs with
              | nil => simp at hp
              | cons y xs => rfl
          | succ q =>
              rw [exchange_cons_succ, relocate_cons_succ,
                ih (by simpa using hp) (by simpa using hq) (by omega)]

theorem length_exchange (xs : List α) (i j : ℕ) : (exchange xs i j).length = xs.length := by
  unfold exchange
  split
  · rw [List.length_set, List.length_set]
  · rfl

theorem getElem?_exchange_right (hi : i < xs.length) (hj : j < xs.length) :
    (exchange xs i j)[j]? = xs[i]? := by
  have hx : xs[i]? = some xs[i] := List.getElem?_eq_getElem hi
  rw [exchange_of_getElem? hx (List.getElem?_eq_getElem hj), hx]
  exact List.getElem?_set_self (by rwa [List.length_set])

theorem getElem?_exchange_left (hi : i < xs.length) (hj : j < xs.length) (hij : i ≠ j) :
    (exchange xs i j)[i]? = xs[j]? := by
  rw [exchange_comm xs hij, getElem?_exchange_right hj hi]

/-- Two elements that are exchanged twice are where they were. -/
theorem exchange_exchange (hi : i < xs.length) (hj : j < xs.length) (hij : i ≠ j) :
    exchange (exchange xs i j) j i = xs := by
  have hx : xs[i]? = some xs[i] := List.getElem?_eq_getElem hi
  have hy : xs[j]? = some xs[j] := List.getElem?_eq_getElem hj
  have hxj := (getElem?_exchange_right hi hj).trans hx
  have hyi := (getElem?_exchange_left hi hj hij).trans hy
  rw [exchange_of_getElem? hxj hyi, exchange_of_getElem? hx hy]
  rw [List.set_set, List.set_comm _ _ hij.symm, List.set_set]
  rw [List.set_comm _ _ hij, List.set_getElem_self, List.set_getElem_self]

end Lists

/-! ### The neighbours of a slot -/

/-- The other direction. -/
def Direction.opposite : Direction → Direction
  | up => down
  | down => up

section Neighbours

variable {direction : Direction} {p q n : ℕ}

theorem Direction.beside_of_neighbour? (hp : p < n) (h : direction.neighbour? p n = some q) :
    q < n ∧ (q = p + 1 ∨ p = q + 1) := by
  cases direction with
  | up =>
      rw [neighbour?] at h
      split at h <;> cases h
      omega
  | down =>
      rw [neighbour?] at h
      split at h <;> cases h
      omega

/-- A slot is the neighbour of its neighbour. -/
theorem Direction.neighbour?_back (hp : p < n) (h : direction.neighbour? p n = some q) :
    direction.opposite.neighbour? q n = some p := by
  cases direction with
  | up =>
      rw [neighbour?] at h
      split at h <;> cases h
      rw [opposite, neighbour?, if_pos (by omega), Nat.sub_add_cancel (by omega)]
  | down =>
      rw [neighbour?] at h
      split at h <;> cases h
      rw [opposite, neighbour?, if_neg (by omega), Nat.add_sub_cancel]

end Neighbours

variable {s t : Store} {now later : Time} {c id : Id} {n : Int} {x : Slot} {xs items : List Slot}

/-- The numbers of so many slots without a gap. -/
def numbersTo (n : ℕ) : List Int := (List.range n).map fun i : ℕ => (i : Int) + 1

/-! ### Rows along a list -/

theorem getElem?_placesFrom (xs : List Slot) (n : Int) (i : ℕ) :
    (placesFrom n xs)[i]? = xs[i]?.map fun x => (x, n + i) := by
  induction xs generalizing n i with
  | nil => rfl
  | cons x xs ih =>
      cases i with
      | zero => simp [placesFrom]
      | succ i =>
          have hnext : n + 1 + (i : Int) = n + ((i + 1 : ℕ) : Int) := by omega
          rw [placesFrom, List.getElem?_cons_succ, List.getElem?_cons_succ, ih, hnext]

theorem getElem?_rowsFrom (now : Time) (xs : List Slot) (n : Int) (i : ℕ) :
    (rowsFrom now n xs)[i]? = xs[i]?.map fun x => x.numbered now (n + i) := by
  rw [rowsFrom, List.getElem?_map, getElem?_placesFrom, Option.map_map]
  rfl

theorem rowsFrom_ids (now : Time) (n : Int) (xs : List Slot) :
    (rowsFrom now n xs).map Slot.id = xs.map Slot.id := by
  refine List.ext_getElem? fun i => ?_
  rw [List.getElem?_map, List.getElem?_map, getElem?_rowsFrom, Option.map_map]
  cases xs[i]? with
  | none => rfl
  | some x => exact congrArg some Slot.numbered_id

theorem rowsFrom_numbers (now : Time) (xs : List Slot) :
    (rowsFrom now 1 xs).map Slot.seqno = numbersTo xs.length := by
  refine List.ext_getElem? fun i => ?_
  rw [List.getElem?_map, getElem?_rowsFrom, numbersTo, List.getElem?_map, Option.map_map]
  by_cases hi : i < xs.length
  · rw [List.getElem?_eq_getElem hi, List.getElem?_range hi, Option.map_some, Option.map_some]
    exact congrArg some (Slot.numbered_seqno.trans (Int.add_comm 1 i))
  · rw [List.getElem?_eq_none (by omega), List.getElem?_eq_none (by simpa using hi)]
    rfl

/-- What is left when the slots of a collection were put into the order of the ids. -/
structure Reordered (s t : Store) (now : Time) (c : Id) (ids : List Id) : Prop where
  order : t.orderOf c = ids
  numbers : (t.orderedSlots c).map Slot.seqno = numbersTo (s.orderedSlots c).length
  /-- A row whose number is that of its position is left as it is.  Any other gets this number and
  the time, and keeps everything else. -/
  rows : ∀ (i : ℕ) (x : Slot), ids[i]? = some x.id → s.slot? x.id = some x →
    t.slot? x.id = some (if x.seqno = i + 1 then x else { x with seqno := i + 1, updatedAt := now })
  /-- No slot comes or goes, and no slot of another collection is written. -/
  otherSlots : ∀ id, id ∉ s.orderOf c → t.slot? id = s.slot? id
  /-- No other row is written, and no number of works. -/
  rest : t = { s with slots := t.slots }

/-- Slots that are numbered along a list are in the order of the list. -/
theorem reordered_renumber (hperm : xs.Perm (s.orderedSlots c)) :
    s.Reordered (renumberFrom now s 1 xs) now c (xs.map Slot.id) := by
  obtain ⟨hnodup, hrows, hmem⟩ := perm_orderedSlots_rows hperm
  have horder : (renumberFrom now s 1 xs).orderedSlots c = rowsFrom now 1 xs :=
    orderedSlots_renumberFrom hperm
  refine ⟨?_, ?_, ?_, ?_, ?_⟩
  · rw [orderOf, horder, rowsFrom_ids]
  · rw [horder, rowsFrom_numbers, hperm.length_eq]
  · intro i x hi hx
    obtain ⟨y, hy, hid⟩ := Option.map_eq_some_iff.1 (List.getElem?_map.symm.trans hi)
    obtain rfl : y = x := by
      have hrow := hrows y (List.mem_of_getElem? hy)
      rw [hid, hx] at hrow
      exact (Option.some.inj hrow).symm
    have hplace : (y, 1 + (i : Int)) ∈ placesFrom 1 xs := by
      refine List.mem_of_getElem? (i := i) ?_
      rw [getElem?_placesFrom, hy, Option.map_some]
    rw [slot?_renumberFrom hnodup hrows hplace, Slot.numbered, Int.add_comm 1 i]
  · intro id hid
    refine slot?_renumberFrom_of_not_mem fun x hx hxid => hid ?_
    exact List.mem_map.2 ⟨x, hperm.mem_iff.1 hx, hxid⟩
  · have hrelabelled : s.Relabelled (renumberFrom now s 1 xs) :=
      renumberFrom_relabelled xs s Int.one_pos
    obtain ⟨f, hf, -, -, -, ht⟩ := hrelabelled
    rw [ht]

/-- The numbers `1, 2, …` can be read, as long as there are words for them. -/
theorem Reordered.readable {ids : List Id} (h : s.Reordered t now c ids)
    (hlength : (s.orderedSlots c).length ≤ Word.last) : t.Readable c := by
  intro x hx
  have hmem := List.mem_map_of_mem (f := Slot.seqno) (mem_orderedSlots.2 (mem_slotsOf.1 hx))
  rw [h.numbers, numbersTo] at hmem
  obtain ⟨i, hi, hseqno⟩ := List.mem_map.1 hmem
  have hlt := List.mem_range.1 hi
  exact decide_eq_true (show x.seqno ≤ Word.last by omega)

/-- The slots that are reported are in the order that is left, with the numbers that are left. -/
def ShowsOrder (t : Store) (c : Id) (items : List Slot) : Prop :=
  items.map (fun x => (x.id, x.seqno)) = (t.orderedSlots c).map fun x => (x.id, x.seqno)

theorem showsOrder_renumber (hperm : xs.Perm (s.orderedSlots c)) :
    (renumberFrom now s 1 xs).ShowsOrder c (numberedFrom 1 xs) := by
  rw [ShowsOrder, orderedSlots_renumberFrom hperm, numberedFrom_eq_map, rowsFrom, List.map_map,
    List.map_map]
  refine List.map_congr_left fun p _ => ?_
  simp only [Function.comp_apply, Slot.numbered_id, Slot.numbered_seqno]

/-! ### A slot moved to a position -/

/-- A slot that is reordered is numbered along the list in which it was moved from its position. -/
theorem reorder_eq (now : Time) {p old new : ℕ} (hc : s.hasCollection c = true)
    (hread : s.Readable c) (hx : (s.orderedSlots c)[p]? = some x) (hne : old ≠ new) :
    s.reorder now c x.id old new = .ok (s.renumber now
      (relocate (s.orderedSlots c) p (min new ((s.orderedSlots c).length - 1)))) := by
  obtain ⟨row, hrow⟩ := exists_requireCollection hc
  rw [reorder, hrow, readSlots_eq_ok.2 ⟨hread, rfl⟩]
  show (positionOf (s.orderedSlots c) c x.id >>= _) = _
  rw [positionOf_eq hx]
  show (if old = new then _ else _) = _
  rw [if_neg hne]
  rfl

theorem reorder_of_unreadable {old new : ℕ} (hc : s.hasCollection c = true)
    (hread : ¬ s.Readable c) :
    s.reorder now c id old new = .error (.storage .unreadableSeqno) := by
  obtain ⟨row, hrow⟩ := exists_requireCollection hc
  rw [reorder, hrow, readSlots_eq_error.2 ⟨hread, rfl⟩]
  rfl

/-- **A slot is taken out of the order and put in at the position that was asked for**, or at the
last one.  Whatever the numbers were, they are `1, 2, …` afterwards, and only the rows are written
whose number changes.  It does not matter where the slot was said to be.  It happens whenever the
numbers of the collection can be read, and only then. -/
theorem reorder_relocates (now : Time) {old new : ℕ} (hc : s.hasCollection c = true)
    (hx : x ∈ s.orderedSlots c) (hne : old ≠ new) :
    (s.Readable c → ∃ items t,
      s.reorder now c x.id old new = .ok (items, t) ∧ t.ShowsOrder c items ∧
        s.Reordered t now c
          (((s.orderOf c).erase x.id).insertIdx (min new ((s.orderOf c).length - 1)) x.id)) ∧
    (¬ s.Readable c → s.reorder now c x.id old new = .error (.storage .unreadableSeqno)) := by
  refine ⟨fun hread => ?_, reorder_of_unreadable hc⟩
  obtain ⟨p, hp⟩ := List.getElem?_of_mem hx
  have hrun := reorder_eq now hc hread hp hne
  generalize hxs : relocate (s.orderedSlots c) p (min new ((s.orderedSlots c).length - 1)) = xs
    at hrun
  have hperm : xs.Perm (s.orderedSlots c) := hxs ▸ relocate_perm (min_le_right ..)
  have hids : xs.map Slot.id =
      ((s.orderOf c).erase x.id).insertIdx (min new ((s.orderOf c).length - 1)) x.id := by
    rw [← relocate_eq_erase (s.nodup_orderOf c) (getElem?_orderOf hp), length_orderOf, orderOf,
      ← map_relocate _ (List.getElem?_eq_some_iff.1 hp).1, hxs]
  exact ⟨_, _, hrun, showsOrder_renumber hperm, hids ▸ reordered_renumber hperm⟩

/-- The slots of the shelf are in their order by number and by id. -/
theorem orderedSlots_uneven : ∃ s, Operation.runAll .empty Operation.uneven = .ok s ∧
    s.hasCollection "shelf" = true ∧ s.Readable "shelf" ∧ s.orderedSlots "shelf" = [
      .create "front" 1 "shelf" .empty 1,
      .create "left" 1 "shelf" .empty 5,
      .create "right" 1 "shelf" .empty 5] := by
  obtain ⟨s, hrun, hc, hread, hperm⟩ : ∃ s, Operation.runAll .empty Operation.uneven = .ok s ∧
      s.hasCollection "shelf" = true ∧ s.Readable "shelf" ∧ (s.slotsOf "shelf").Perm [
        .create "front" 1 "shelf" .empty 1,
        .create "left" 1 "shelf" .empty 5,
        .create "right" 1 "shelf" .empty 5] := exists_eq_ok_of_any (by decide +kernel)
  exact ⟨s, hrun, hc, hread, orderedSlots_of_precedes hperm (by decide +kernel)⟩

/-- The last slot goes to the second place, whatever place it was said to have. -/
theorem reorder_relocates_uneven : ∃ s items t,
    Operation.runAll .empty Operation.uneven = .ok s ∧
    s.orderOf "shelf" = ["front", "left", "right"] ∧
    s.reorder 2 "shelf" "right" 7 1 = .ok (items, t) ∧ t.ShowsOrder "shelf" items ∧
    s.Reordered t 2 "shelf" ["front", "right", "left"] := by
  obtain ⟨s, hrun, hc, hread, hordered⟩ := orderedSlots_uneven
  have hids : s.orderOf "shelf" = ["front", "left", "right"] := congrArg (List.map Slot.id) hordered
  have hx : Slot.create "right" 1 "shelf" .empty 5 ∈ s.orderedSlots "shelf" := by
    rw [hordered]
    decide
  have hne : 7 ≠ 1 := by decide
  obtain ⟨items, t, hreorder, hshows, hreordered⟩ := (reorder_relocates 2 hc hx hne).1 hread
  rw [hids] at hreordered
  exact ⟨s, items, t, hrun, hids, hreorder, hshows, hreordered⟩

/-- Room was made in front of a slot with the last word.  Its number cannot be read any more, so
that no slot of its collection can be moved. -/
theorem reorder_fails_unreadable : ∃ s x, Operation.runAll .empty Operation.displaced = .ok s ∧
    s.Reachable ∧ s.hasCollection "shelf" = true ∧ x ∈ s.orderedSlots "shelf" ∧ x.id = "guest" ∧
    s.reorder 3 "shelf" x.id 0 1 = .error (.storage .unreadableSeqno) := by
  obtain ⟨s, hrun, hc, hread, x, hx, howner, hid⟩ : ∃ s,
      Operation.runAll .empty Operation.displaced = .ok s ∧
      s.hasCollection "shelf" = true ∧ ¬ s.Readable "shelf" ∧
      ∃ x ∈ s.slots.rows, x.owner = "shelf" ∧ x.id = "guest" :=
    exists_eq_ok_of_any (by decide +kernel)
  exact ⟨s, x, hrun, .runAll .empty hrun, hc, mem_orderedSlots.2 ⟨hx, howner⟩, hid,
    reorder_of_unreadable hc hread⟩

/-! ### A slot exchanged with its neighbour -/

/-- The store after two slots of a collection were exchanged. -/
def exchanged (s : Store) (now : Time) (c : Id) (p q : ℕ) : Store :=
  renumberFrom now s 1 (exchange (s.orderedSlots c) p q)

section Exchange

variable {p q : ℕ} (hp : p < (s.orderedSlots c).length) (hq : q < (s.orderedSlots c).length)

include hp hq

theorem exchanged_reordered (now : Time) :
    s.Reordered (s.exchanged now c p q) now c (exchange (s.orderOf c) p q) := by
  rw [orderOf, ← map_exchange _ hp hq]
  exact reordered_renumber (exchange_perm ..)

theorem length_exchanged (now : Time) :
    ((s.exchanged now c p q).orderedSlots c).length = (s.orderedSlots c).length := by
  rw [← length_orderOf, (exchanged_reordered hp hq now).order, length_exchange, length_orderOf]

/-- The slot is found at the position of the other. -/
theorem getElem?_exchanged (now : Time) (hx : (s.orderedSlots c)[p]? = some x) :
    ((s.exchanged now c p q).orderedSlots c)[q]? = some (x.numbered now (1 + q)) := by
  rw [exchanged, orderedSlots_renumberFrom (exchange_perm ..), getElem?_rowsFrom,
    getElem?_exchange_right hp hq, hx, Option.map_some]

/-- Slots that are exchanged twice are in the order in which they were, without a gap. -/
theorem exchanged_back (hpq : p ≠ q) (now later : Time) :
    (s.exchanged now c p q).Reordered ((s.exchanged now c p q).exchanged later c q p) later c
      (s.orderOf c) := by
  have hlength := length_exchanged hp hq now
  have hback : (s.exchanged now c p q).Reordered ((s.exchanged now c p q).exchanged later c q p)
      later c (exchange ((s.exchanged now c p q).orderOf c) q p) :=
    exchanged_reordered (by omega) (by omega) later
  rwa [(exchanged_reordered hp hq now).order, exchange_exchange (by rwa [length_orderOf])
    (by rwa [length_orderOf]) hpq] at hback

end Exchange

theorem moveItem_eq (now : Time) {direction : Direction} {p : ℕ} (hc : s.hasCollection c = true)
    (hread : s.Readable c) (hx : (s.orderedSlots c)[p]? = some x) :
    s.moveItem now direction c x.id =
      match direction.neighbour? p (s.orderedSlots c).length with
      | none => .ok (s.orderedSlots c, s)
      | some q =>
        .ok (numberedFrom 1 (exchange (s.orderedSlots c) p q), s.exchanged now c p q) := by
  obtain ⟨row, hrow⟩ := exists_requireCollection hc
  rw [moveItem, hrow, readSlots_eq_ok.2 ⟨hread, rfl⟩]
  show (positionOf (s.orderedSlots c) c x.id >>= _) = _
  rw [positionOf_eq hx]
  rfl

theorem moveItem_of_unreadable {direction : Direction} (hc : s.hasCollection c = true)
    (hread : ¬ s.Readable c) :
    s.moveItem now direction c id = .error (.storage .unreadableSeqno) := by
  obtain ⟨row, hrow⟩ := exists_requireCollection hc
  rw [moveItem, hrow, readSlots_eq_error.2 ⟨hread, rfl⟩]
  rfl

/-- A slot with a neighbour is exchanged with it if the numbers of the slots can be read. -/
theorem moveItem_iff (now : Time) {direction : Direction} {p q : ℕ}
    (hc : s.hasCollection c = true) (hx : (s.orderedSlots c)[p]? = some x)
    (hq : direction.neighbour? p (s.orderedSlots c).length = some q) (r : List Slot × Store) :
    s.moveItem now direction c x.id = .ok r ↔ s.Readable c ∧
      (numberedFrom 1 (exchange (s.orderedSlots c) p q), s.exchanged now c p q) = r := by
  by_cases hread : s.Readable c
  · rw [moveItem_eq now hc hread hx, hq, Except.ok.injEq]
    exact (and_iff_right hread).symm
  · rw [moveItem_of_unreadable hc hread]
    simp only [reduceCtorEq, hread, false_and]

/-- Without a neighbour on that side nothing happens: the slots are read and reported. -/
theorem moveItem_stays {direction : Direction} {p : ℕ} (hc : s.hasCollection c = true)
    (hx : (s.orderedSlots c)[p]? = some x)
    (hnone : direction.neighbour? p (s.orderedSlots c).length = none) :
    s.moveItem now direction c x.id = (s.readSlots c).map fun items => (items, s) := by
  by_cases hread : s.Readable c
  · rw [moveItem_eq now hc hread hx, hnone, readSlots_eq_ok.2 ⟨hread, rfl⟩]
    rfl
  · rw [moveItem_of_unreadable hc hread, readSlots_eq_error.2 ⟨hread, rfl⟩]
    rfl

/-- A slot that is moved past a neighbour is reordered to the position of the neighbour. -/
theorem moveItem_eq_reorder {direction : Direction} {p q : ℕ} (hc : s.hasCollection c = true)
    (hx : (s.orderedSlots c)[p]? = some x)
    (hq : direction.neighbour? p (s.orderedSlots c).length = some q) :
    s.moveItem now direction c x.id = s.reorder now c x.id p q := by
  by_cases hread : s.Readable c
  · have hp := (List.getElem?_eq_some_iff.1 hx).1
    obtain ⟨hlt, hbeside⟩ := Direction.beside_of_neighbour? hp hq
    have hlast : min q ((s.orderedSlots c).length - 1) = q := by omega
    rw [moveItem_eq now hc hread hx, hq, reorder_eq now hc hread hx (by omega), hlast,
      ← exchange_eq_relocate hp hlt hbeside]
    rfl
  · rw [moveItem_of_unreadable hc hread, reorder_of_unreadable hc hread]

/-- A slot is moved to one side and back.  The slots of its collection are in the order in which
they were, and they have the numbers that they had if there was no gap. -/
structure Restores (s : Store) (now later : Time) (c id : Id) (direction : Direction) : Prop where
  moves : (∃ r, s.moveItem now direction c id = .ok r) ↔ s.Readable c
  /-- The slot can be moved back, because the new numbers are words as well.  They would be none
  only for more slots than there are words. -/
  movesBack : ∀ items t, s.moveItem now direction c id = .ok (items, t) →
    (s.orderedSlots c).length ≤ Word.last → ∃ r, t.moveItem later direction.opposite c id = .ok r
  order : ∀ items t items' u, s.moveItem now direction c id = .ok (items, t) →
    t.moveItem later direction.opposite c id = .ok (items', u) → u.orderOf c = s.orderOf c ∧
      ((s.orderedSlots c).map Slot.seqno = numbersTo (s.orderedSlots c).length →
        (u.orderedSlots c).map Slot.seqno = (s.orderedSlots c).map Slot.seqno)

/-- A slot that is moved to one side is the neighbour of its neighbour, and is moved back. -/
theorem restores_of_neighbour {direction : Direction} {p q : ℕ} (hc : s.hasCollection c = true)
    (hx : (s.orderedSlots c)[p]? = some x)
    (hq : direction.neighbour? p (s.orderedSlots c).length = some q) (now later : Time) :
    s.Restores now later c x.id direction := by
  have hp := (List.getElem?_eq_some_iff.1 hx).1
  obtain ⟨hlt, hbeside⟩ := Direction.beside_of_neighbour? hp hq
  have hmoves := moveItem_iff now hc hx hq
  have hc' : (s.exchanged now c p q).hasCollection c = true := by
    rw [(exchanged_reordered hp hlt now).rest]
    exact hc
  have hq' : direction.opposite.neighbour? q ((s.exchanged now c p q).orderedSlots c).length =
      some p := by
    rw [length_exchanged hp hlt now]
    exact Direction.neighbour?_back hp hq
  have hmovesBack := moveItem_iff later hc' (getElem?_exchanged hp hlt now hx) hq'
  rw [Slot.numbered_id] at hmovesBack
  have hback := exchanged_back hp hlt (by omega) now later
  refine ⟨?_, fun items t ht hlength => ?_, fun items t items' u ht hu => ?_⟩
  · exact ⟨fun ⟨r, hr⟩ => ((hmoves r).1 hr).1, fun hread => ⟨_, (hmoves _).2 ⟨hread, rfl⟩⟩⟩
  · obtain ⟨-, ht⟩ := (hmoves _).1 ht
    cases ht
    exact ⟨_, (hmovesBack _).2 ⟨(exchanged_reordered hp hlt now).readable hlength, rfl⟩⟩
  · obtain ⟨-, ht⟩ := (hmoves _).1 ht
    cases ht
    obtain ⟨-, hu⟩ := (hmovesBack _).1 hu
    cases hu
    refine ⟨hback.order, fun hdense => ?_⟩
    rw [hback.numbers, length_exchanged hp hlt now, hdense]

/-- **A move is a reorder by one, and a move back undoes it.**  Both report the same slots and leave
the same store, to the last row, or both are refused.  The first slot is not moved up and the last
one is not moved down: the slots are read and nothing is written then. -/
theorem moves_are_reorders {p : ℕ} (hc : s.hasCollection c = true)
    (hx : (s.orderedSlots c)[p]? = some x) (now later : Time) :
    (0 < p → s.moveItem now .up c x.id = s.reorder now c x.id p (p - 1) ∧
      s.Restores now later c x.id .up) ∧
    (p + 1 < (s.orderedSlots c).length →
      s.moveItem now .down c x.id = s.reorder now c x.id p (p + 1) ∧
        s.Restores now later c x.id .down) ∧
    (p = 0 → s.moveItem now .up c x.id = (s.readSlots c).map fun items => (items, s)) ∧
    (p + 1 = (s.orderedSlots c).length →
      s.moveItem now .down c x.id = (s.readSlots c).map fun items => (items, s)) := by
  refine ⟨fun hp => ?_, fun hp => ?_, fun hp => ?_, fun hp => ?_⟩
  · have hq : Direction.up.neighbour? p (s.orderedSlots c).length = some (p - 1) :=
      if_neg (by omega)
    exact ⟨moveItem_eq_reorder hc hx hq, restores_of_neighbour hc hx hq now later⟩
  · have hq : Direction.down.neighbour? p (s.orderedSlots c).length = some (p + 1) := if_pos hp
    exact ⟨moveItem_eq_reorder hc hx hq, restores_of_neighbour hc hx hq now later⟩
  · exact moveItem_stays hc hx (if_pos hp)
  · exact moveItem_stays hc hx (if_neg (by omega))

/-- The slot between the others is moved to either side and back. -/
theorem moves_are_reorders_uneven : ∃ s, Operation.runAll .empty Operation.uneven = .ok s ∧
    s.orderOf "shelf" = ["front", "left", "right"] ∧
    (s.moveItem 2 .up "shelf" "left" = s.reorder 2 "shelf" "left" 1 0 ∧
      s.Restores 2 3 "shelf" "left" .up) ∧
    (s.moveItem 2 .down "shelf" "left" = s.reorder 2 "shelf" "left" 1 2 ∧
      s.Restores 2 3 "shelf" "left" .down) := by
  obtain ⟨s, hrun, hc, -, hordered⟩ := orderedSlots_uneven
  have hx : (s.orderedSlots "shelf")[1]? = some (.create "left" 1 "shelf" .empty 5) := by
    rw [hordered]
    rfl
  obtain ⟨hup, hdown, -, -⟩ := moves_are_reorders hc hx 2 3
  exact ⟨s, hrun, congrArg (List.map Slot.id) hordered, hup Nat.one_pos,
    hdown (by rw [hordered]; decide)⟩

end Store

end Anthology
