/-
**Slots moved to a rank.**

A slot that is moved to a rank of a collection takes the number of the slot that is there, and the
slots from that number on make room for it.  So it stands behind all slots with a smaller number and
in front of all others, and these keep their order among themselves, whatever gaps and ties there
are.  What it stands at is the rank that was asked for, unless the slot in front of that rank has
the same number as the slot at it: then these two, and any others that are tied with them, all stand
behind the slot that came in.

Main definitions:

* `Anthology.Store.rowAfter` — the row of a slot after another one was moved;
* `Anthology.Store.Transplanted` — what is left when a slot was moved;
* `Anthology.Store.rankIn`, `Anthology.Store.Tied` — the rank that is asked for, and a tie at it.

Main results:

* `Anthology.Store.slots_transplant` — the rows after a move, in closed form;
* `Anthology.Store.orderedSlots_moved`, `Anthology.Store.orderedSlots_left` — the order of the
  collection that the slot came to, and of every other one;
* `Anthology.Store.transplant_succeeds_iff` — when a slot can be moved;
* `Anthology.Store.transplanted` — **nothing but the moved slot and those behind it is written**;
* `Anthology.Store.Reachable.at_rank_iff` — **a slot from another collection stands at the rank that
  was asked for exactly where there is no tie**.
-/

import Anthology.Proofs.Reorder
import Anthology.Proofs.Verdict

set_option relaxedAutoImplicit false
set_option autoImplicit false

namespace Anthology

/-- The shelf with a gap and a tie, and a box with two slots beside it, for examples. -/
def Operation.beside : List Operation := Operation.uneven ++ [
  .createCollection (.create "box" 0 "Box" .other),
  .addItem 1 "loose" "box" .empty ⟨some 4, none, none⟩,
  .addItem 1 "kept" "box" .empty ⟨some 9, none, none⟩]

/-- A slot that makes room for another one. -/
def Slot.shifted (now : Time) (x : Slot) : Slot := { x with seqno := x.seqno + 1, updatedAt := now }

theorem Slot.rank_shifted_lt {now : Time} {x y : Slot} (h : x.rank < y.rank) :
    (x.shifted now).rank < (y.shifted now).rank := by
  rcases Prod.Lex.toLex_lt_toLex.1 h with hseqno | ⟨hseqno, hid⟩
  · exact Slot.rank_lt (by simpa [shifted] using hseqno)
  · exact Prod.Lex.toLex_lt_toLex.2 (.inr ⟨by simpa [shifted] using hseqno, hid⟩)

/-- The store numbers the slot with the last word by a real number. -/
theorem Slot.isReadable_shifted {now : Time} {x : Slot} :
    (x.shifted now).isReadable = true ↔ x.seqno < Word.last := decide_eq_true_iff

theorem Slot.seqno_le_of_rank_lt {x y : Slot} (h : x.rank < y.rank) : x.seqno ≤ y.seqno := by
  rcases Prod.Lex.toLex_lt_toLex.1 h with hseqno | ⟨hseqno, -⟩
  · exact hseqno.le
  · exact hseqno.le

namespace Store

variable {s t : Store} {now : Time} {id dest c : Id} {rank n : Int} {x y old : Slot}
  {items : List Slot}

/-! ### The slots below a number -/

/-- The slots with a smaller number. -/
def slotsBelow (n : Int) (items : List Slot) : List Slot := items.filter fun y => y.seqno < n

/-- The slots with this number or a greater one. -/
def slotsFrom (n : Int) (items : List Slot) : List Slot := items.filter fun y => n ≤ y.seqno

theorem mem_slotsBelow : y ∈ slotsBelow n items ↔ y ∈ items ∧ y.seqno < n := by
  simp [slotsBelow]

theorem mem_slotsFrom : y ∈ slotsFrom n items ↔ y ∈ items ∧ n ≤ y.seqno := by
  simp [slotsFrom]

/-- A number cuts a list in order in two. -/
theorem slotsBelow_append_slotsFrom (hsorted : items.Pairwise fun x y => x.rank < y.rank)
    (n : Int) : slotsBelow n items ++ slotsFrom n items = items := by
  induction items with
  | nil => rfl
  | cons x items ih =>
      obtain ⟨hx, hitems⟩ := List.pairwise_cons.1 hsorted
      rw [slotsBelow, slotsFrom]
      by_cases hn : x.seqno < n
      · rw [List.filter_cons_of_pos (by simpa using hn),
          List.filter_cons_of_neg (by simpa using hn), List.cons_append]
        exact congrArg _ (ih hitems)
      · -- no slot behind the first one has a smaller number
        have hnone : items.filter (fun y => decide (y.seqno < n)) = [] := by
          refine List.filter_eq_nil_iff.2 fun y hy => ?_
          have := Slot.seqno_le_of_rank_lt (hx y hy)
          simp only [decide_eq_true_eq]
          omega
        have hall : items.filter (fun y => decide (n ≤ y.seqno)) = items := by
          refine List.filter_eq_self.2 fun y hy => ?_
          have := Slot.seqno_le_of_rank_lt (hx y hy)
          simp only [decide_eq_true_eq]
          omega
        rw [List.filter_cons_of_neg (by simpa using hn),
          List.filter_cons_of_pos (by simpa using hn), hnone, hall, List.nil_append]

/-- The slots with a smaller number stand in front. -/
theorem lt_length_slotsBelow_iff (hsorted : items.Pairwise fun x y => x.rank < y.rank) {i : ℕ}
    (hy : items[i]? = some y) : i < (slotsBelow n items).length ↔ y.seqno < n := by
  rw [← slotsBelow_append_slotsFrom hsorted n] at hy
  constructor
  · intro hi
    rw [List.getElem?_append_left hi] at hy
    exact (mem_slotsBelow.1 (List.mem_of_getElem? hy)).2
  · intro hn
    by_contra hi
    rw [List.getElem?_append_right (by omega)] at hy
    have := (mem_slotsFrom.1 (List.mem_of_getElem? hy)).2
    omega

/-! ### The rows after a move -/

/-- The row of a slot after another one was moved, which has become `x`. -/
def rowAfter (now : Time) (x y : Slot) : Slot :=
  if y.id = x.id then x
  else if y.owner = x.owner ∧ x.seqno ≤ y.seqno then y.shifted now
  else y

theorem rowAfter_self (h : y.id = x.id) : rowAfter now x y = x := if_pos h

theorem rowAfter_behind (hid : y.id ≠ x.id) (howner : y.owner = x.owner)
    (hseqno : x.seqno ≤ y.seqno) : rowAfter now x y = y.shifted now := by
  rw [rowAfter, if_neg hid, if_pos ⟨howner, hseqno⟩]

theorem rowAfter_other (hid : y.id ≠ x.id) (h : ¬ (y.owner = x.owner ∧ x.seqno ≤ y.seqno)) :
    rowAfter now x y = y := by
  rw [rowAfter, if_neg hid, if_neg h]

theorem rowAfter_id (now : Time) (x y : Slot) : (rowAfter now x y).id = y.id := by
  unfold rowAfter
  split
  · exact Eq.symm ‹_›
  · split <;> rfl

theorem rowAfter_owner (hid : y.id ≠ x.id) : (rowAfter now x y).owner = y.owner := by
  rw [rowAfter, if_neg hid]
  split <;> rfl

/-- The row of a slot after room was made in a collection, from a number on, for the slot `id`. -/
def roomMade (now : Time) (dest : Id) (n : Int) (id : Id) (y : Slot) : Slot :=
  if y.owner = dest ∧ n ≤ y.seqno ∧ y.id ≠ id then y.shifted now else y

theorem rowAfter_item (h : y.id = x.id → x.item = y.item) :
    (rowAfter now x y).item = y.item := by
  unfold rowAfter
  split
  · exact h ‹_›
  · split <;> rfl

/-- First room is made and then the slot is moved, which is one step for each row. -/
theorem rowAfter_eq (hy : y ∈ s.slots.rows) (hold : old ∈ s.slots.rows) (dest : Id) (n : Int) :
    (if (roomMade now dest n old.id y).id = old.id
      then moved now dest n (roomMade now dest n old.id y)
      else roomMade now dest n old.id y) = rowAfter now (moved now dest n old) y := by
  by_cases hid : y.id = old.id
  · -- the only slot with this id is the one that is moved, and it does not make room for itself
    obtain rfl : y = old := Table.eq_of_key_eq hy hold hid
    have hstays : roomMade now dest n y.id y = y := if_neg fun h => h.2.2 rfl
    have hrow : rowAfter now (moved now dest n y) y = moved now dest n y := rowAfter_self rfl
    rw [hstays, if_pos rfl, hrow]
  · by_cases hbehind : y.owner = dest ∧ n ≤ y.seqno
    · have hshifted : roomMade now dest n old.id y = y.shifted now :=
        if_pos ⟨hbehind.1, hbehind.2, hid⟩
      have hrow : rowAfter now (moved now dest n old) y = y.shifted now :=
        rowAfter_behind hid hbehind.1 hbehind.2
      rw [hshifted, hrow]
      exact if_neg hid
    · have hstays : roomMade now dest n old.id y = y := if_neg fun h => hbehind ⟨h.1, h.2.1⟩
      have hrow : rowAfter now (moved now dest n old) y = y := rowAfter_other hid hbehind
      rw [hstays, if_neg hid, hrow]

/-- A slot is moved, and nothing else happens to the slots than that some make room for it. -/
theorem slots_transplant [Arithmetic] (h : s.transplant now id dest rank = .ok (x, t)) :
    ∃ old, s.slot? id = some old ∧ x = moved now dest (numberAt (s.orderedSlots dest) rank) old ∧
      t.slots = s.slots.update (rowAfter now x) (rowAfter_id now x) := by
  obtain ⟨old, n, u, hold, -, -, rfl, rfl, rfl, rfl⟩ := transplant_eq_ok h
  obtain ⟨hmem, rfl⟩ := slot?_eq_some.1 hold
  refine ⟨old, hold, rfl, Table.ext ?_⟩
  show (s.slots.rows.map _).map _ = s.slots.rows.map _
  rw [List.map_map]
  exact List.map_congr_left fun y hy => rowAfter_eq hy hmem dest _

/-! ### The order after a move -/

/-- The slots of a collection without the one that is moved. -/
def othersOf (s : Store) (c id : Id) : List Slot := (s.orderedSlots c).filter fun y => y.id ≠ id

theorem mem_othersOf : y ∈ s.othersOf c id ↔ y ∈ s.slots.rows ∧ y.owner = c ∧ y.id ≠ id := by
  simp [othersOf, and_assoc]

theorem othersOf_ids (s : Store) (c id : Id) :
    (s.othersOf c id).map Slot.id = (s.orderOf c).erase id := by
  rw [(s.nodup_orderOf c).erase_eq_filter, orderOf, List.filter_map, othersOf]
  refine congrArg (List.map Slot.id) (List.filter_congr fun y _ => Bool.eq_iff_iff.2 ?_)
  simp

theorem pairwise_othersOf (s : Store) (c id : Id) :
    (s.othersOf c id).Pairwise fun x y => x.rank < y.rank :=
  (s.orderedSlots_pairwise c).filter _

section Moved

variable (hslots : t.slots = s.slots.update (rowAfter now x) (rowAfter_id now x))

include hslots

theorem slot?_moved (k : Id) : t.slot? k = (s.slot? k).map (rowAfter now x) := by
  rw [slot?, hslots, Table.find?_update]
  rfl

theorem mem_rows_moved : y ∈ t.slots.rows ↔ ∃ z ∈ s.slots.rows, rowAfter now x z = y := by
  rw [hslots, Table.rows_update, List.mem_map]

/-- A collection to which the slot did not come keeps the others in their order. -/
theorem orderedSlots_left (hc : c ≠ x.owner) : t.orderedSlots c = s.othersOf c x.id := by
  refine orderedSlots_eq_of_mem (fun y => ?_) (s.pairwise_othersOf c x.id)
  rw [mem_slotsOf, mem_othersOf, mem_rows_moved hslots]
  constructor
  · rintro ⟨⟨z, hz, rfl⟩, howner⟩
    have hid : z.id ≠ x.id := fun hid => hc (howner.symm.trans (congrArg _ (rowAfter_self hid)))
    rw [rowAfter_owner hid] at howner
    rw [rowAfter_other hid fun h => hc (howner.symm.trans h.1)]
    exact ⟨hz, howner, hid⟩
  · rintro ⟨hy, howner, hid⟩
    exact ⟨⟨y, hy, rowAfter_other hid fun h => hc (howner.symm.trans h.1)⟩, howner⟩

/-- The slot stands behind those with a smaller number, and the others make room for it. -/
theorem orderedSlots_moved (hx : x ∈ t.slots.rows) :
    t.orderedSlots x.owner = slotsBelow x.seqno (s.othersOf x.owner x.id) ++
      x :: (slotsFrom x.seqno (s.othersOf x.owner x.id)).map (Slot.shifted now) := by
  refine orderedSlots_eq_of_mem (fun y => ?_) ?_
  · rw [mem_slotsOf, mem_rows_moved hslots, List.mem_append, List.mem_cons, List.mem_map]
    simp only [mem_slotsBelow, mem_slotsFrom, mem_othersOf]
    constructor
    · rintro ⟨⟨z, hz, rfl⟩, howner⟩
      by_cases hid : z.id = x.id
      · exact .inr (.inl (rowAfter_self hid))
      · rw [rowAfter_owner hid] at howner
        by_cases hseqno : x.seqno ≤ z.seqno
        · exact .inr (.inr ⟨z, ⟨⟨hz, howner, hid⟩, hseqno⟩,
            (rowAfter_behind hid howner hseqno).symm⟩)
        · rw [rowAfter_other hid fun h => hseqno h.2]
          exact .inl ⟨⟨hz, howner, hid⟩, Int.not_le.1 hseqno⟩
    · rintro (⟨⟨hy, howner, hid⟩, hseqno⟩ | rfl | ⟨z, ⟨⟨hz, howner, hid⟩, hseqno⟩, rfl⟩)
      · exact ⟨⟨y, hy, rowAfter_other hid fun h => Int.not_le.2 hseqno h.2⟩, howner⟩
      · exact ⟨(mem_rows_moved hslots).1 hx, rfl⟩
      · exact ⟨⟨z, hz, rowAfter_behind hid howner hseqno⟩, howner⟩
  · have hothers := s.pairwise_othersOf x.owner x.id
    refine List.pairwise_append.2 ⟨hothers.filter _, List.pairwise_cons.2 ⟨fun y hy => ?_, ?_⟩, ?_⟩
    · obtain ⟨z, hz, rfl⟩ := List.mem_map.1 hy
      have hseqno := (mem_slotsFrom.1 hz).2
      exact Slot.rank_lt (Int.lt_add_one_iff.2 hseqno)
    · exact List.pairwise_map.2 ((hothers.filter _).imp Slot.rank_shifted_lt)
    · intro y hy z hz
      have hbelow := (mem_slotsBelow.1 hy).2
      rcases List.mem_cons.1 hz with rfl | hz
      · exact Slot.rank_lt hbelow
      · obtain ⟨w, hw, rfl⟩ := List.mem_map.1 hz
        have hseqno := (mem_slotsFrom.1 hw).2
        exact Slot.rank_lt (hbelow.trans (Int.lt_add_one_iff.2 hseqno))

end Moved

/-! ### What a move leaves -/

/-- What is left when the slot `old` was moved and has become `x`. -/
structure Transplanted (s t : Store) (now : Time) (dest : Id) (old x : Slot) : Prop where
  /-- The slot that is moved keeps everything but its collection, its number and its time. -/
  row : x = { old with owner := dest, seqno := x.seqno, updatedAt := now }
  /-- No slot comes or goes, and none refers to something else. -/
  items : ∀ id, (t.slot? id).map Slot.item = (s.slot? id).map Slot.item
  /-- Only this slot is written and those of the collection with its number or a greater one. -/
  rows : ∀ id y, s.slot? id = some y → t.slot? id = some (
    if y.id = x.id then x
    else if y.owner = dest ∧ x.seqno ≤ y.seqno then
      { y with seqno := y.seqno + 1, updatedAt := now }
    else y)
  /-- The other slots of the collection keep their order. -/
  order : (t.orderOf dest).erase x.id = (s.orderOf dest).erase x.id
  /-- No other slot of the collection has its number, those with a smaller one stand in front of it,
  and all others behind it. -/
  place : ∃ front back, t.orderedSlots dest = front ++ x :: back ∧
    (∀ y ∈ front, y.seqno < x.seqno) ∧ ∀ y ∈ back, x.seqno < y.seqno
  /-- A slot that makes room can be read afterwards exactly where its number was not the last
  word. -/
  readable : ∀ id y z, s.slot? id = some y → y.owner = dest → y.id ≠ x.id → x.seqno ≤ y.seqno →
    t.slot? id = some z → (z.isReadable = true ↔ y.seqno < Word.last)
  /-- Any other collection, among them the one from which the slot came, keeps its other slots as
  they are, gaps included. -/
  left : ∀ c, c ≠ dest → t.orderedSlots c = (s.orderedSlots c).filter fun y => y.id ≠ x.id

/-- **Nothing but the slot that is moved and those behind it is written.** -/
theorem transplanted [Arithmetic] (h : s.transplant now id dest rank = .ok (x, t)) :
    ∃ old, s.slot? id = some old ∧ s.Transplanted t now dest old x := by
  obtain ⟨old, hold, hx, hslots⟩ := slots_transplant h
  obtain ⟨hmem, hid⟩ := slot?_eq_some.1 hold
  obtain rfl : x.owner = dest := congrArg Slot.owner hx
  have hsame : x.id = old.id ∧ x.item = old.item := by
    rw [hx]
    exact ⟨rfl, rfl⟩
  have hstored : x ∈ t.slots.rows :=
    (mem_rows_moved hslots).2 ⟨old, hmem, rowAfter_self hsame.1.symm⟩
  have hordered := orderedSlots_moved hslots hstored
  refine ⟨old, hold, ?_, fun k => ?_, fun k y hy => ?_, ?_, ?_,
    fun k y z hy howner hyx hseqno hz => ?_, fun c hc => ?_⟩
  · rw [hx]
    rfl
  · rw [slot?_moved hslots, Option.map_map]
    refine Option.map_congr fun y hy => rowAfter_item fun hyx => ?_
    -- the only slot with this id is the one that is moved
    have hyold : y = old := Table.eq_of_key_eq (slot?_eq_some.1 hy).1 hmem (hyx.trans hsame.1)
    rw [hyold, hsame.2]
  · rw [slot?_moved hslots, hy]
    rfl
  · have hfront : x.id ∉ (slotsBelow x.seqno (s.othersOf x.owner x.id)).map Slot.id := by
      rintro hmem
      obtain ⟨y, hy, hyx⟩ := List.mem_map.1 hmem
      exact (mem_othersOf.1 (mem_slotsBelow.1 hy).1).2.2 hyx
    have hids : Slot.id ∘ Slot.shifted now = Slot.id := rfl
    rw [orderOf, hordered, List.map_append, List.map_cons, List.map_map, hids,
      List.erase_append_right _ hfront, List.erase_cons_head, ← List.map_append,
      slotsBelow_append_slotsFrom (s.pairwise_othersOf _ _), othersOf_ids]
  · refine ⟨_, _, hordered, fun y hy => (mem_slotsBelow.1 hy).2, fun y hy => ?_⟩
    obtain ⟨z, hz, rfl⟩ := List.mem_map.1 hy
    exact Int.lt_add_one_iff.2 (mem_slotsFrom.1 hz).2
  · rw [slot?_moved hslots, hy, Option.map_some, rowAfter_behind hyx howner hseqno] at hz
    rw [← Option.some.inj hz]
    exact Slot.isReadable_shifted
  · exact orderedSlots_left hslots hc

/-- A slot can be moved exactly where the guard lets its reference pass, the numbers that are read
can be read, and the number for the rank is a word. -/
theorem transplant_succeeds_iff [Arithmetic] (hl : s.Lawful) (now : Time) :
    (∃ x t, s.transplant now id dest rank = .ok (x, t)) ↔
      (∃ old, s.requireSlot id = .ok old ∧ s.guard dest old.item = .ok ()) ∧
        s.hasCollection dest = true ∧ s.Readable dest ∧
          numberAt (s.orderedSlots dest) rank ≤ Word.last := by
  have hnumber : s.Readable dest → ((∃ n, seqnoAt (s.orderedSlots dest) rank = .ok n ∧ 0 < n) ↔
      numberAt (s.orderedSlots dest) rank ≤ Word.last) := fun hread =>
    exists_seqnoAt_iff (fun y hy => hl.seqno y (mem_orderedSlots.1 hy).1)
      (fun y hy => decide_eq_true_iff.1 (hread y (mem_slotsOf.2 (mem_orderedSlots.1 hy)))) rank
  constructor
  · rintro ⟨x, t, h⟩
    simp only [transplant, bind_eq_ok, requireCollection_eq_ok, readSlots_eq_ok, ensure_eq_ok,
      decide_eq_true_eq] at h
    obtain ⟨old, hold, row, hrow, _, hguard, _, ⟨hread, rfl⟩, n, hn, _, hpos, -⟩ := h
    exact ⟨⟨old, hold, hguard⟩, hasCollection_of_collection? hrow, hread,
      (hnumber hread).1 ⟨n, hn, hpos⟩⟩
  · rintro ⟨⟨old, hold, hguard⟩, hdest, hread, hfits⟩
    obtain ⟨n, hn, hpos⟩ := (hnumber hread).2 hfits
    have hguarded : Placement.Guarded s _ dest old.item (s.transplant now id dest rank) :=
      Placement.guarded_transplant hold hdest (readSlots_eq_ok.2 ⟨hread, rfl⟩) hn hpos
    obtain ⟨x, t, hrun, -⟩ := hguarded.passed hguard hl.owner
    exact ⟨x, t, hrun⟩

/-- The slots of the shelf are in order, and a slot of the box can be moved there. -/
theorem exists_transplant_beside (rank : Int) : ∃ s x t,
    Operation.runAll .empty Operation.beside = .ok s ∧
    s.orderedSlots "shelf" = [
      .create "front" 1 "shelf" .empty 1,
      .create "left" 1 "shelf" .empty 5,
      .create "right" 1 "shelf" .empty 5] ∧
    s.slot? "loose" = some (.create "loose" 1 "box" .empty 4) ∧
    s.transplant 2 "loose" "shelf" rank = .ok (x, t) := by
  obtain ⟨s, hrun, hdest, hread, hperm, hold⟩ : ∃ s,
      Operation.runAll .empty Operation.beside = .ok s ∧
      s.hasCollection "shelf" = true ∧ s.Readable "shelf" ∧
      (s.slotsOf "shelf").Perm [
        .create "front" 1 "shelf" .empty 1,
        .create "left" 1 "shelf" .empty 5,
        .create "right" 1 "shelf" .empty 5] ∧
      s.slot? "loose" = some (.create "loose" 1 "box" .empty 4) :=
    exists_eq_ok_of_any (by decide +kernel)
  have hordered := orderedSlots_of_precedes hperm (by decide +kernel)
  have hfits : numberAt (s.orderedSlots "shelf") rank ≤ Word.last := by
    rw [hordered]
    exact numberAt_le_last (by decide) rank
  obtain ⟨x, t, hmove⟩ := (transplant_succeeds_iff (Reachable.runAll .empty hrun).lawful 2).2
    ⟨⟨_, requireSlot_eq_ok.2 ⟨hold, by decide⟩, rfl⟩, hdest, hread, hfits⟩
  exact ⟨s, x, t, hrun, hordered, hold, hmove⟩

/-- A slot of the box comes to the shelf, where two slots make room for it. -/
theorem transplanted_beside : ∃ s x t, Operation.runAll .empty Operation.beside = .ok s ∧
    s.transplant 2 "loose" "shelf" 2 = .ok (x, t) ∧ x.seqno = 5 ∧
    ∃ old, s.slot? "loose" = some old ∧ s.Transplanted t 2 "shelf" old x := by
  obtain ⟨s, x, t, hrun, hordered, -, hmove⟩ := exists_transplant_beside 2
  obtain ⟨old, -, hx, -⟩ := slots_transplant hmove
  rw [hordered] at hx
  exact ⟨s, x, t, hrun, hmove, congrArg Slot.seqno hx, transplanted hmove⟩

/-! ### The rank -/

/-- The rank, counted from one, that is asked for among so many other slots. -/
def rankIn (n : ℕ) (rank : Int) : ℕ :=
  if rank ≤ 1 then 1 else if rank ≤ n then rank.toNat else n + 1

/-- The slot at the rank has the same number as the slot in front of it. -/
def Tied (items : List Slot) (rank : Int) : Prop :=
  ∃ y z, 1 < rank ∧ items[rank.toNat - 2]? = some y ∧ items[rank.toNat - 1]? = some z ∧
    y.seqno = z.seqno

/-- The number of the first slot is one, which no slot is below. -/
theorem slotsBelow_numberAt_first (hpos : ∀ y ∈ items, 0 < y.seqno) (hrank : rank ≤ 1) :
    slotsBelow (numberAt items rank) items = [] := by
  rw [numberAt, if_pos hrank]
  refine List.filter_eq_nil_iff.2 fun y hy => ?_
  have := hpos y hy
  simp only [decide_eq_true_eq]
  omega

/-- Past the end the number is above all. -/
theorem slotsBelow_numberAt_last (hsorted : items.Pairwise fun x y => x.rank < y.rank)
    (hone : 1 < rank) (hrank : items.length < rank) :
    slotsBelow (numberAt items rank) items = items := by
  have hnone : items[rank.toNat - 1]? = none := List.getElem?_eq_none (by omega)
  rw [numberAt, if_neg (by omega), hnone]
  refine List.filter_eq_self.2 fun y hy => ?_
  cases hlast : items.getLast? with
  | none =>
      rw [List.getLast?_eq_none_iff.1 hlast] at hy
      exact absurd hy List.not_mem_nil
  | some z =>
      obtain ⟨front, rfl⟩ := List.getLast?_eq_some_iff.1 hlast
      have hle : y.seqno ≤ z.seqno := by
        rcases List.mem_append.1 hy with hy | hy
        · exact Slot.seqno_le_of_rank_lt ((List.pairwise_append.1 hsorted).2.2 y hy z (by simp))
        · rw [List.mem_singleton.1 hy]
      exact decide_eq_true (Int.lt_add_one_iff.2 hle)

/-- Between these, the slots below are those in front of the rank, unless there is a tie. -/
theorem length_slotsBelow_numberAt (hsorted : items.Pairwise fun x y => x.rank < y.rank)
    (hone : 1 < rank) (hrank : rank ≤ items.length) :
    (slotsBelow (numberAt items rank) items).length < rank.toNat ∧
      ((slotsBelow (numberAt items rank) items).length = rank.toNat - 1 ↔ ¬ Tied items rank) := by
  have hlt : rank.toNat - 1 < items.length := by omega
  obtain ⟨z, hz⟩ : ∃ z, items[rank.toNat - 1]? = some z := ⟨_, List.getElem?_eq_getElem hlt⟩
  obtain ⟨y, hy⟩ : ∃ y, items[rank.toNat - 2]? = some y :=
    ⟨_, List.getElem?_eq_getElem (by omega)⟩
  have hnumber : numberAt items rank = z.seqno := by rw [numberAt, if_neg (by omega), hz]
  have htied : Tied items rank ↔ y.seqno = z.seqno := by
    constructor
    · rintro ⟨y', z', -, hy', hz', heq⟩
      rw [hy] at hy'
      rw [hz] at hz'
      cases hy'
      cases hz'
      exact heq
    · exact fun heq => ⟨y, z, hone, hy, hz, heq⟩
  have hle : y.seqno ≤ z.seqno := by
    obtain ⟨hi, rfl⟩ := List.getElem?_eq_some_iff.1 hy
    obtain ⟨hj, rfl⟩ := List.getElem?_eq_some_iff.1 hz
    exact Slot.seqno_le_of_rank_lt (List.pairwise_iff_getElem.1 hsorted _ _ hi hj (by omega))
  -- the slot at the rank is not below its own number, and the one in front is where it is smaller
  have hat : ¬ rank.toNat - 1 < (slotsBelow z.seqno items).length := by
    rw [lt_length_slotsBelow_iff hsorted hz]
    exact lt_irrefl _
  have hfront : rank.toNat - 2 < (slotsBelow z.seqno items).length ↔ y.seqno < z.seqno :=
    lt_length_slotsBelow_iff hsorted hy
  rw [hnumber, htied]
  omega

/-- There are never more slots below the number than in front of the rank, and as many exactly where
there is no tie. -/
theorem length_slotsBelow_iff (hsorted : items.Pairwise fun x y => x.rank < y.rank)
    (hpos : ∀ y ∈ items, 0 < y.seqno) (rank : Int) :
    (slotsBelow (numberAt items rank) items).length < rankIn items.length rank ∧
      ((slotsBelow (numberAt items rank) items).length = rankIn items.length rank - 1 ↔
        ¬ Tied items rank) := by
  by_cases hone : rank ≤ 1
  · have huntied : ¬ Tied items rank := by
      rintro ⟨_, _, hlt, -⟩
      omega
    rw [slotsBelow_numberAt_first hpos hone, rankIn, if_pos hone]
    exact ⟨Nat.one_pos, iff_of_true rfl huntied⟩
  · by_cases hrank : rank ≤ items.length
    · rw [rankIn, if_neg hone, if_pos hrank]
      exact length_slotsBelow_numberAt hsorted (by omega) hrank
    · have huntied : ¬ Tied items rank := by
        rintro ⟨_, z, -, -, hz, -⟩
        have := (List.getElem?_eq_some_iff.1 hz).1
        omega
      rw [slotsBelow_numberAt_last hsorted (by omega) (by omega), rankIn, if_neg hone, if_neg hrank]
      exact ⟨Nat.lt_succ_self _, iff_of_true rfl huntied⟩

/-- A slot from another collection stands behind the slots that are below its number, and in front
of all others. -/
theorem orderedSlots_arrived [Arithmetic] (hold : s.slot? id = some old) (hout : old.owner ≠ dest)
    (hrun : s.transplant now id dest rank = .ok (x, t)) :
    x.seqno = numberAt (s.orderedSlots dest) rank ∧
    t.orderedSlots dest = slotsBelow x.seqno (s.orderedSlots dest) ++
      x :: (slotsFrom x.seqno (s.orderedSlots dest)).map (Slot.shifted now) := by
  obtain ⟨old', hold', hx, hslots⟩ := slots_transplant hrun
  obtain rfl : old' = old := Option.some.inj (hold'.symm.trans hold)
  obtain ⟨hmem, -⟩ := slot?_eq_some.1 hold
  have hnew : x.id = old'.id ∧ x.owner = dest ∧ x.seqno = numberAt (s.orderedSlots dest) rank := by
    rw [hx]
    exact ⟨rfl, rfl, rfl⟩
  obtain ⟨hsame, rfl, hseqno⟩ := hnew
  -- no slot that is there has the id of the one that comes
  have hothers : s.othersOf x.owner x.id = s.orderedSlots x.owner := by
    refine List.filter_eq_self.2 fun y hy => decide_eq_true fun hyx => hout ?_
    obtain ⟨hy, howner⟩ := mem_orderedSlots.1 hy
    rw [← Table.eq_of_key_eq hy hmem (hyx.trans hsame), howner]
  have hordered := orderedSlots_moved hslots
    ((mem_rows_moved hslots).2 ⟨old', hmem, rowAfter_self hsame.symm⟩)
  rw [hothers] at hordered
  exact ⟨hseqno, hordered⟩

/-- **A slot from another collection stands at the rank that was asked for exactly where there is no
tie.**  Otherwise it stands in front of it. -/
theorem Reachable.at_rank_iff [Arithmetic] (h : s.Reachable) (hold : s.slot? id = some old)
    (hout : old.owner ≠ dest) (hrun : s.transplant now id dest rank = .ok (x, t)) :
    (∃ i < rankIn (s.orderedSlots dest).length rank, (t.orderedSlots dest)[i]? = some x) ∧
    ((t.orderedSlots dest)[rankIn (s.orderedSlots dest).length rank - 1]? = some x ↔
      ¬ Tied (s.orderedSlots dest) rank) := by
  obtain ⟨hseqno, hordered⟩ := orderedSlots_arrived hold hout hrun
  have hplace : (t.orderedSlots dest)[(slotsBelow x.seqno (s.orderedSlots dest)).length]? =
      some x := by
    rw [hordered, List.getElem?_append_right le_rfl, Nat.sub_self, List.getElem?_cons_zero]
  have hpos : ∀ y ∈ s.orderedSlots dest, 0 < y.seqno := fun y hy =>
    h.lawful.seqno y (mem_orderedSlots.1 hy).1
  obtain ⟨hfront, huntied⟩ := length_slotsBelow_iff (s.orderedSlots_pairwise dest) hpos rank
  rw [← hseqno] at hfront huntied
  refine ⟨⟨_, hfront, hplace⟩, ?_⟩
  rw [← huntied]
  constructor
  · intro hrank
    have hlt := (List.getElem?_eq_some_iff.1 hplace).1
    exact (List.getElem?_inj hlt (t.nodup_orderedSlots dest)).1 (hplace.trans hrank.symm)
  · intro heq
    rw [← heq]
    exact hplace

/-- The second of three slots is not tied with the first, so the slot from the box comes between
them. -/
theorem at_rank_iff_beside : ∃ s x t, Operation.runAll .empty Operation.beside = .ok s ∧
    s.orderOf "shelf" = ["front", "left", "right"] ∧
    s.transplant 2 "loose" "shelf" 2 = .ok (x, t) ∧ (t.orderedSlots "shelf")[1]? = some x := by
  obtain ⟨s, x, t, hrun, hordered, hold, hmove⟩ := exists_transplant_beside 2
  have huntied : ¬ Tied (s.orderedSlots "shelf") 2 := by
    rintro ⟨y, z, -, hy, hz, hseqno⟩
    rw [hordered] at hy hz
    cases hy
    cases hz
    exact absurd hseqno (by decide)
  have hrank := ((Reachable.runAll .empty hrun).at_rank_iff hold (by decide) hmove).2.2 huntied
  rw [hordered] at hrank
  exact ⟨s, x, t, hrun, congrArg (List.map Slot.id) hordered, hmove, hrank⟩

/-- The third slot is tied with the second, so the slot that was to stand third stands second. -/
theorem rank_missed_beside : ∃ s x t, Operation.runAll .empty Operation.beside = .ok s ∧
    s.Reachable ∧ s.orderOf "shelf" = ["front", "left", "right"] ∧
    (∃ old, s.slot? "loose" = some old ∧ old.owner ≠ "shelf") ∧
    s.transplant 2 "loose" "shelf" 3 = .ok (x, t) ∧
    t.orderOf "shelf" = ["front", "loose", "left", "right"] ∧
    (t.orderedSlots "shelf")[rankIn 3 3 - 1]? ≠ some x := by
  obtain ⟨s, x, t, hrun, hordered, hold, hmove⟩ := exists_transplant_beside 3
  have hout : "box" ≠ "shelf" := by decide
  obtain ⟨hseqno, hafter⟩ := orderedSlots_arrived hold hout hmove
  obtain ⟨old, hold', hx, -⟩ := slots_transplant hmove
  have hid : x.id = "loose" := by
    rw [hx]
    exact (slot?_eq_some.1 hold').2
  rw [hordered] at hseqno hafter
  have hnumber : x.seqno = 5 := hseqno
  rw [hnumber] at hafter
  have horder : t.orderOf "shelf" = ["front", "loose", "left", "right"] := by
    rw [orderOf, hafter, ← hid]
    rfl
  refine ⟨s, x, t, hrun, .runAll .empty hrun, congrArg (List.map Slot.id) hordered,
    ⟨_, hold, hout⟩, hmove, horder, fun hrank => ?_⟩
  have hthird := getElem?_orderOf hrank
  rw [horder, hid] at hthird
  exact absurd hthird (by decide)

end Store

end Anthology
