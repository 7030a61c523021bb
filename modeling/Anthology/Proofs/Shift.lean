/-
**Slots moved to a rank of their own collection.**

There are two ways to send a slot to another place in its collection.  A reorder takes the slot out
of the list first, and then counts positions among the others.  A move to a rank looks up the number
of the slot that is at the rank while the moved one is still in the list, and puts it in front of
that slot.  Where the slot goes forward, stays or goes past the end the two agree.  But on its way
back to a rank that is taken the slot passes the place that it leaves, the others close up behind
it, and it stands one position short of where the reorder to that rank would put it.

Main definitions:

* `Anthology.Store.landing` — the position to which a slot is reordered by a move to a rank.

Main results:

* `Anthology.Store.orderOf_moved_within` — the order after a move to a rank of the own collection;
* `Anthology.Store.length_slotsBelow_numberAt_others` — how many slots the moved one stands behind;
* `Anthology.Store.Reachable.transplant_within` — **a move to a rank is a reorder**, to that rank
  or, where the slot goes back to a rank that is taken, to the one in front of it.
-/

import Anthology.Proofs.Transplant

set_option relaxedAutoImplicit false
set_option autoImplicit false

namespace Anthology

/-- A shelf with three slots that are numbered without a gap, for examples. -/
def Operation.dense : List Operation := [
  .createCollection (.create "shelf" 0 "Shelf" .other),
  .appendItem 1 "first" "shelf" .empty,
  .appendItem 1 "second" "shelf" .empty,
  .appendItem 1 "third" "shelf" .empty]

namespace Store

variable {s t : Store} {now later : Time} {c : Id} {rank : Int} {n p : ℕ} {x y : Slot}
  {items : List Slot}

theorem insertIdx_append_length {α : Type} (xs ys : List α) (x : α) :
    (xs ++ ys).insertIdx xs.length x = xs ++ x :: ys := by
  induction xs with
  | nil => exact List.insertIdx_zero
  | cons y xs ih => simp [ih]

/-- Where an element stood nowhere before, the list tells the position that it was put in at. -/
theorem insertIdx_eq_insertIdx_iff {α : Type} {xs : List α} {x : α} (hx : x ∉ xs) {i j : ℕ}
    (hi : i ≤ xs.length) (hj : j ≤ xs.length) : xs.insertIdx i x = xs.insertIdx j x ↔ i = j := by
  induction xs generalizing i j with
  | nil =>
      simp only [List.length_nil, Nat.le_zero] at hi hj
      rw [hi, hj]
      simp
  | cons y xs ih =>
      obtain ⟨hxy, hxs⟩ := not_or.1 (mt List.mem_cons.2 hx)
      cases i with
      | zero =>
          cases j with
          | zero => simp
          | succ j => simp [hxy]
      | succ i =>
          cases j with
          | zero => simp [Ne.symm hxy]
          | succ j =>
              rw [List.insertIdx_succ_cons, List.insertIdx_succ_cons, List.cons_inj_right,
                ih hxs (Nat.le_of_succ_le_succ hi) (Nat.le_of_succ_le_succ hj), Nat.succ_inj]

/-! ### The others -/

/-- The slots of a collection are one of them and the others. -/
theorem perm_cons_othersOf (hx : x ∈ s.orderedSlots c) :
    (s.orderedSlots c).Perm (x :: s.othersOf c x.id) := by
  have hnodup : (x :: s.othersOf c x.id).Nodup := by
    refine List.nodup_cons.2 ⟨fun h => ?_, (s.nodup_orderedSlots c).filter _⟩
    exact (mem_othersOf.1 h).2.2 rfl
  refine (List.perm_ext_iff_of_nodup (s.nodup_orderedSlots c) hnodup).2 fun y => ?_
  rw [List.mem_cons, mem_othersOf, mem_orderedSlots]
  obtain ⟨hstored, howner⟩ := mem_orderedSlots.1 hx
  constructor
  · rintro ⟨hy, hc⟩
    by_cases hid : y.id = x.id
    · exact .inl (Table.eq_of_key_eq hy hstored hid)
    · exact .inr ⟨hy, hc, hid⟩
  · rintro (rfl | ⟨hy, hc, -⟩)
    · exact ⟨hstored, howner⟩
    · exact ⟨hy, hc⟩

/-- Of the slots below a number only the slot itself is not one of the others. -/
theorem length_slotsBelow_others (hx : x ∈ s.orderedSlots c) (n : Int) :
    (slotsBelow n (s.othersOf c x.id)).length + (if x.seqno < n then 1 else 0) =
      (slotsBelow n (s.orderedSlots c)).length := by
  have hperm := (perm_cons_othersOf hx).filter fun y => decide (y.seqno < n)
  rw [slotsBelow, slotsBelow, hperm.length_eq]
  by_cases hn : x.seqno < n
  · rw [List.filter_cons_of_pos (by simpa using hn), if_pos hn, List.length_cons]
  · rw [List.filter_cons_of_neg (by simpa using hn), if_neg hn, Nat.add_zero]

/-! ### The order after a move -/

/-- The slot stands behind those of the others that have a smaller number. -/
theorem orderOf_moved_within [Arithmetic] (hx : x ∈ s.orderedSlots c)
    (hrun : s.transplant now x.id c rank = .ok (y, t)) :
    t.orderOf c = ((s.orderOf c).erase x.id).insertIdx
      (slotsBelow (numberAt (s.orderedSlots c) rank) (s.othersOf c x.id)).length x.id := by
  obtain ⟨old, hold, hy, hslots⟩ := slots_transplant hrun
  obtain ⟨hmem, hid⟩ := slot?_eq_some.1 hold
  have hnew : y.id = x.id ∧ y.owner = c ∧ y.seqno = numberAt (s.orderedSlots c) rank := by
    rw [hy]
    exact ⟨hid, rfl, rfl⟩
  obtain ⟨hsame, rfl, hseqno⟩ := hnew
  have hordered := orderedSlots_moved hslots
    ((mem_rows_moved hslots).2 ⟨old, hmem, rowAfter_self (hid.trans hsame.symm)⟩)
  rw [hsame, hseqno] at hordered
  generalize numberAt (s.orderedSlots y.owner) rank = n at hordered ⊢
  have hothers : (slotsBelow n (s.othersOf y.owner x.id)).map Slot.id ++
      (slotsFrom n (s.othersOf y.owner x.id)).map Slot.id = (s.orderOf y.owner).erase x.id := by
    rw [← List.map_append, slotsBelow_append_slotsFrom (s.pairwise_othersOf _ _), othersOf_ids]
  have hids : Slot.id ∘ Slot.shifted now = Slot.id := rfl
  rw [← hothers, ← List.length_map (f := Slot.id), insertIdx_append_length, orderOf, hordered,
    List.map_append, List.map_cons, List.map_map, hids, hsame]

/-- A slot that is reordered stands among the others at its new position, or at the last one. -/
theorem orderOf_reordered (now : Time) (hc : s.hasCollection c = true)
    (hx : (s.orderedSlots c)[p]? = some x) (hread : s.Readable c) (new : ℕ) : ∃ items t,
    s.reorder now c x.id p new = .ok (items, t) ∧ t.orderOf c =
      ((s.orderOf c).erase x.id).insertIdx (min new ((s.orderOf c).length - 1)) x.id := by
  by_cases hne : p = new
  · -- it is there already, and nothing is written
    subst hne
    obtain ⟨row, hrow⟩ := exists_requireCollection hc
    refine ⟨s.orderedSlots c, s, ?_, ?_⟩
    · rw [reorder, hrow, readSlots_eq_ok.2 ⟨hread, rfl⟩]
      show (positionOf (s.orderedSlots c) c x.id >>= _) = _
      rw [positionOf_eq hx]
      exact if_pos rfl
    · obtain ⟨hp, hid⟩ := List.getElem?_eq_some_iff.1 (getElem?_orderOf hx)
      have hlast : min p ((s.orderOf c).length - 1) = p := by omega
      rw [hlast, ← hid, (s.nodup_orderOf c).erase_getElem, List.insertIdx_eraseIdx_getElem hp]
  · obtain ⟨items, t, hrun, -, hreordered⟩ :=
      (reorder_relocates now hc (List.mem_of_getElem? hx) hne).1 hread
    exact ⟨items, t, hrun, hreordered.order⟩

/-- A slot can be reordered exactly where the numbers of all can be read. -/
theorem reorder_succeeds_iff (now : Time) (hc : s.hasCollection c = true)
    (hx : (s.orderedSlots c)[p]? = some x) (new : ℕ) :
    (∃ items t, s.reorder now c x.id p new = .ok (items, t)) ↔ s.Readable c := by
  constructor
  · rintro ⟨items, t, hrun⟩
    by_contra hread
    rw [reorder_of_unreadable hc hread] at hrun
    exact absurd hrun (by simp)
  · intro hread
    obtain ⟨items, t, hrun, -⟩ := orderOf_reordered now hc hx hread new
    exact ⟨items, t, hrun⟩

/-! ### Where the slot lands -/

/-- The position to which a slot is reordered by a move to a rank of its collection, where it was at
the position `p` of `n`.  A slot that goes back to a rank that is taken comes to stand in front of
the slot that is there, which has moved up by one into the place that became free. -/
def landing (n p : ℕ) (rank : Int) : ℕ :=
  if p + 1 < rank ∧ rank ≤ n then rank.toNat - 2 else (max rank 1).toNat - 1

/-- To the front, forward or in place, back to a rank that is taken, and past the end. -/
theorem eq_min_landing {k : ℕ} (hp : p < n)
    (hk : k + (if p < rankIn n rank - 1 then 1 else 0) = rankIn n rank - 1) :
    k = min (landing n p rank) (n - 1) := by
  by_cases hone : rank ≤ 1
  · rw [rankIn, if_pos hone, if_neg (by omega)] at hk
    rw [landing, if_neg (by omega)]
    omega
  by_cases hrank : rank ≤ n
  · rw [rankIn, if_neg hone, if_pos hrank] at hk
    by_cases hback : p + 1 < rank
    · rw [if_pos (by omega)] at hk
      rw [landing, if_pos ⟨hback, hrank⟩]
      omega
    · rw [if_neg (by omega)] at hk
      rw [landing, if_neg (by omega)]
      omega
  · rw [rankIn, if_neg hone, if_neg hrank, if_pos (by omega)] at hk
    rw [landing, if_neg (by omega)]
    omega

/-- Where numbers are distinct there are no ties. -/
theorem not_tied_of_distinct (hdistinct : (items.map Slot.seqno).Nodup) : ¬ Tied items rank := by
  rintro ⟨y, z, hone, hy, hz, heq⟩
  have hlt := (List.getElem?_eq_some_iff.1 hy).1
  have hsame : (items.map Slot.seqno)[rank.toNat - 2]? =
      (items.map Slot.seqno)[rank.toNat - 1]? := by
    rw [List.getElem?_map, List.getElem?_map, hy, hz, Option.map_some, Option.map_some, heq]
  have := (List.getElem?_inj (by rwa [List.length_map]) hdistinct).1 hsame
  omega

/-- The slot stands behind as many others as there are positions in front of the one on which it
lands.  Where it goes back it is itself one of the slots below the number that it takes. -/
theorem length_slotsBelow_numberAt_others (hpos : ∀ y ∈ s.orderedSlots c, 0 < y.seqno)
    (hdistinct : ((s.orderedSlots c).map Slot.seqno).Nodup)
    (hx : (s.orderedSlots c)[p]? = some x) (rank : Int) :
    (slotsBelow (numberAt (s.orderedSlots c) rank) (s.othersOf c x.id)).length =
      min (landing (s.orderedSlots c).length p rank) ((s.orderedSlots c).length - 1) := by
  have hsorted := s.orderedSlots_pairwise c
  have hall := (length_slotsBelow_iff hsorted hpos rank).2.2 (not_tied_of_distinct hdistinct)
  have hback := lt_length_slotsBelow_iff (n := numberAt (s.orderedSlots c) rank) hsorted hx
  have hsplit := length_slotsBelow_others (List.mem_of_getElem? hx)
    (numberAt (s.orderedSlots c) rank)
  simp only [← hback, hall] at hsplit
  exact eq_min_landing (List.getElem?_eq_some_iff.1 hx).1 hsplit

/-- The slot is taken out of the order and put in at the position on which it lands. -/
theorem Reachable.orderOf_landed [Arithmetic] (h : s.Reachable)
    (hx : (s.orderedSlots c)[p]? = some x)
    (hdistinct : ((s.orderedSlots c).map Slot.seqno).Nodup)
    (hrun : s.transplant now x.id c rank = .ok (y, t)) :
    t.orderOf c = ((s.orderOf c).erase x.id).insertIdx
      (min (landing (s.orderedSlots c).length p rank) ((s.orderOf c).length - 1)) x.id := by
  have hpos : ∀ y ∈ s.orderedSlots c, 0 < y.seqno := fun y hy =>
    h.lawful.seqno y (mem_orderedSlots.1 hy).1
  rw [orderOf_moved_within (List.mem_of_getElem? hx) hrun, length_orderOf,
    length_slotsBelow_numberAt_others hpos hdistinct hx]

/-- It is the position of the rank unless the slot goes back to a rank that is taken. -/
theorem min_landing_eq_iff (hp : p < n) :
    min (landing n p rank) (n - 1) = min ((max rank 1).toNat - 1) (n - 1) ↔
      ¬ (p + 1 < rank ∧ rank ≤ n) := by
  rw [landing]
  constructor
  · rintro heq ⟨hback, hrank⟩
    rw [if_pos ⟨hback, hrank⟩] at heq
    omega
  · intro hother
    rw [if_neg hother]

/-! ### Moves to a rank are reorders -/

/-- In a store that is reached a slot can be moved to a rank of its own collection exactly where the
numbers of the slots can be read and the number for the rank is a word.  What the slot refers to
does not contain the collection. -/
theorem Reachable.transplant_within_succeeds_iff [Arithmetic] (h : s.Reachable)
    (hx : x ∈ s.orderedSlots c)
    (now : Time) (rank : Int) : (∃ y t, s.transplant now x.id c rank = .ok (y, t)) ↔
      s.Readable c ∧ numberAt (s.orderedSlots c) rank ≤ Word.last := by
  obtain ⟨hstored, howner⟩ := mem_orderedSlots.1 hx
  have hguard : s.guard c x.item = .ok () := by
    refine guard_eq_ok.2 fun d hd => h.acyclic c d ?_
    exact mem_childrenOf.2 ⟨x, hstored, howner, hd⟩
  have hc : s.hasCollection c = true := howner ▸ h.lawful.owner x hstored
  rw [transplant_succeeds_iff h.lawful]
  constructor
  · exact fun hsucceeds => hsucceeds.2.2
  · rintro ⟨hread, hfits⟩
    have hx' : x.isReadable = true := hread x (mem_slotsOf.2 ⟨hstored, howner⟩)
    exact ⟨⟨x, requireSlot_eq_ok.2 ⟨slot?_of_mem hstored, hx'⟩, hguard⟩, hc, hread, hfits⟩

/-- **A move to a rank of the own collection is a reorder**: it leaves the slots in the order in
which the reorder to the position on which the slot lands leaves them.  This is the order that the
reorder to the position of the rank leaves, to the last position for a rank past the end, exactly
where the slot does not go back to a rank that is taken.  The move succeeds exactly where the
reorder does and the number for the rank is a word, which it is but past a slot with the last
one. -/
theorem Reachable.transplant_within [Arithmetic] (h : s.Reachable)
    (hx : (s.orderedSlots c)[p]? = some x)
    (hdistinct : ((s.orderedSlots c).map Slot.seqno).Nodup) (now later : Time) (rank : Int) :
    ((∃ y t, s.transplant now x.id c rank = .ok (y, t)) ↔
      (∃ items u, s.reorder later c x.id p ((max rank 1).toNat - 1) = .ok (items, u)) ∧
        numberAt (s.orderedSlots c) rank ≤ Word.last) ∧
    ∀ y t, s.transplant now x.id c rank = .ok (y, t) →
      (∃ items u,
        s.reorder later c x.id p (landing (s.orderedSlots c).length p rank) = .ok (items, u) ∧
          t.orderOf c = u.orderOf c) ∧
      ∃ items u, s.reorder later c x.id p ((max rank 1).toNat - 1) = .ok (items, u) ∧
        (t.orderOf c = u.orderOf c ↔ ¬ (p + 1 < rank ∧ rank ≤ (s.orderedSlots c).length)) := by
  have hmem := List.mem_of_getElem? hx
  obtain ⟨hstored, howner⟩ := mem_orderedSlots.1 hmem
  have hc : s.hasCollection c = true := howner ▸ h.lawful.owner x hstored
  refine ⟨?_, fun y t hmove => ?_⟩
  · rw [h.transplant_within_succeeds_iff hmem, reorder_succeeds_iff later hc hx]
  have hread := ((h.transplant_within_succeeds_iff hmem now rank).1 ⟨y, t, hmove⟩).1
  have hlanded := h.orderOf_landed hx hdistinct hmove
  obtain ⟨items, u, hreorder, horder⟩ :=
    orderOf_reordered later hc hx hread (landing (s.orderedSlots c).length p rank)
  obtain ⟨items', u', hreorder', horder'⟩ :=
    orderOf_reordered later hc hx hread ((max rank 1).toNat - 1)
  refine ⟨⟨items, u, hreorder, hlanded.trans horder.symm⟩, items', u', hreorder', ?_⟩
  -- among the others the slot stands nowhere, so the two orders tell its two positions
  have hid : x.id ∈ s.orderOf c := List.mem_of_getElem? (getElem?_orderOf hx)
  have hout : x.id ∉ (s.orderOf c).erase x.id := (s.nodup_orderOf c).not_mem_erase
  have hlength := List.length_erase_of_mem hid
  have hp := (List.getElem?_eq_some_iff.1 hx).1
  rw [hlanded, horder', insertIdx_eq_insertIdx_iff hout (by omega) (by omega), length_orderOf,
    min_landing_eq_iff hp]

/-- The slots of the shelf are in order, with a number each. -/
theorem orderedSlots_dense : ∃ s, Operation.runAll .empty Operation.dense = .ok s ∧
    s.hasCollection "shelf" = true ∧ s.Readable "shelf" ∧ s.orderedSlots "shelf" = [
      .create "first" 1 "shelf" .empty 1,
      .create "second" 1 "shelf" .empty 2,
      .create "third" 1 "shelf" .empty 3] := by
  obtain ⟨s, hrun, hc, hread, hperm⟩ : ∃ s, Operation.runAll .empty Operation.dense = .ok s ∧
      s.hasCollection "shelf" = true ∧ s.Readable "shelf" ∧ (s.slotsOf "shelf").Perm [
        .create "first" 1 "shelf" .empty 1,
        .create "second" 1 "shelf" .empty 2,
        .create "third" 1 "shelf" .empty 3] := exists_eq_ok_of_any (by decide +kernel)
  exact ⟨s, hrun, hc, hread, orderedSlots_of_precedes hperm (by decide +kernel)⟩

/-- Each slot of the shelf can be moved to any rank of it. -/
theorem exists_transplant_dense [Arithmetic] (hreached : s.Reachable) (hread : s.Readable "shelf")
    (hordered : s.orderedSlots "shelf" = [
      .create "first" 1 "shelf" .empty 1,
      .create "second" 1 "shelf" .empty 2,
      .create "third" 1 "shelf" .empty 3]) (hx : x ∈ s.orderedSlots "shelf") (rank : Int) :
    ∃ y t, s.transplant 2 x.id "shelf" rank = .ok (y, t) := by
  refine (hreached.transplant_within_succeeds_iff hx 2 rank).2 ⟨hread, ?_⟩
  rw [hordered]
  exact numberAt_le_last (by decide) rank

/-- The first slot goes back to the third rank, and stands second, as if reordered to there; the
third one comes forward to the second rank, and stands there. -/
theorem transplant_within_dense : ∃ s, Operation.runAll .empty Operation.dense = .ok s ∧
    (∃ y t, s.transplant 2 "first" "shelf" 3 = .ok (y, t) ∧
      ∃ items u, s.reorder 2 "shelf" "first" 0 1 = .ok (items, u) ∧
        t.orderOf "shelf" = u.orderOf "shelf") ∧
    ∃ y t, s.transplant 2 "third" "shelf" 2 = .ok (y, t) ∧
      ∃ items u, s.reorder 2 "shelf" "third" 2 1 = .ok (items, u) ∧
        t.orderOf "shelf" = u.orderOf "shelf" := by
  obtain ⟨s, hrun, -, hread, hordered⟩ := orderedSlots_dense
  have hdistinct : ((s.orderedSlots "shelf").map Slot.seqno).Nodup := by
    rw [hordered]
    decide
  have hreached : s.Reachable := .runAll .empty hrun
  have hfirst : (s.orderedSlots "shelf")[0]? = some (.create "first" 1 "shelf" .empty 1) := by
    rw [hordered]
    rfl
  have hthird : (s.orderedSlots "shelf")[2]? = some (.create "third" 1 "shelf" .empty 3) := by
    rw [hordered]
    rfl
  have hlength : (s.orderedSlots "shelf").length = 3 := by rw [hordered]; rfl
  obtain ⟨y, t, hback⟩ :=
    exists_transplant_dense hreached hread hordered (List.mem_of_getElem? hfirst) 3
  obtain ⟨y', t', hforward⟩ :=
    exists_transplant_dense hreached hread hordered (List.mem_of_getElem? hthird) 2
  obtain ⟨hreorder, -⟩ := (hreached.transplant_within hfirst hdistinct 2 2 3).2 y t hback
  obtain ⟨-, items, u, hreorder', hagree⟩ :=
    (hreached.transplant_within hthird hdistinct 2 2 2).2 y' t' hforward
  rw [hlength] at hreorder hagree
  exact ⟨s, hrun, ⟨y, t, hback, hreorder⟩, y', t', hforward, items, u, hreorder',
    hagree.2 (by decide)⟩

/-- The first slot is to go back to the second rank.  The move leaves it where it is, and the
reorder does not. -/
theorem transplant_short_dense : ∃ s y t items u,
    Operation.runAll .empty Operation.dense = .ok s ∧ s.Reachable ∧
    ((s.orderedSlots "shelf").map Slot.seqno).Nodup ∧
    (s.orderOf "shelf")[0]? = some "first" ∧
    s.transplant 2 "first" "shelf" 2 = .ok (y, t) ∧
    s.reorder 2 "shelf" "first" 0 ((max (2 : Int) 1).toNat - 1) = .ok (items, u) ∧
    t.orderOf "shelf" = ["first", "second", "third"] ∧
    u.orderOf "shelf" = ["second", "first", "third"] ∧ t.orderOf "shelf" ≠ u.orderOf "shelf" := by
  obtain ⟨s, hrun, hc, hread, hordered⟩ := orderedSlots_dense
  have hreached : s.Reachable := .runAll .empty hrun
  have hdistinct : ((s.orderedSlots "shelf").map Slot.seqno).Nodup := by
    rw [hordered]
    decide
  have hfirst : (s.orderedSlots "shelf")[0]? = some (.create "first" 1 "shelf" .empty 1) := by
    rw [hordered]
    rfl
  have hids : s.orderOf "shelf" = ["first", "second", "third"] :=
    congrArg (List.map Slot.id) hordered
  obtain ⟨y, t, hmove⟩ :=
    exists_transplant_dense hreached hread hordered (List.mem_of_getElem? hfirst) 2
  obtain ⟨items, u, hreorder, horder⟩ :=
    orderOf_reordered 2 hc hfirst hread ((max (2 : Int) 1).toNat - 1)
  have hlanded := hreached.orderOf_landed hfirst hdistinct hmove
  rw [hids, hordered] at hlanded
  rw [hids] at horder
  have ht : t.orderOf "shelf" = ["first", "second", "third"] := hlanded.trans (by decide)
  have hu : u.orderOf "shelf" = ["second", "first", "third"] := horder.trans (by decide)
  refine ⟨s, y, t, items, u, hrun, hreached, hdistinct, getElem?_orderOf hfirst, hmove, hreorder,
    ht, hu, ?_⟩
  rw [ht, hu]
  decide

end Store

end Anthology
