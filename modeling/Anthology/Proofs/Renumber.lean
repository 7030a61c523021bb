/-
**Slots numbered anew.**

The slots of a collection are put into another order by numbering them along a list.  The walk
writes one row after the other, and only those whose number changes; what it reports is the list
with the new numbers.  Both have a closed form in terms of the slots paired with the numbers that
they get: the rows bear the time where they were written, and the reported slots do not.  As the
numbers ascend along the list, the list is the order of the collection from then on.

Main definitions:

* `Anthology.Slot.numbered` — the row of a slot that is given a number;
* `Anthology.Store.placesFrom` — the slots along a list with the numbers that they get;
* `Anthology.Store.rowsFrom` — the rows of the slots that are numbered along a list;
* `Anthology.Store.Arranged` — the slots of a collection were left as they are, or numbered.

Main results:

* `Anthology.Store.slot?_renumberFrom`, `Anthology.Store.slot?_renumberFrom_of_not_mem` — **each
  slot along the list is numbered, and no other**;
* `Anthology.Store.orderedSlots_renumberFrom` — the list is the order of the collection;
* `Anthology.Store.arranged_reorder`, `Anthology.Store.arranged_moveItem` — what the two operations
  do.
-/

import Anthology.Proofs.Order
import Anthology.Proofs.Steps
import Mathlib.Data.List.Perm.Basic

set_option relaxedAutoImplicit false
set_option autoImplicit false

namespace Anthology

/-- The row of a slot that is given a number.  It is written only where its number changes. -/
def Slot.numbered (now : Time) (n : Int) (x : Slot) : Slot :=
  if x.seqno = n then x else { x with seqno := n, updatedAt := now }

section Numbered

variable {now : Time} {n : Int} {x : Slot}

@[simp] theorem Slot.numbered_id : (x.numbered now n).id = x.id := by
  unfold numbered
  split <;> rfl

@[simp] theorem Slot.numbered_owner : (x.numbered now n).owner = x.owner := by
  unfold numbered
  split <;> rfl

@[simp] theorem Slot.numbered_seqno : (x.numbered now n).seqno = n := by
  unfold numbered
  split
  · assumption
  · rfl

/-- The row is the slot with its number where nothing is written, or at the time of the last
write. -/
theorem Slot.numbered_eq_iff :
    x.numbered now n = { x with seqno := n } ↔ (n ≠ x.seqno → x.updatedAt = now) := by
  unfold numbered
  split
  · rename_i h
    subst h
    simp
  · rename_i h
    constructor
    · intro heq _
      exact (congrArg Slot.updatedAt heq).symm
    · intro htime
      rw [htime (Ne.symm h)]

end Numbered

namespace Store

variable {s t : Store} {now : Time} {c id : Id} {n : Int} {x : Slot} {xs items : List Slot}

/-! ### Slots and their numbers -/

/-- The slots along a list with the numbers that they get from `n` on. -/
def placesFrom (n : Int) : List Slot → List (Slot × Int)
  | [] => []
  | x :: xs => (x, n) :: placesFrom (n + 1) xs

/-- The rows of the slots that are numbered along a list from `n` on. -/
def rowsFrom (now : Time) (n : Int) (xs : List Slot) : List Slot :=
  (placesFrom n xs).map fun p => p.1.numbered now p.2

theorem placesFrom_map_fst (xs : List Slot) (n : Int) : (placesFrom n xs).map Prod.fst = xs := by
  induction xs generalizing n with
  | nil => rfl
  | cons x xs ih => rw [placesFrom, List.map_cons, ih]

/-- The slots that are reported are those along the list with their numbers. -/
theorem numberedFrom_eq_map (xs : List Slot) (n : Int) :
    numberedFrom n xs = (placesFrom n xs).map fun p => { p.1 with seqno := p.2 } := by
  induction xs generalizing n with
  | nil => rfl
  | cons x xs ih => rw [numberedFrom, placesFrom, List.map_cons, ih]

theorem le_of_mem_placesFrom {p : Slot × Int} (hp : p ∈ placesFrom n xs) : n ≤ p.2 := by
  induction xs generalizing n with
  | nil => simp [placesFrom] at hp
  | cons x xs ih =>
      rcases List.mem_cons.1 hp with rfl | hp
      · exact le_rfl
      · have := ih hp
        omega

/-- The numbers ascend along the list. -/
theorem pairwise_placesFrom (xs : List Slot) (n : Int) :
    (placesFrom n xs).Pairwise fun p q => p.2 < q.2 := by
  induction xs generalizing n with
  | nil => exact .nil
  | cons x xs ih =>
      refine .cons (fun p hp => ?_) (ih (n + 1))
      have := le_of_mem_placesFrom hp
      show n < p.2
      omega

theorem exists_mem_placesFrom (hx : x ∈ xs) (n : Int) : ∃ m, (x, m) ∈ placesFrom n xs := by
  rw [← placesFrom_map_fst xs n, List.mem_map] at hx
  obtain ⟨⟨y, m⟩, hp, rfl⟩ := hx
  exact ⟨m, hp⟩

theorem fst_mem_of_mem_placesFrom {p : Slot × Int} (hp : p ∈ placesFrom n xs) : p.1 ∈ xs := by
  rw [← placesFrom_map_fst xs n]
  exact List.mem_map_of_mem hp

/-! ### The walk -/

theorem slot?_editSlot {f : Slot → Slot} {hf : ∀ x, (f x).id = x.id} {k : Id} :
    (s.editSlot id f hf).slot? k = (s.slot? k).map fun x => if x.id = id then f x else x := by
  simp only [slot?, editSlot, Table.modify, Table.find?_update]
  rfl

theorem slot?_editSlot_self (f : Slot → Slot) (hf : ∀ x, (f x).id = x.id)
    (hx : s.slot? id = some x) : (s.editSlot id f hf).slot? id = some (f x) := by
  rw [slot?_editSlot, hx, Option.map_some, if_pos (slot?_eq_some.1 hx).2]

theorem slot?_editSlot_of_ne {f : Slot → Slot} {hf : ∀ x, (f x).id = x.id} {k : Id}
    (hk : k ≠ id) : (s.editSlot id f hf).slot? k = s.slot? k := by
  rw [slot?_editSlot]
  cases hx : s.slot? k with
  | none => rfl
  | some x =>
      have hid := (slot?_eq_some.1 hx).2
      rw [Option.map_some, if_neg (hid ▸ hk)]

/-- A slot that is not along the list is left as it is. -/
theorem slot?_renumberFrom_of_not_mem (h : ∀ x ∈ xs, x.id ≠ id) :
    (renumberFrom now s n xs).slot? id = s.slot? id := by
  induction xs generalizing s n with
  | nil => rfl
  | cons x xs ih =>
      obtain ⟨hx, hxs⟩ := List.forall_mem_cons.1 h
      rw [renumberFrom, ih hxs]
      split
      · rfl
      · exact slot?_editSlot_of_ne (Ne.symm hx)

/-- **Each slot along the list is numbered**, and written where its number changes. -/
theorem slot?_renumberFrom (hnodup : (xs.map Slot.id).Nodup)
    (hrows : ∀ x ∈ xs, s.slot? x.id = some x) {p : Slot × Int} (hp : p ∈ placesFrom n xs) :
    (renumberFrom now s n xs).slot? p.1.id = some (p.1.numbered now p.2) := by
  induction xs generalizing s n with
  | nil => simp [placesFrom] at hp
  | cons x xs ih =>
      rw [List.map_cons, List.nodup_cons, List.mem_map] at hnodup
      obtain ⟨hfresh, hnodup⟩ := hnodup
      obtain ⟨hx, hxs⟩ := List.forall_mem_cons.1 hrows
      have hother : ∀ y ∈ xs, y.id ≠ x.id := fun y hy hid => hfresh ⟨y, hy, hid⟩
      rw [renumberFrom]
      rcases List.mem_cons.1 hp with rfl | hp
      · -- the walk along the rest does not come back to the first slot
        rw [slot?_renumberFrom_of_not_mem hother, Slot.numbered]
        split
        · exact hx
        · exact slot?_editSlot_self _ _ hx
      · refine ih hnodup (fun y hy => ?_) hp
        split
        · exact hxs y hy
        · rw [setSeqno, slot?_editSlot_of_ne (hother y hy), hxs y hy]

/-- After the walk a slot is one along the list with its number, or one that was left as it was. -/
theorem slot?_renumberFrom_elim (hnodup : (xs.map Slot.id).Nodup)
    (hrows : ∀ x ∈ xs, s.slot? x.id = some x)
    (hx : (renumberFrom now s n xs).slot? id = some x) :
    (∃ p ∈ placesFrom n xs, p.1.id = id ∧ p.1.numbered now p.2 = x) ∨
      (∀ y ∈ xs, y.id ≠ id) ∧ s.slot? id = some x := by
  by_cases hlisted : ∃ y ∈ xs, y.id = id
  · obtain ⟨y, hy, rfl⟩ := hlisted
    obtain ⟨m, hp⟩ := exists_mem_placesFrom hy n
    rw [slot?_renumberFrom hnodup hrows hp] at hx
    exact .inl ⟨(y, m), hp, rfl, Option.some.inj hx⟩
  · have hother : ∀ y ∈ xs, y.id ≠ id := fun y hy hid => hlisted ⟨y, hy, hid⟩
    rw [slot?_renumberFrom_of_not_mem hother] at hx
    exact .inr ⟨hother, hx⟩

/-! ### The order from then on -/

theorem slot?_of_mem (hx : x ∈ s.slots.rows) : s.slot? x.id = some x :=
  slot?_eq_some.2 ⟨hx, rfl⟩

/-- What the walk needs to know of a list of the slots of a collection. -/
theorem perm_orderedSlots_rows (hperm : xs.Perm (s.orderedSlots c)) :
    (xs.map Slot.id).Nodup ∧ (∀ x ∈ xs, s.slot? x.id = some x) ∧
      ∀ x, x ∈ xs ↔ x ∈ s.slots.rows ∧ x.owner = c := by
  have hall : xs.Perm (s.slotsOf c) := hperm.trans (s.orderedSlots_perm c)
  refine ⟨(hall.map Slot.id).nodup_iff.2 (s.nodup_slotsOf c), fun x hx => ?_, fun x => ?_⟩
  · exact slot?_of_mem (mem_slotsOf.1 (hall.mem_iff.1 hx)).1
  · rw [hall.mem_iff, mem_slotsOf]

/-- The rows of the slots of a collection after they were numbered along a list. -/
theorem mem_slotsOf_renumberFrom (hperm : xs.Perm (s.orderedSlots c)) :
    x ∈ (renumberFrom now s n xs).slotsOf c ↔ x ∈ rowsFrom now n xs := by
  obtain ⟨hnodup, hrows, hmem⟩ := perm_orderedSlots_rows hperm
  rw [mem_slotsOf, rowsFrom, List.mem_map]
  constructor
  · rintro ⟨hx, howner⟩
    rcases slot?_renumberFrom_elim hnodup hrows (slot?_of_mem hx) with
      ⟨p, hp, -, hnumbered⟩ | ⟨hother, hbefore⟩
    · exact ⟨p, hp, hnumbered⟩
    · -- a slot of the collection is along the list
      exact absurd rfl (hother x ((hmem x).2 ⟨(slot?_eq_some.1 hbefore).1, howner⟩))
  · rintro ⟨p, hp, rfl⟩
    refine ⟨(slot?_eq_some.1 (slot?_renumberFrom hnodup hrows hp)).1, ?_⟩
    rw [Slot.numbered_owner]
    exact ((hmem p.1).1 (fst_mem_of_mem_placesFrom hp)).2

/-- **The list is the order of the collection from then on.** -/
theorem orderedSlots_renumberFrom (hperm : xs.Perm (s.orderedSlots c)) :
    (renumberFrom now s n xs).orderedSlots c = rowsFrom now n xs := by
  have hascending : (rowsFrom now n xs).Pairwise fun x y => x.rank < y.rank := by
    refine List.pairwise_map.2 ((pairwise_placesFrom xs n).imp fun hlt => Slot.rank_lt ?_)
    simpa using hlt
  exact orderedSlots_eq_of_mem (fun x => mem_slotsOf_renumberFrom hperm) hascending

/-! ### The operations -/

theorem relocate_perm {origin target : ℕ} (h : target ≤ xs.length - 1) :
    (relocate xs origin target).Perm xs := by
  unfold relocate
  split
  · rename_i x hx
    obtain ⟨hlt, rfl⟩ := List.getElem?_eq_some_iff.1 hx
    have hroom : target ≤ (xs.eraseIdx origin).length := by
      rwa [List.length_eraseIdx_of_lt hlt]
    exact (List.perm_insertIdx _ _ hroom).trans (List.getElem_cons_eraseIdx_perm hlt)
  · exact .refl xs

theorem exchange_perm (xs : List Slot) (i j : ℕ) : (exchange xs i j).Perm xs := by
  unfold exchange
  split
  · rename_i x y hx hy
    obtain ⟨hi, rfl⟩ := List.getElem?_eq_some_iff.1 hx
    obtain ⟨hj, rfl⟩ := List.getElem?_eq_some_iff.1 hy
    exact List.set_set_perm hi hj
  · exact .refl xs

/-- The slots of a collection are reported as they are and nothing was written, or they were
numbered along a list. -/
def Arranged (s t : Store) (now : Time) (c : Id) (items : List Slot) : Prop :=
  items = s.orderedSlots c ∧ t = s ∨ ∃ xs : List Slot, xs.Perm (s.orderedSlots c) ∧
    items = numberedFrom 1 xs ∧ t = renumberFrom now s 1 xs

theorem arranged_reorder {old new : ℕ} (h : s.reorder now c id old new = .ok (items, t)) :
    s.Arranged t now c items := by
  simp only [reorder, bind_eq_ok, readSlots_eq_ok] at h
  obtain ⟨_, _, _, ⟨-, rfl⟩, position, _, h⟩ := h
  split at h <;> cases h
  · exact .inl ⟨rfl, rfl⟩
  · exact .inr ⟨_, relocate_perm (min_le_right ..), rfl, rfl⟩

theorem arranged_moveItem {direction : Direction}
    (h : s.moveItem now direction c id = .ok (items, t)) : s.Arranged t now c items := by
  simp only [moveItem, bind_eq_ok, readSlots_eq_ok] at h
  obtain ⟨_, _, _, ⟨-, rfl⟩, position, _, h⟩ := h
  split at h <;> cases h
  · exact .inl ⟨rfl, rfl⟩
  · exact .inr ⟨_, exchange_perm .., rfl, rfl⟩

end Store

end Anthology
