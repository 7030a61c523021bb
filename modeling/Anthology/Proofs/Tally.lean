/-
**The number of works by recursion.**

What a collection holds is the sum of what its slots add: one for a work, and for another collection
what that one holds.  Without cycles this recursion has one solution.  The store counts along a
stack instead, and comes to the same number.

Main definitions:

* `Anthology.Store.worth`, `Anthology.Store.AddsUp` — the number of works by recursion along the
  containment.

Main results:

* `Anthology.Store.addsUp_countBelow`, `Anthology.Store.AddsUp.eq_countBelow` — the recursion has
  one solution, which is the number that the store computes;
* `Anthology.Store.Acyclic.tally_ends` — **the walk ends, with the number of the recursion**.
-/

import Anthology.Proofs.Below
import Anthology.Proofs.Operation

set_option relaxedAutoImplicit false
set_option autoImplicit false

namespace Anthology

/-- A work in a collection that is reached along three ways from the top, where there are also a
reference to a work that is gone and a slot that refers to nothing. -/
def Operation.braid : List Operation := [
  .createManifestation (.create "work" 0 "Work" Manifestation.published),
  .createManifestation (.create "lost" 0 "Lost" Manifestation.published),
  .createCollection (.create "shared" 0 "Shared" .other),
  .createCollection (.create "left" 0 "Left" .other),
  .createCollection (.create "right" 0 "Right" .other),
  .createCollection (.create "top" 0 "Top" .other),
  .appendItem 1 "shared work" "shared" (.manifestation "work"),
  .appendItem 1 "left shared" "left" (.collection "shared"),
  .appendItem 1 "right shared" "right" (.collection "shared"),
  .appendItem 1 "top left" "top" (.collection "left"),
  .appendItem 1 "top left again" "top" (.collection "left"),
  .appendItem 1 "top right" "top" (.collection "right"),
  .appendItem 1 "top lost" "top" (.manifestation "lost"),
  .appendItem 1 "top gap" "top" .empty,
  .deleteManifestation 1 "lost"]

namespace Store

variable {s : Store} {c d : Id} {number : Id → ℕ}

/-! ### The number of works by recursion -/

/-- What a slot adds to the number of works of its collection by what it refers to, where `number`
is what collections hold.  It adds nothing where it refers to nothing, or to what does not exist. -/
def worth (s : Store) (number : Id → ℕ) : ItemRef → ℕ
  | .empty => 0
  | .manifestation m => if s.hasManifestation m then 1 else 0
  | .collection d => if s.hasCollection d then number d else 0

theorem worth_congr {f g : Id → ℕ} {r : ItemRef}
    (h : ∀ d, r = .collection d → s.hasCollection d = true → f d = g d) :
    s.worth f r = s.worth g r := by
  cases r with
  | empty => rfl
  | manifestation m => rfl
  | collection d =>
      by_cases hd : s.hasCollection d = true
      · simp [worth, hd, h d rfl hd]
      · simp [worth, hd]

/-- Each collection holds what its slots add. -/
def AddsUp (s : Store) (number : Id → ℕ) : Prop :=
  ∀ c, number c = ((s.slotsOf c).map fun x => s.worth number x.item).sum

/-- The rows carry the numbers. -/
def Cached (s : Store) (number : Id → ℕ) : Prop :=
  ∀ row ∈ s.collections.rows, row.count = number row.id

/-- Slots add their works, and what the collections hold that they refer to. -/
theorem sum_worth (s : Store) (number : Id → ℕ) (xs : List Slot) :
    (xs.map fun x => s.worth number x.item).sum =
      xs.countP (fun x => x.item.manifestation?.any s.hasManifestation) +
        (((xs.filterMap fun x => x.item.collection?).filter s.hasCollection).map number).sum := by
  induction xs with
  | nil => rfl
  | cons x xs ih =>
      rw [List.map_cons, List.sum_cons, ih, List.countP_cons]
      cases hitem : x.item with
      | empty => simp [worth, ItemRef.manifestation?, ItemRef.collection?, hitem]
      | manifestation m =>
          by_cases hm : s.hasManifestation m = true
          · simp [worth, ItemRef.manifestation?, ItemRef.collection?, hitem, hm]
            omega
          · simp [worth, ItemRef.manifestation?, ItemRef.collection?, hitem, hm]
      | collection d =>
          by_cases hd : s.hasCollection d = true
          · simp [worth, ItemRef.manifestation?, ItemRef.collection?, hitem, hd]
            omega
          · simp [worth, ItemRef.manifestation?, ItemRef.collection?, hitem, hd]

theorem addsUp_iff : s.AddsUp number ↔
    ∀ c, number c = s.worksIn c + ((s.subCollections c).map number).sum := by
  refine forall_congr' fun c => ?_
  rw [sum_worth]
  rfl

/-! ### The recursion has one solution -/

theorem Acyclic.countBelow_eq (ha : s.Acyclic) (c : Id) :
    s.countBelow c = s.worksIn c + ((s.subCollections c).map s.countBelow).sum := by
  have hdeep : s.countBelow = s.countDeep := funext ha.countBelow_eq_within
  rw [hdeep]
  exact ha.countDeep_eq c

theorem addsUp_countBelow (ha : s.Acyclic) : s.AddsUp s.countBelow := addsUp_iff.2 ha.countBelow_eq

/-- **Without cycles the recursion has one solution.** -/
theorem AddsUp.eq_countBelow (ha : s.Acyclic) (h : s.AddsUp number) : number = s.countBelow := by
  funext c
  induction c using ha.induction with
  | step c ih =>
      rw [addsUp_iff.1 h, ha.countBelow_eq, List.map_congr_left ih]

/-! ### The walk along the stack -/

/-- **The walk ends, with the number that the recursion gives.**  Without cycles there is one number
for each collection that its slots add up to, and the walk along the stack ends with it, as do all
counts of the store. -/
theorem Acyclic.tally_ends (ha : s.Acyclic) : ∃ number : Id → ℕ,
    s.AddsUp number ∧ (∀ other, s.AddsUp other → other = number) ∧
      ∀ c, s.countBelow c = number c ∧
        ∀ steps, (s.slots.size + 1) ^ s.collections.size < steps →
          s.tally steps [c] 0 = some (number c) := by
  refine ⟨s.countBelow, addsUp_countBelow ha, fun other hother => hother.eq_countBelow ha,
    fun c => ⟨rfl, fun steps hsteps => ?_⟩⟩
  rw [ha.tally_of_turns c hsteps, ha.countBelow_eq_within]
  rfl

theorem tally_ends_braid : ∃ s, Operation.runAll .empty Operation.braid = .ok s ∧
    ∃ number : Id → ℕ, s.AddsUp number ∧ number "top" = 3 ∧
      ∃ steps, s.tally steps ["top"] 0 = some 3 := by
  obtain ⟨s, hrun, hthree⟩ : ∃ s, Operation.runAll .empty Operation.braid = .ok s ∧
      s.countBelow "top" = 3 := exists_eq_ok_of_any (by decide +kernel)
  have hreached : s.Reachable := .runAll .empty hrun
  obtain ⟨number, hadds, -, hall⟩ := Acyclic.tally_ends hreached.acyclic
  obtain ⟨hcount, hwalk⟩ := hall "top"
  have hnumber : number "top" = 3 := hcount.symm.trans hthree
  exact ⟨s, hrun, number, hadds, hnumber, _, hnumber ▸ hwalk _ (Nat.lt_succ_self _)⟩

end Store

end Anthology
