/-
**The repair of the cache.**

The repair counts all collections anew, one after the other in the order of their ids, and each
count is taken in the store that the ones before have left behind.  The order does not matter: a
count looks at no cached number, so it finds in the half repaired store what it would have found at
the outset, and a row that was not reached yet carries there what it carried at the outset.  What
the repair reports is therefore what was wrong before it began, however much that was.

Main definitions:

* `Anthology.Store.drift?` — what is wrong with the cached number of a collection;
* `Anthology.Store.repaired` — a row after the repair.

Main results:

* `Anthology.Store.repair_eq` — the repair in closed form, with its report;
* `Anthology.Store.Acyclic.recalculateAll_repairs` — **the repair makes all cached numbers right,
  and a second one finds nothing**.
-/

import Anthology.Proofs.Tally

set_option relaxedAutoImplicit false
set_option autoImplicit false

namespace Anthology

/-- A work that is lost and comes back to its slot, and a collection that comes with a number that
it does not hold: three numbers are wrong in the end. -/
def Operation.drifted : List Operation := [
  .createManifestation (.create "work" 0 "Work" Manifestation.published),
  .createCollection (.create "leaf" 0 "Leaf" .other),
  .createCollection (.create "root" 0 "Root" .other),
  .createCollection { Collection.create "stray" 0 "Stray" .other with count := 5 },
  .createCollection (.create "bare" 0 "Bare" .other),
  .appendItem 1 "leaf work" "leaf" (.manifestation "work"),
  .appendItem 1 "root leaf" "root" (.collection "leaf"),
  .deleteManifestation 2 "work",
  .createManifestation (.create "work" 3 "Work" Manifestation.published)]

namespace Store

variable {s : Store} {now : Time} {c : Id} {cs : List Id} {number : Id → ℕ}

/-! ### The repair in closed form -/

/-- The wrong number that is cached for a collection, beside the right one. -/
def drift? (s : Store) (number : Id → ℕ) (c : Id) : Option Drift :=
  (s.collection? c).bind fun row =>
    if row.count = number c then none else some ⟨c, row.count, number c⟩

/-- A recount leaves alone what it does not list. -/
theorem drift?_recount (hc : c ∉ cs) : (s.recount now cs).drift? number c = s.drift? number c := by
  unfold drift?
  rw [recount_collection?]
  cases hrow : s.collection? c with
  | none => rfl
  | some row =>
      obtain ⟨-, rfl⟩ := collection?_eq_some.1 hrow
      rw [Option.map_some, recountedIn, if_neg hc]

/-- The report on a collection comes before those on the collections after it. -/
theorem filterMap_drift?_cons {row : Collection} (hrow : s.collection? c = some row) :
    (if Recount.drifted ⟨row.count, number c⟩ then
        ⟨c, row.count, number c⟩ :: cs.filterMap (s.drift? number)
      else cs.filterMap (s.drift? number)) = (c :: cs).filterMap (s.drift? number) := by
  by_cases hright : row.count = (number c : Int)
  · have hnone : s.drift? number c = none := by simp [drift?, hrow, hright]
    simp [hnone, Recount.drifted, hright]
  · have hsome : s.drift? number c = some ⟨c, row.count, number c⟩ := by
      simp [drift?, hrow, hright]
    simp [hsome, Recount.drifted, hright]

/-- **The repair in closed form.**  What it reports on a collection was wrong before it began. -/
theorem repair_eq (hcs : cs.Nodup) (hhas : ∀ c ∈ cs, s.hasCollection c = true) :
    s.repair now cs = .ok (cs.filterMap (s.drift? s.countBelow), s.recount now cs) := by
  induction cs generalizing s with
  | nil => rw [repair, List.filterMap_nil, recount_nil]
  | cons c cs ih =>
      obtain ⟨hc, hcs⟩ := List.nodup_cons.1 hcs
      obtain ⟨hhasc, hhas⟩ := List.forall_mem_cons.1 hhas
      obtain ⟨row, hrow⟩ := exists_collection?_iff.2 hhasc
      have hfirst : s.refreshCount now c = .ok (⟨row.count, s.countBelow c⟩, s.recount now [c]) :=
        refreshCount_eq_ok.2 ⟨row, hrow, rfl, rfl⟩
      have hrest : (s.recount now [c]).repair now cs = _ :=
        ih hcs fun d hd => recount_hasCollection.trans (hhas d hd)
      have hcounts : (s.recount now [c]).countBelow = s.countBelow :=
        funext fun d => recount_countBelow
      have hdrifts : cs.filterMap ((s.recount now [c]).drift? s.countBelow) =
          cs.filterMap (s.drift? s.countBelow) := by
        refine List.filterMap_congr fun d hd => drift?_recount fun hdc => hc ?_
        rwa [← List.mem_singleton.1 hdc]
      rw [hcounts, hdrifts, recount_recount] at hrest
      rw [repair, hfirst]
      show (s.recount now [c]).repair now cs >>= _ = _
      rw [hrest]
      exact congrArg (fun drifts => Except.ok (drifts, _)) (filterMap_drift?_cons hrow)

/-! ### The repaired store -/

/-- The row of a collection after the repair.  It is written where its number was wrong, and nowhere
else. -/
def repaired (now : Time) (number : Id → ℕ) (row : Collection) : Collection :=
  if row.count = number row.id then row
  else { row with count := number row.id, updatedAt := now }

@[simp] theorem repaired_id (now : Time) (number : Id → ℕ) (row : Collection) :
    (repaired now number row).id = row.id := by
  unfold repaired
  split <;> rfl

@[simp] theorem repaired_count (now : Time) (number : Id → ℕ) (row : Collection) :
    (repaired now number row).count = number row.id := by
  unfold repaired
  split
  · assumption
  · rfl

/-- The rows whose number is wrong. -/
def wrong (s : Store) (number : Id → ℕ) : List Collection :=
  s.collections.rows.filter fun row => row.count ≠ number row.id

theorem nodup_collectionIds (s : Store) : s.collectionIds.Nodup :=
  (List.mergeSort_perm _ _).nodup_iff.2 s.collections.nodup

theorem mem_collectionIds : c ∈ s.collectionIds ↔ s.hasCollection c = true := by
  rw [collectionIds, List.mem_mergeSort, List.mem_map, hasCollection_iff]

theorem recalculateAll_eq (s : Store) (now : Time) :
    s.recalculateAll now =
      .ok ((⟨s.collections.size, (s.collectionIds.filterMap (s.drift? s.countBelow)).length⟩,
        s.collectionIds.filterMap (s.drift? s.countBelow)), s.recount now s.collectionIds) := by
  rw [recalculateAll, repair_eq s.nodup_collectionIds fun c hc => mem_collectionIds.1 hc]
  rfl

/-- As many wrong numbers are reported as there are rows with a wrong number. -/
theorem length_drifts (s : Store) (number : Id → ℕ) :
    (s.collectionIds.filterMap (s.drift? number)).length = (s.wrong number).length := by
  have hperm : s.collectionIds.Perm (s.collections.rows.map Collection.id) :=
    List.mergeSort_perm _ _
  rw [(hperm.filterMap _).length_eq, List.filterMap_map, List.length_filterMap_eq_countP, wrong,
    ← List.countP_eq_length_filter]
  refine List.countP_congr fun row hrow => ?_
  have hfound : s.collection? row.id = some row := collection?_eq_some.2 ⟨hrow, rfl⟩
  by_cases hright : row.count = (number row.id : Int) <;> simp [drift?, hfound, hright]

theorem recounted_eq_repaired (s : Store) (now : Time) (row : Collection) :
    s.recounted now row = repaired now s.countBelow row := by
  rw [recounted, repaired]
  by_cases hright : row.count = (s.countBelow row.id : Int)
  · rw [if_pos hright, if_pos hright.symm]
  · rw [if_neg hright, if_neg fun h => hright h.symm]

theorem recount_collectionIds_rows (s : Store) (now : Time) :
    (s.recount now s.collectionIds).collections.rows =
      s.collections.rows.map (repaired now s.countBelow) := by
  refine List.map_congr_left fun row hrow => ?_
  have hid : row.id ∈ s.collectionIds := mem_collectionIds.2 (hasCollection_iff.2 ⟨row, hrow, rfl⟩)
  rw [recountedIn, if_pos hid, recounted_eq_repaired]

/-- The numbers add up to the same wherever there are the same slots, works and collections. -/
theorem AddsUp.of_sameContent {t : Store} (hnumber : s.AddsUp number) (h : s.SameContent t) :
    t.AddsUp number := by
  intro c
  have hworth : t.worth number = s.worth number := by
    funext r
    cases r <;> simp [worth, h.works, h.collections]
  rw [hworth, slotsOf, h.slots]
  exact hnumber c

/-- Where all numbers are right the repair reports nothing and writes nothing. -/
theorem Cached.recalculateAll (hc : s.Cached s.countBelow) (now : Time) :
    s.recalculateAll now = .ok ((⟨s.collections.size, 0⟩, []), s) := by
  have hwrong : s.wrong s.countBelow = [] :=
    List.filter_eq_nil_iff.2 fun row hrow => by simp [hc row hrow]
  have hdrifts : s.collectionIds.filterMap (s.drift? s.countBelow) = [] :=
    List.eq_nil_of_length_eq_zero (by rw [length_drifts, hwrong, List.length_nil])
  rw [recalculateAll_eq, hdrifts, recount_eq_self fun row hrow _ => (hc row hrow).symm]
  rfl

/-- **The repair makes all cached numbers right.**  Whatever they were before, it writes the rows
with a wrong number, of these only the number and the time, and nothing else; it reports as many of
them as there were; and a second repair finds nothing wrong and writes nothing. -/
theorem Acyclic.recalculateAll_repairs (ha : s.Acyclic) (now : Time) : ∃ number : Id → ℕ,
    s.AddsUp number ∧ ∃ drifts t,
      s.recalculateAll now =
        .ok ((⟨s.collections.size, (s.wrong number).length⟩, drifts), t) ∧
      drifts = s.collectionIds.filterMap (s.drift? number) ∧
      t = { s with collections := t.collections } ∧
      t.collections.rows = s.collections.rows.map (repaired now number) ∧
      t.AddsUp number ∧ t.Cached number ∧
      ∀ later, t.recalculateAll later = .ok ((⟨t.collections.size, 0⟩, []), t) := by
  have hcached : (s.recount now s.collectionIds).Cached s.countBelow := by
    intro row hrow
    rw [recount_collectionIds_rows] at hrow
    obtain ⟨old, -, rfl⟩ := List.mem_map.1 hrow
    rw [repaired_count, repaired_id]
  have hcounts : (s.recount now s.collectionIds).countBelow = s.countBelow :=
    funext fun c => recount_countBelow
  refine ⟨s.countBelow, addsUp_countBelow ha, _, _, ?_, rfl, ?_,
    recount_collectionIds_rows s now, ?_, hcached, ?_⟩
  · rw [recalculateAll_eq, length_drifts]
  · rfl
  · exact (addsUp_countBelow ha).of_sameContent sameContent_recount
  · intro later
    exact Cached.recalculateAll (hcounts.symm ▸ hcached) later

theorem recalculateAll_repairs_drifted : ∃ s drifts t,
    Operation.runAll .empty Operation.drifted = .ok s ∧
    s.collections.rows.map Collection.count = [0, 0, 5, 0] ∧
    s.recalculateAll 4 = .ok ((⟨4, 3⟩, drifts), t) ∧
    t.collections.rows.map Collection.count = [1, 1, 0, 0] ∧
    t.recalculateAll 5 = .ok ((⟨4, 0⟩, []), t) := by
  obtain ⟨s, hrun, hbefore, hsize, hwrong, hafter⟩ : ∃ s,
      Operation.runAll .empty Operation.drifted = .ok s ∧
      s.collections.rows.map Collection.count = [0, 0, 5, 0] ∧ s.collections.size = 4 ∧
      (s.wrong s.countBelow).length = 3 ∧
      (s.collections.rows.map (repaired 4 s.countBelow)).map Collection.count = [1, 1, 0, 0] :=
    exists_eq_ok_of_any (by decide +kernel)
  have ha : s.Acyclic := (Reachable.runAll .empty hrun).acyclic
  obtain ⟨number, hnumber, drifts, t, hrepair, -, -, hrows, -, -, hagain⟩ :=
    Acyclic.recalculateAll_repairs ha 4
  obtain rfl := hnumber.eq_countBelow ha
  have hsize' : t.collections.size = 4 := by
    rw [Table.size, hrows, List.length_map]
    exact hsize
  rw [hsize, hwrong] at hrepair
  exact ⟨s, drifts, t, hrun, hbefore, hrepair, hrows ▸ hafter, hsize' ▸ hagain 5⟩

end Store

end Anthology
