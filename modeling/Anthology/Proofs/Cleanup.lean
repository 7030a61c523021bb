/-
**What a cleanup does.**

A cleanup treats the orphans from the oldest on, and the fate of each is decided by its works and
their credits and by those it linked before.  It leaves no orphan, so there is nothing to do for
another one; and no collection goes but orphans.

A collection that is deleted takes along the slots that refer to it.  So an orphan that is linked
may lose slots in the same run, those that refer to orphans that are deleted.  Its works stay.

Main definitions:

* `Anthology.Store.Cleaned` — the store and the report after a cleanup.

Main results:

* `Anthology.Store.link_unique` — nobody is linked to two orphans;
* `Anthology.Store.Carried.settled` — no orphan is left;
* `Anthology.Store.Reachable.cleaned` — **what a cleanup does**, and that it leaves nothing to do.
-/

import Anthology.Proofs.DryRun

set_option relaxedAutoImplicit false
set_option autoImplicit false

namespace Anthology

namespace Store

variable {s t : Store} {now : Time} {c d : Id} {a : Id} {done : List (Id × OrphanFate)}
  {fate : OrphanFate}

/-! ### What a cleanup does -/

/-- The store `t` and the report `r` after a cleanup of the store `s`, where `orphans` are the
orphans in their order and `fates` what became of them. -/
structure Cleaned (s : Store) (now : Time) (orphans : List Collection)
    (fates : List (Id × OrphanFate)) (r : CleanupReport) (t : Store) : Prop where
  /-- The orphans are the uncollected collections that no authority is linked to. -/
  mem_orphans : ∀ row, row ∈ orphans ↔ row ∈ s.collections.rows ∧ row.kind = .uncollected ∧
    ∀ a ∈ s.authorities.rows, a.uncollected ≠ some row.id
  ordered : orphans.Pairwise fun old row =>
    old.createdAt < row.createdAt ∨ old.createdAt = row.createdAt ∧ old.id < row.id
  treated : fates.map Prod.fst = orphans.map Collection.id
  /-- Each fate is decided by the works of the orphan, their credits and the fates before it. -/
  decided : ∀ before c fate after, fates = before ++ (c, fate) :: after →
    s.Decided before c fate
  report : r = ⟨.execute, orphans.length, fates.countP (·.2 matches .deleteEmpty),
    fates.countP (·.2 matches .link _), fates.countP (·.2 matches .deleteDuplicate _),
    fates.countP (·.2 matches .deleteUnfixable _)⟩
  sum : r.deletedEmpty + r.linked + r.deletedDuplicate + r.deletedUnfixable = r.orphansFound
  /-- An orphan that is linked keeps its row, but for the number of its works, and its slots, but
  for those that refer to an orphan that was deleted. -/
  linked : ∀ c a, (c, .link a) ∈ fates →
    (∃ old row, s.collection? c = some old ∧ t.collection? c = some row ∧
      SameButCount old row) ∧
    (∃ x, s.authority? a = some x ∧
      t.authority? a = some { x with uncollected := some c, updatedAt := now }) ∧
    t.slotsOf c = (s.slotsOf c).filter fun x => ∀ d ∈ deletedIn fates, x.item ≠ .collection d
  deleted : ∀ c fate, (c, fate) ∈ fates → fate.linked? = none → t.hasCollection c = false
  /-- Collections of other kinds, and those that an authority was linked to before, stay. -/
  kept : ∀ old ∈ s.collections.rows,
    old.kind ≠ .uncollected ∨ (∃ a ∈ s.authorities.rows, a.uncollected = some old.id) →
      ∃ row, t.collection? old.id = some row ∧ SameButCount old row
  settled : ∀ row ∈ t.collections.rows, row.kind = .uncollected →
    ∃ a ∈ t.authorities.rows, a.uncollected = some row.id
  /-- A second run finds no orphan and writes nothing. -/
  again : ∀ later, t.cleanup later .execute = ⟨.ok (.start .execute 0, t), []⟩

theorem fates_map_fst (s : Store) : s.fates.map Prod.fst = s.orphans.map Collection.id :=
  plan_map_fst ..

theorem Lawful.decided_fates (hl : s.Lawful) {before after : List (Id × OrphanFate)}
    (h : s.fates = before ++ (c, fate) :: after) : s.Decided before c fate := by
  have hnone : ∀ a : Id, a ∈ ([] : List Id) ↔
      ∃ d, (d, .link a) ∈ ([] : List (Id × OrphanFate)) := by simp
  exact hl.decided_of_plan hnone h

theorem orphan_of_mem_fates (h : (c, fate) ∈ s.fates) : s.Orphan c := by
  have hlisted := List.mem_map_of_mem (f := Prod.fst) h
  rw [fates_map_fst] at hlisted
  exact orphan_of_mem_orphans hlisted

theorem exists_fate (h : s.Orphan c) : ∃ fate, (c, fate) ∈ s.fates := by
  obtain ⟨row, hrow, -⟩ := h.row
  obtain ⟨hmem, rfl⟩ := collection?_eq_some.1 hrow
  have hlisted := List.mem_map_of_mem (f := Collection.id) (mem_orphans.2 ⟨hmem, h⟩)
  rw [← fates_map_fst] at hlisted
  obtain ⟨⟨_, fate⟩, hfate, rfl⟩ := List.mem_map.1 hlisted
  exact ⟨fate, hfate⟩

/-- An authority that is linked in a run had no collection. -/
theorem of_link_mem_fates (hl : s.Lawful) (h : (c, .link a) ∈ s.fates) :
    ∃ x ∈ s.authorities.rows, x.id = a ∧ x.uncollected = none := by
  obtain ⟨before, after, hsplit⟩ := List.append_of_mem h
  exact (hl.decided_fates hsplit).of_link.1

/-- An authority is linked to one orphan only. -/
theorem link_unique (hl : s.Lawful) (h : (c, .link a) ∈ s.fates) (h' : (d, .link a) ∈ s.fates) :
    c = d := by
  obtain ⟨before, after, hsplit⟩ := List.append_of_mem h
  have hfirst := (hl.decided_fates hsplit).of_link.2
  rw [hsplit] at h'
  rcases List.mem_append.1 h' with hbefore | hrest
  · exact absurd hbefore (hfirst d)
  · rcases List.mem_cons.1 hrest with hsame | hafter
    · exact (congrArg Prod.fst hsame).symm
    · -- the later of the two was decided with the earlier before it
      obtain ⟨between, rest, rfl⟩ := List.append_of_mem hafter
      have hsplit' : s.fates = (before ++ (c, .link a) :: between) ++ (d, .link a) :: rest := by
        rw [hsplit]
        simp
      exact absurd (by simp) ((hl.decided_fates hsplit').of_link.2 c)

/-- An orphan that is linked is not deleted as well. -/
theorem not_deleted_of_link (h : (c, .link a) ∈ s.fates) : c ∉ deletedIn s.fates := by
  intro hdeleted
  obtain ⟨fate, hfate, hnone⟩ := mem_deletedIn.1 hdeleted
  have hnodup : (s.fates.map Prod.fst).Nodup := by
    rw [fates_map_fst]
    exact s.nodup_orphans
  cases List.inj_on_of_nodup_map hnodup h hfate rfl
  contradiction

theorem endowed_of_link_mem_fates (hl : s.Lawful) {x : Authority} (h : (c, .link x.id) ∈ s.fates) :
    endowed now s.fates x = { x with uncollected := some c, updatedAt := now } := by
  obtain ⟨d, hd, hlinked⟩ := endowed_of_linked now h
  rw [hlinked, link_unique hl h hd]

section Cleaned

variable (h : Carried s now s.fates t)

include h

/-- A collection that is not an orphan stays. -/
theorem Carried.kept {old : Collection} (hold : old ∈ s.collections.rows)
    (horphan : ¬ s.Orphan old.id) : ∃ row, t.collection? old.id = some row ∧
      SameButCount old row := by
  refine h.exists_row hold fun hdeleted => horphan ?_
  obtain ⟨fate, hfate, -⟩ := mem_deletedIn.1 hdeleted
  exact orphan_of_mem_fates hfate

theorem Carried.linked (hl : s.Lawful) (hlink : (c, .link a) ∈ s.fates) :
    (∃ old row, s.collection? c = some old ∧ t.collection? c = some row ∧
      SameButCount old row) ∧
    ∃ x, s.authority? a = some x ∧
      t.authority? a = some { x with uncollected := some c, updatedAt := now } := by
  constructor
  · obtain ⟨old, hold, -⟩ := (orphan_of_mem_fates hlink).row
    obtain ⟨hmem, rfl⟩ := collection?_eq_some.1 hold
    obtain ⟨row, hrow, hsame⟩ := h.exists_row hmem (not_deleted_of_link hlink)
    exact ⟨old, row, hold, hrow, hsame⟩
  · obtain ⟨x, hx, rfl, -⟩ := of_link_mem_fates hl hlink
    refine ⟨x, authority?_eq_some.2 ⟨hx, rfl⟩, authority?_eq_some.2 ⟨?_, rfl⟩⟩
    rw [h.authorities, ← endowed_of_link_mem_fates hl hlink]
    exact List.mem_map_of_mem hx

/-- **No orphan is left.** -/
theorem Carried.settled (hl : s.Lawful) (c : Id) : ¬ t.Orphan c := by
  intro horphan
  obtain ⟨row, hrow, hkind⟩ := horphan.row
  obtain ⟨hmem, rfl⟩ := collection?_eq_some.1 hrow
  obtain ⟨old, hold, hsame⟩ := h.exists_old hmem
  have hid := hsame.id_eq
  by_cases hbefore : s.Orphan row.id
  · -- it was an orphan before, so it was linked, because it was not deleted
    obtain ⟨fate, hfate⟩ := exists_fate hbefore
    cases hlinked : fate.linked? with
    | none =>
        exact h.not_deleted (hasCollection_of_collection? hrow)
          (mem_deletedIn.2 ⟨fate, hfate, hlinked⟩)
    | some a =>
        obtain rfl := linked?_eq_some.1 hlinked
        obtain ⟨-, x, -, hx⟩ := h.linked hl hfate
        exact horphan.unlinked _ (authority?_eq_some.1 hx).1 rfl
  · -- it was linked before, and that authority got no other link
    refine hbefore ⟨⟨old, collection?_eq_some.2 ⟨hold, hid.symm⟩, ?_⟩, fun a ha hlink => ?_⟩
    · rwa [← hsame.isUncollected_eq]
    · have hsame : endowed now s.fates a = a := by
        refine endowed_of_unlinked fun d hd => ?_
        obtain ⟨x, hx, hxa, hfree⟩ := of_link_mem_fates hl hd
        rw [Table.eq_of_key_eq hx ha hxa, hlink] at hfree
        contradiction
      refine horphan.unlinked a ?_ hlink
      rw [h.authorities, ← hsame]
      exact List.mem_map_of_mem ha

end Cleaned

/-- Where no orphan is left a cleanup does nothing. -/
theorem cleanup_of_settled (h : ∀ c, ¬ t.Orphan c) (now : Time) (mode : CleanupMode) :
    t.cleanup now mode = ⟨.ok (.start mode 0, t), []⟩ := by
  have hnone : t.orphans = [] :=
    List.eq_nil_iff_forall_not_mem.2 fun row hrow => h row.id (mem_orphans.1 hrow).2
  rw [cleanup, hnone]
  rfl

theorem orphan_iff {row : Collection} (hrow : row ∈ s.collections.rows) : s.Orphan row.id ↔
    row.kind = .uncollected ∧ ∀ a ∈ s.authorities.rows, a.uncollected ≠ some row.id := by
  have hthere := collection?_eq_some.2 ⟨hrow, rfl⟩
  rw [← isUncollected_iff]
  constructor
  · intro h
    exact ⟨h.isUncollected row hthere, h.unlinked⟩
  · rintro ⟨hkind, hunlinked⟩
    exact ⟨⟨row, hthere, hkind⟩, hunlinked⟩

/-- **What a cleanup does**, and that it leaves nothing to do. -/
theorem Reachable.cleaned [Arithmetic] (h : s.Reachable) (now : Time) :
    ∃ orphans fates r t, (s.cleanup now .execute).result = .ok (r, t) ∧
      Cleaned s now orphans fates r t := by
  obtain ⟨t, ht, hcarried⟩ := h.cleanup_execute now
  refine ⟨s.orphans, s.fates, _, t, congrArg Cleanup.result ht, ?_⟩
  have hlength : s.fates.length = s.orphans.length := by
    simpa using congrArg List.length s.fates_map_fst
  have hreport := CleanupReport.countAll_eq (.start .execute s.orphans.length) s.fates
  simp only [CleanupReport.start, Nat.zero_add] at hreport
  exact {
    mem_orphans := fun row => mem_orphans.trans (and_congr_right orphan_iff)
    ordered := s.pairwise_orphans
    treated := s.fates_map_fst
    decided := fun before c fate after => h.lawful.decided_fates
    report := hreport
    sum := by
      rw [CleanupReport.start, hreport]
      exact (CleanupReport.sum_countP s.fates).trans hlength
    linked := fun c a hlink =>
      have hstays := hcarried.linked h.lawful hlink
      ⟨hstays.1, hstays.2, hcarried.slotsOf_eq (not_deleted_of_link hlink)⟩
    deleted := fun c fate hfate hnone => Bool.eq_false_iff.2 fun hthere =>
      hcarried.not_deleted hthere (mem_deletedIn.2 ⟨fate, hfate, hnone⟩)
    kept := fun old hold hkept => hcarried.kept hold fun horphan => by
      obtain ⟨hkind, hunlinked⟩ := (orphan_iff hold).1 horphan
      rcases hkept with hne | ⟨a, ha, hlink⟩
      · exact hne hkind
      · exact hunlinked a ha hlink
    settled := fun row hrow hkind => by
      by_contra hnone
      refine hcarried.settled h.lawful row.id ((orphan_iff hrow).2 ⟨hkind, fun a ha hlink => ?_⟩)
      exact hnone ⟨a, ha, hlink⟩
    again := fun later => cleanup_of_settled (hcarried.settled h.lawful) later .execute }

theorem cleaned_leftBehind : ∃ s, Operation.runAll .empty leftBehind = .ok s ∧
    s.orphans.map Collection.id = ["outer", "inner"] ∧
    ∃ orphans fates r t, (s.cleanup 9 .execute).result = .ok (r, t) ∧
      Cleaned s 9 orphans fates r t := by
  obtain ⟨s, hs, -⟩ : ∃ s, Operation.runAll .empty leftBehind = .ok s ∧ True :=
    exists_eq_ok_of_any (by decide +kernel)
  exact ⟨s, hs, orphans_leftBehind hs, Reachable.cleaned (.runAll .empty hs) 9⟩

/-- **An orphan that is linked may lose a slot**, one that refers to an orphan that is deleted in
the same run. -/
theorem linked_loses_slot : ∃ (s : Store) (r : CleanupReport) (t : Store), s.Reachable ∧
    s.Orphan "outer" ∧ (s.cleanup 9 .execute).result = .ok (r, t) ∧
    (∃ a ∈ t.authorities.rows, a.uncollected = some "outer") ∧
    (s.slotsOf "outer").map Slot.id = ["nested", "held"] ∧
    (t.slotsOf "outer").map Slot.id = ["held"] := by
  obtain ⟨s, hs, hslots, htreat⟩ : ∃ s, Operation.runAll .empty leftBehind = .ok s ∧
      (s.slotsOf "outer").map Slot.id = ["nested", "held"] ∧
      (treat .execute 9 s [] (.start .execute 2) ["outer", "inner"]).result.toOption.any
        (fun r => decide ((∃ a ∈ r.2.authorities.rows, a.uncollected = some "outer") ∧
          (r.2.slotsOf "outer").map Slot.id = ["held"])) = true :=
    exists_eq_ok_of_any (by decide +kernel)
  obtain ⟨⟨r, t⟩, hrun, hlinked, hleft⟩ := exists_eq_ok_of_any htreat
  have horphans := orphans_leftBehind hs
  have hcleanup : (s.cleanup 9 .execute).result = .ok (r, t) := by
    rw [cleanup, ← List.length_map, horphans]
    exact hrun
  refine ⟨s, r, t, .runAll .empty hs, orphan_of_mem_orphans ?_, hcleanup, hlinked, hslots, hleft⟩
  rw [horphans]
  exact List.mem_cons_self

end Store

end Anthology
