/-
**Refreshing twice.**

A refresh leaves an uncollected collection in which there is nothing to do: every slot has its
place, no work lacks, and every number above is right.  A second refresh finds that so, and writes
nothing but the lock.

It does not follow that every work in the collection belongs there.  The slots that are added are
for works that are published and that the authority is credited with, but a slot that is kept only
has to refer to a work that exists and that is not collected.  A work that was unpublished, or that
the authority lost its credit on, stays.

Main definitions:

* `Anthology.Store.Belongs` — slots for works that belong into the collection of an authority;
* `Anthology.Store.Filled` — the slots that a refresh leaves;
* `Anthology.Store.Settled` — a collection in which there is nothing to do.

Main results:

* `Anthology.Store.filled_of_refresh`, `Anthology.Store.settled_of_refresh` — what a refresh leaves;
* `Anthology.Store.Settled.refresh` — a refresh of a settled collection;
* `Anthology.Store.Reachable.refresh_again` — **a second refresh writes nothing but the lock**;
* `Anthology.Store.Reachable.refresh_belongs_iff` — **when all the works belong**.
-/

import Anthology.Proofs.Progress

set_option relaxedAutoImplicit false
set_option autoImplicit false

namespace Anthology

namespace Store

variable {s s' t : Store} {now : Time} {a : Authority} {b id : Id} {x : Slot}

/-! ### Works that belong -/

/-- The slot refers to a published work that the authority is author, translator or editor of, and
that no collection of another kind holds. -/
def Belongs (s : Store) (a : Id) (x : Slot) : Prop :=
  ∃ m ∈ s.manifestations.rows, x.item = .manifestation m.id ∧ m.status = Manifestation.published ∧
    s.Creator a m.id ∧ ¬ s.Collected m.id

theorem Belongs.hasPlace (h : s.Belongs id x) : s.HasPlace x := by
  obtain ⟨m, hm, hitem, -, -, hcollected⟩ := h
  exact ⟨m.id, hitem, hasManifestation_iff.2 ⟨m, hm, rfl⟩, hcollected⟩

/-- Works belong in `t` where they belong in `s`. -/
structure SamePlaces (s t : Store) : Prop where
  manifestations : t.manifestations = s.manifestations
  involvements : t.involvements = s.involvements
  collected : ∀ m, t.Collected m ↔ s.Collected m

theorem SamePlaces.hasPlace_iff (h : s.SamePlaces t) (x : Slot) :
    t.HasPlace x ↔ s.HasPlace x := by
  simp only [HasPlace, hasManifestation, h.manifestations, h.collected]

theorem SamePlaces.belongs_iff (h : s.SamePlaces t) (a : Id) (x : Slot) :
    t.Belongs a x ↔ s.Belongs a x := by
  simp only [Belongs, Creator, h.manifestations, h.involvements, h.collected]

/-- A recount writes no kind of a collection, which is what counts. -/
theorem recount_collected {cs : List Id} {m : Id} :
    (s.recount now cs).Collected m ↔ s.Collected m := by
  have howner : ∀ o, (∃ row ∈ (s.recount now cs).collections.rows,
      row.id = o ∧ row.kind ≠ .uncollected) ↔
        ∃ row ∈ s.collections.rows, row.id = o ∧ row.kind ≠ .uncollected := by
    intro o
    simp only [recount, Table.rows_update, List.mem_map, exists_exists_and_eq_and, recountedIn_id,
      recountedIn_kind]
  simp only [Collected, howner]
  rfl

/-! ### What a refresh leaves -/

/-- After a refresh of the authority `a` of `s`, the collection `b` of `s'` has the slots that it
had and that have a place, and slots for the works that belong and lacked. -/
structure Filled (s : Store) (a : Authority) (b : Id) (s' : Store) : Prop extends
    SamePlaces s s' where
  kept : ∀ x ∈ s.bucketSlots a, s.HasPlace x → x ∈ s'.slotsOf b
  slots : ∀ x ∈ s'.slotsOf b, x ∈ s.bucketSlots a ∧ s.HasPlace x ∨ s.Belongs a.id x
  full : ∀ m ∈ s.manifestations.rows, m.status = Manifestation.published → s.Creator a.id m.id →
    ¬ s.Collected m.id → ∃ x ∈ s'.slotsOf b, x.item = .manifestation m.id

theorem exists_mem_appended {fresh : ℕ → Id} {n : Int} {k : ℕ} {rs : List ItemRef} {r : ItemRef} :
    (∃ x ∈ appended now fresh b n k rs, x.item = r) ↔ r ∈ rs := by
  rw [← List.mem_map, appended_items]

section Ready

variable {fresh : Id} {created : Bool}

/-- The slots that are left of the collection when it is pruned. -/
theorem BucketReady.mem_slotsOf_iff (h : BucketReady s now fresh a b created t) (howned : s.Owned)
    (hslots : t.slots.rows = s.remainingSlots b) (x : Slot) :
    x ∈ t.slotsOf b ↔ x ∈ s.bucketSlots a ∧ s.HasPlace x := by
  rw [(slotsOf_pruned_perm hslots).mem_iff, h.bucketSlots_eq howned, keptSlots, List.mem_filter,
    decide_eq_true_iff]

/-- Where works belong is decided by other slots than those that go and come. -/
theorem BucketReady.samePlaces (h : BucketReady s now fresh a b created t)
    (hslots : t.slots.rows = s.remainingSlots b) {slots : Table Slot} {xs : List Slot}
    (hrows : slots.rows = t.slots.rows ++ xs) (hxs : ∀ x ∈ xs, x.owner = b) {cs : List Id} :
    s.SamePlaces (Store.recount { t with slots } now cs) := by
  have hothers : ∀ x, x.owner ≠ b → (x ∈ slots.rows ↔ x ∈ s.slots.rows) := by
    intro x hne
    rw [hrows, List.mem_append, hslots, mem_remainingSlots, or_iff_left fun hx => hne (hxs x hx)]
    exact and_iff_left (.inl hne)
  exact ⟨h.manifestations, h.involvements, fun m =>
    recount_collected.trans ((h.with_slots slots).collected_iff hothers m)⟩

end Ready

theorem filled_of_refresh [Arithmetic] (hl : s.Lawful) {fresh : ℕ → Id} {o : RefreshOutcome}
    (h : s.refresh now fresh id = .ok (o, s')) :
    ∃ a, s.authority? id = some a ∧ Filled s a o.collection s' := by
  obtain ⟨p, t, _, u, bucket, hprepare, happend, rfl, -, rfl⟩ := refresh_eq_ok h
  obtain ⟨a, hauthority, hready, hslots, -⟩ := pruned hl hprepare
  obtain ⟨rfl, ⟨table, hrows, rfl⟩, -⟩ := appendRefs_eq_ok happend
  obtain ⟨-, rfl⟩ := authority?_eq_some.1 hauthority
  rw [candidates_eq] at hrows
  have hworks := hready.mem_lackingWorks_iff hslots
  have hkept := hready.mem_slotsOf_iff hl.owner hslots
  have hsplit := slotsOf_append hrows fun x hx => appended_owner hx
  refine ⟨a, hauthority, {
    toSamePlaces := hready.samePlaces hslots hrows fun x hx => appended_owner hx
    kept := fun x hx hplace => ?_
    slots := fun x hx => ?_
    full := fun m hm hstatus hcreator hcollected => ?_ }⟩
  · exact hsplit ▸ List.mem_append_left _ ((hkept x).2 ⟨hx, hplace⟩)
  · rcases List.mem_append.1 (hsplit ▸ hx) with hx | hx
    · exact .inl ((hkept x).1 hx)
    · obtain ⟨_, hid, hitem⟩ := List.mem_map.1 (exists_mem_appended.1 ⟨x, hx, rfl⟩)
      obtain ⟨m, hm, rfl⟩ := List.mem_map.1 hid
      obtain ⟨hmem, hstatus, hcreator, hcollected, -⟩ := (hworks m).1 hm
      exact .inr ⟨m, hmem, hitem.symm, hstatus, hcreator, hcollected⟩
  · -- a slot that was kept refers to the work, or the work lacked and a slot was added for it
    by_cases hthere : ∃ x ∈ s.keptSlots p.collection, x.item = .manifestation m.id
    · obtain ⟨x, hx, hitem⟩ := hthere
      refine ⟨x, hsplit ▸ List.mem_append_left _ ?_, hitem⟩
      exact (slotsOf_pruned_perm hslots).mem_iff.2 hx
    · push Not at hthere
      have hlacks : m ∈ t.lackingWorks a.id p.collection :=
        (hworks m).2 ⟨hm, hstatus, hcreator, hcollected, hthere⟩
      obtain ⟨x, hx, hitem⟩ := exists_mem_appended.2
        (List.mem_map_of_mem (List.mem_map_of_mem hlacks))
      exact ⟨x, hsplit ▸ List.mem_append_right _ hx, hitem⟩

/-- Every slot that a refresh leaves has a place. -/
theorem Filled.hasPlace (h : Filled s a b s') (hx : x ∈ s'.slotsOf b) : s'.HasPlace x := by
  refine (h.hasPlace_iff x).2 ?_
  rcases h.slots x hx with ⟨-, hplace⟩ | hbelongs
  · exact hplace
  · exact hbelongs.hasPlace

/-- No work lacks that belongs. -/
theorem Filled.lackingWorks_eq (h : Filled s a b s') : s'.lackingWorks a.id b = [] := by
  refine List.eq_nil_iff_forall_not_mem.2 fun m hm => ?_
  obtain ⟨hmem, hstatus, hcreator, hcollected, hnone⟩ := mem_lackingWorks.1 hm
  rw [h.manifestations] at hmem
  rw [Creator, h.involvements] at hcreator
  rw [h.collected] at hcollected
  obtain ⟨x, hx, hitem⟩ := h.full m hmem hstatus hcreator hcollected
  exact hnone x hx hitem

/-! ### Nothing is left to do -/

/-- The authority `a` is linked to the uncollected collection `b`, whose slots all have a place,
where no work lacks, and above which every number is right.  Its slots have not used up the words:
that is found out even where there is nothing to add. -/
structure Settled [Arithmetic] (s : Store) (a : Authority) (b : Id) : Prop where
  linked : a.uncollected = some b
  bucket : ∃ row, s.collection? b = some row ∧ row.kind = .uncollected
  placed : ∀ x ∈ s.slotsOf b, s.HasPlace x
  complete : s.lackingWorks a.id b = []
  room : Word.HasRoom (s.maxSeqno b) 0
  counted : ∀ row ∈ s.collections.rows, s.Contains row.id b →
    (s.countBelow row.id : Int) = row.count

theorem settled_of_refresh [Arithmetic] (hl : s.Lawful) {fresh : ℕ → Id} {o : RefreshOutcome}
    (h : s.refresh now fresh id = .ok (o, s')) :
    o.authority = id ∧ o.count = s'.countBelow o.collection ∧
      ∃ a, s'.authority? id = some a ∧ s'.Settled a o.collection := by
  obtain ⟨old, hold, hfilled⟩ := filled_of_refresh hl h
  obtain ⟨p, t, _, u, bucket, hprepare, happend, rfl, hbucket, rfl⟩ := refresh_eq_ok h
  obtain ⟨_, hauthority, hready, -, -⟩ := pruned hl hprepare
  have hroom := appendRefs_hasRoom happend
  obtain ⟨rfl, ⟨table, hrows, rfl⟩, -⟩ := appendRefs_eq_ok happend
  cases hold.symm.trans hauthority
  obtain ⟨hmem, rfl⟩ := authority?_eq_some.1 hold
  obtain ⟨row, hrow, hkind, -⟩ := hready.exists_row
  have hrow' : Store.collection? { t with slots := table } p.collection = some row := hrow
  obtain ⟨-, hbucketKind, hbucketCount⟩ := row_of_recount_upward hrow' hbucket
  have hroomAfter : Word.HasRoom (Store.maxSeqno { t with slots := table } p.collection) 0 := by
    rw [maxSeqno_appended hrows]
    exact Word.hasRoom_add_iff.1 hroom
  refine ⟨rfl, ?_, linkedRow now p.collection old, authority?_eq_some.2 ⟨?_, rfl⟩, {
    linked := rfl
    bucket := ⟨bucket, hbucket, hbucketKind.trans hkind⟩
    placed := fun x hx => hfilled.hasPlace hx
    complete := hfilled.lackingWorks_eq
    room := hroomAfter
    counted := fun row' hrow' hcontains => ?_ }⟩
  · rw [recount_countBelow]
    exact hbucketCount
  · exact hready.authorities ▸ List.mem_map.2 ⟨old, hmem, if_pos rfl⟩
  · -- the last thing that a refresh does is to put the numbers above right
    obtain ⟨row, -, rfl⟩ := List.mem_map.1 hrow'
    rw [recountedIn_id, ← mem_upward, recount_upward] at hcontains
    rw [recountedIn_id, recount_countBelow, recountedIn, if_pos hcontains, recounted_count]

/-! ### A second refresh -/

theorem prune_eq_self (h : ∀ x ∈ s.slotsOf b, s.HasPlace x) : s.prune b = (0, s) := by
  have hlost : ∀ x ∈ s.slots.rows, (x.owner == b && !s.keepsPlace x) = false := by
    intro x hx
    by_cases howner : x.owner = b
    · simp [howner, keepsPlace_iff.2 (h x (mem_slotsOf.2 ⟨hx, howner⟩))]
    · simp [howner]
  refine Prod.ext ?_ ?_
  · exact List.countP_eq_zero.2 fun x hx => Bool.eq_false_iff.1 (hlost x hx)
  · have hslots : s.slots.keep (fun x => !(x.owner == b && !s.keepsPlace x)) = s.slots := by
      refine Table.ext (List.filter_eq_self.2 fun x hx => ?_)
      rw [hlost x hx]
      rfl
    rw [prune, dropSlots, hslots]

/-- It does not matter what is written down of authorities. -/
theorem Settled.editAuthority [Arithmetic] (h : s.Settled a b) {f : Authority → Authority}
    {hf : ∀ x, (f x).id = x.id} : (s.editAuthority id f hf).Settled a b := by
  have hsame : s.SameContent (s.editAuthority id f hf) := ⟨rfl, fun _ => rfl, fun _ => rfl⟩
  have hchildren : ∀ c d, d ∈ (s.editAuthority id f hf).childrenOf c → d ∈ s.childrenOf c :=
    fun _ _ hd => hd
  refine { h with counted := fun row hrow habove => ?_ }
  rw [countBelow_congr hsame rfl]
  exact h.counted row hrow (habove.mono hchildren)

/-- The collection is found by its link, and no slot goes. -/
theorem Settled.prepare [Arithmetic] (h : s.Settled a b) (ha : s.authority? id = some a)
    (fresh : Id) :
    s.prepare now fresh id =
      .ok (⟨b, false, 0⟩, s.editAuthority id (lockedRow now) fun _ => rfl) := by
  obtain ⟨row, hrow, hkind⟩ := h.bucket
  let t := s.editAuthority id (lockedRow now) fun _ => rfl
  have hlock : s.lockAuthority now id = .ok (a, t) := by
    rw [lockAuthority, ha]
    rfl
  have hbucket : t.bucketOf now fresh a = .ok ((b, false), t) := by
    have hlinked : a.uncollected.bind t.collection? = some row := by
      rw [h.linked]
      exact hrow
    have huncollected : row.isUncollected = true := by
      rw [Collection.isUncollected, hkind]
      rfl
    simp only [bucketOf, hlinked, huncollected, if_true, (collection?_eq_some.1 hrow).2]
  have hprune : t.prune b = (0, t) := prune_eq_self h.placed
  refine bind_eq_ok.2 ⟨_, hlock, bind_eq_ok.2 ⟨_, hbucket, ?_⟩⟩
  simp only [Bool.false_eq_true, if_false, hprune]
  rfl

/-- The numbers above are right, so counting anew writes nothing. -/
theorem Settled.propagate [Arithmetic] (h : s.Settled a b) (howned : s.Owned) :
    s.propagate now b = .ok s := by
  obtain ⟨row, hrow, -⟩ := h.bucket
  rw [exists_propagate howned (hasCollection_of_collection? hrow)]
  refine congrArg Except.ok (recount_eq_self fun c hc habove => ?_)
  exact h.counted c hc (mem_upward.1 habove)

/-- **Where nothing is left to do**, a refresh locks the authority and writes nothing else. -/
theorem Settled.refresh [Arithmetic] (h : s.Settled a b) (howned : s.Owned)
    (ha : s.authority? id = some a)
    (now : Time) (fresh : ℕ → Id) :
    s.refresh now fresh id = .ok (⟨id, b, false, 0, 0, s.countBelow b⟩,
      s.editAuthority id (lockedRow now) fun _ => rfl) := by
  let t := s.editAuthority id (lockedRow now) fun _ => rfl
  have ht : t.Settled a b := h.editAuthority
  obtain ⟨-, hid⟩ := authority?_eq_some.1 ha
  have happend : t.appendRefs now (Prepared.slotIds ⟨b, false, 0⟩ fresh) b
      ((t.candidates id b).map .manifestation) = .ok ([], t) := by
    obtain ⟨hmax, n, hnext⟩ := Word.hasRoom_zero_iff.1 ht.room
    rw [candidates_eq, ← hid, ht.complete, appendRefs, nextPlace_eq_ok.2 ⟨hmax, hnext⟩]
    rfl
  obtain ⟨row, hrow, -⟩ := ht.bucket
  obtain ⟨hmem, rfl⟩ := collection?_eq_some.1 hrow
  refine bind_eq_ok.2 ⟨_, h.prepare ha (fresh 0), bind_eq_ok.2 ⟨_, happend,
    bind_eq_ok.2 ⟨_, ht.propagate howned, ?_⟩⟩⟩
  rw [hrow, h.counted row hmem (.refl _)]
  rfl

/-- **A second refresh writes nothing but the lock**, and reports the same collection with the same
number, whenever it comes and whatever ids it is given. -/
theorem Reachable.refresh_again [Arithmetic] (h : s.Reachable) {fresh : ℕ → Id} {o : RefreshOutcome}
    (hrefresh : s.refresh now fresh id = .ok (o, s')) (later : Time) (fresh' : ℕ → Id) :
    s'.refresh later fresh' id = .ok ({ o with created := false, removed := 0, added := 0 },
      s'.editAuthority id (lockedRow later) fun _ => rfl) := by
  obtain ⟨hid, hcount, a, ha, hsettled⟩ := settled_of_refresh h.lawful hrefresh
  have howned := ((writes_refresh hrefresh).lawful h.lawful).owner
  rw [hsettled.refresh howned ha, hid, hcount]

theorem refresh_again_authored : ∃ s o s', Operation.runAll .empty Operation.authored = .ok s ∧
    s.refresh 1 (lettered 'x') "author" = .ok (o, s') ∧ o.created = true ∧ o.added = 1 ∧
      s'.refresh 2 (lettered 'y') "author" =
        .ok ({ o with created := false, removed := 0, added := 0 },
          s'.editAuthority "author" (lockedRow 2) fun _ => rfl) := by
  obtain ⟨s, hs, hrefresh⟩ : ∃ s, Operation.runAll .empty Operation.authored = .ok s ∧
      (s.refresh 1 (lettered 'x') "author").toOption.any (fun r =>
        decide (r.1.created = true ∧ r.1.added = 1)) = true :=
    exists_eq_ok_of_any (by decide +kernel)
  obtain ⟨⟨o, s'⟩, hs', hcreated, hadded⟩ := exists_eq_ok_of_any hrefresh
  exact ⟨s, o, s', hs, hs', hcreated, hadded, Reachable.refresh_again (.runAll .empty hs) hs' 2 _⟩

/-! ### Works that do not belong any more -/

/-- **When all the works belong.**  After a refresh every slot of the collection refers to a work
that exists and that is not collected; but all the works belong there exactly when those did that
kept their slots, because only added works are looked at for more. -/
theorem Reachable.refresh_belongs_iff [Arithmetic] (h : s.Reachable) {fresh : ℕ → Id}
    {o : RefreshOutcome}
    (hrefresh : s.refresh now fresh id = .ok (o, s')) :
    ∃ a, s.authority? id = some a ∧ (∀ x ∈ s'.slotsOf o.collection, s'.HasPlace x) ∧
      ((∀ x ∈ s'.slotsOf o.collection, s'.Belongs id x) ↔
        ∀ x ∈ s.bucketSlots a, s.HasPlace x → s.Belongs id x) := by
  obtain ⟨a, ha, hfilled⟩ := filled_of_refresh h.lawful hrefresh
  obtain ⟨-, rfl⟩ := authority?_eq_some.1 ha
  refine ⟨a, ha, fun x hx => hfilled.hasPlace hx, fun hall x hx hplace => ?_, fun hall x hx => ?_⟩
  · exact (hfilled.belongs_iff a.id x).1 (hall x (hfilled.kept x hx hplace))
  · refine (hfilled.belongs_iff a.id x).2 ?_
    rcases hfilled.slots x hx with ⟨hx, hplace⟩ | hbelongs
    · exact hall x hx hplace
    · exact hbelongs

theorem refresh_belongs_authored : ∃ s o s', Operation.runAll .empty Operation.authored = .ok s ∧
    s.refresh 1 (lettered 'x') "author" = .ok (o, s') ∧ o.added = 1 ∧
      ∀ x ∈ s'.slotsOf o.collection, s'.Belongs "author" x := by
  obtain ⟨s, hs, hunlinked, hrefresh⟩ : ∃ s, Operation.runAll .empty Operation.authored = .ok s ∧
      (∀ a ∈ s.authorities.rows, a.uncollected = none) ∧
        (s.refresh 1 (lettered 'x') "author").toOption.any (fun r => decide (r.1.added = 1)) =
          true := exists_eq_ok_of_any (by decide +kernel)
  obtain ⟨⟨o, s'⟩, hs', hadded⟩ := exists_eq_ok_of_any hrefresh
  obtain ⟨a, ha, -, hall⟩ := Reachable.refresh_belongs_iff (.runAll .empty hs) hs'
  refine ⟨s, o, s', hs, hs', hadded, hall.2 fun x hx => ?_⟩
  -- the collection is new, so no slot is kept
  rw [bucketSlots, hunlinked a (authority?_eq_some.1 ha).1] at hx
  exact absurd hx List.not_mem_nil

/-- A work that is unpublished after it was added stays in the collection. -/
theorem refresh_keeps_unpublished : ∃ s o s',
    Operation.runAll .empty (Operation.authored ++ [
      .refresh 1 (lettered 'x') "author",
      .updateManifestation 2 (.create "work" 0 "Work" Manifestation.unpublished)]) = .ok s ∧
    s.Reachable ∧ s.refresh 3 (lettered 'y') "author" = .ok (o, s') ∧ o.removed = 0 ∧
      ∃ x ∈ s'.slotsOf o.collection, ¬ s'.Belongs "author" x := by
  obtain ⟨s, hs, hrefresh⟩ : ∃ s, Operation.runAll .empty (Operation.authored ++ [
      .refresh 1 (lettered 'x') "author",
      .updateManifestation 2 (.create "work" 0 "Work" Manifestation.unpublished)]) = .ok s ∧
        (s.refresh 3 (lettered 'y') "author").toOption.any (fun r => decide (r.1.removed = 0 ∧
          (∃ x ∈ r.2.slotsOf r.1.collection, x.item = .manifestation "work") ∧
            ∀ m ∈ r.2.manifestations.rows, m.status ≠ Manifestation.published)) = true :=
    exists_eq_ok_of_any (by decide +kernel)
  obtain ⟨⟨o, s'⟩, hs', hremoved, ⟨x, hx, -⟩, hnone⟩ := exists_eq_ok_of_any hrefresh
  refine ⟨s, o, s', hs, .runAll .empty hs, hs', hremoved, x, hx, ?_⟩
  rintro ⟨m, hm, -, hpublished, -⟩
  exact hnone m hm hpublished

end Store

end Anthology
