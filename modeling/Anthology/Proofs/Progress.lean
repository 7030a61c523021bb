/-
**The upkeep never gets stuck.**

What a store holds after operations can stop the upkeep in one way only.  A refresh fails for a
missing authority, or because an id that it is given does not serve: it is taken, or blank.  It
fails besides where the numbers of the slots have run out, because one of the slots that stay has a
number so high that there are too few words behind it.  It fails for no other reason, because the
link of an authority leads to an uncollected collection if it leads anywhere, and nobody else has
that link.  A cleanup never fails: each orphan is still there, and still without a link, when its
turn comes.

Main definitions:

* `Anthology.Store.HasRoom` — there are numbers enough for what a refresh adds;
* `Anthology.Store.RefreshFault` — why a refresh may fail;
* `Anthology.Store.FreshIds` — ids that serve;
* `Anthology.Store.Orphan` — an uncollected collection that no authority is linked to.

Main results:

* `Anthology.Store.bucketOf_eq_error`, `Anthology.Store.appendRefs_fault` — the two steps that may
  fail for an id;
* `Anthology.Store.refresh_fault` — **a refresh fails for no other reason**;
* `Anthology.Store.FreshIds.refresh_iff` — when it succeeds;
* `Anthology.Store.Orphan.exists_resolve`, `Anthology.Store.Orphan.resolve` — an orphan can be
  treated, and the others stay orphans;
* `Anthology.Store.Reachable.exists_cleanup` — **a cleanup never fails**;
* `Anthology.Store.Reachable.upkeep_succeeds` — both, with what it rests on.
-/

import Anthology.Proofs.Links
import Anthology.Proofs.References

set_option relaxedAutoImplicit false
set_option autoImplicit false

namespace Anthology

namespace Store

variable {s t : Store} {now : Time} {c id : Id}

/-! ### Recounts and links succeed -/

/-- What is above a collection that exists can be counted anew, because all of it exists. -/
theorem exists_propagate (howned : s.Owned) (hc : s.hasCollection c = true) :
    s.propagate now c = .ok (s.recount now (s.upward c)) :=
  propagate_eq_ok.2 ⟨fun _ hd => hd.hasCollection howned hc, rfl⟩

/-- An authority can be linked to a collection that exists, unless another one is. -/
theorem exists_link {a : Id} (hfree : ∀ x ∈ s.authorities.rows, x.uncollected = some c → x.id = a)
    (hc : s.hasCollection c = true) : ∃ t, s.link now a c = .ok t := by
  have hset : ∃ t, s.setLink a (some c) = .ok t := by
    unfold setLink
    split
    · exact ⟨s, rfl⟩
    · contradiction
    · rename_i hl
      cases hl
      have hall : (s.authorities.rows.all fun x => x.id == a || x.uncollected != some c) =
          true := by
        refine List.all_eq_true.2 fun x hx => ?_
        by_cases hlink : x.uncollected = some c
        · simp [hfree x hx hlink]
        · simp [hlink]
      exact ⟨_, bind_eq_ok.2 ⟨(), ensure_eq_ok.2 hall, bind_eq_ok.2 ⟨(), ensure_eq_ok.2 hc, rfl⟩⟩⟩
  obtain ⟨t, hset⟩ := hset
  exact ⟨_, bind_eq_ok.2 ⟨t, hset, rfl⟩⟩

/-! ### Numbers for the slots that a refresh adds -/

/-- The slots of the collection of an authority that have a place in it. -/
def staying (s : Store) (a : Authority) : List Slot :=
  (s.bucketSlots a).filter fun x => decide (s.HasPlace x)

/-- The works that belong into the collection of an authority and that no such slot refers to, by
title. -/
def missing (s : Store) (a : Authority) : List Manifestation :=
  (s.manifestations.rows.filter fun m => m.isPublished && s.qualifies a.id m.id &&
    !s.collected m.id && !(s.staying a).any fun x => x.item == .manifestation m.id).mergeSort
      Manifestation.precedes

theorem mem_missing {a : Authority} {m : Manifestation} : m ∈ s.missing a ↔
    m ∈ s.manifestations.rows ∧ m.status = Manifestation.published ∧ s.Creator a.id m.id ∧
      ¬ s.Collected m.id ∧ ∀ x ∈ s.staying a, x.item ≠ .manifestation m.id := by
  simp only [missing, List.mem_mergeSort, List.mem_filter, Bool.and_eq_true,
    Manifestation.isPublished, beq_iff_eq, qualifies_iff, Bool.not_eq_true', ← Bool.not_eq_true,
    collected_iff, List.any_eq_true, not_exists, not_and, and_assoc, ne_eq]

/-- The highest number of the slots that stay, and 0 where there are none. -/
def highest (s : Store) (a : Authority) : Int := ((s.staying a).map Slot.seqno).max?.getD 0

/-- Behind the slots that stay there are numbers for all the works that are missing. -/
def HasRoom [Arithmetic] (s : Store) (a : Authority) : Prop :=
  Word.HasRoom (s.highest a) (s.missing a).length

/-- What is reported where the numbers run out: that the highest one is no word, or what becomes of
a sum of words that fits none. -/
def crampedFault [Arithmetic] (s : Store) (a : Authority) : Fault :=
  if Word.last < s.highest a then .storage .unreadableMax
  else if Arithmetic.checked then .overflow
  else .invalidInput "CollectionItem" "Seqno must be positive"

instance [Arithmetic] {a : Authority} : Decidable (s.HasRoom a) :=
  inferInstanceAs (Decidable (Word.HasRoom _ _))

/-- There is room where there are numbers for all works. -/
theorem hasRoom_of_lt [Arithmetic] {a : Authority}
    (h : s.highest a + s.manifestations.rows.length < Word.last) : s.HasRoom a := by
  have hmissing : (s.missing a).length ≤ s.manifestations.rows.length := by
    rw [missing, List.length_mergeSort]
    exact List.length_filter_le _ _
  unfold HasRoom Word.HasRoom
  split <;> omega

theorem nodup_filter_manifestations (s : Store) (p : Manifestation → Bool) :
    ((s.manifestations.rows.filter p).mergeSort Manifestation.precedes).Nodup :=
  (List.mergeSort_perm _ _).nodup_iff.2 ((List.Nodup.of_map _ s.manifestations.nodup).filter p)

theorem BucketReady.keptSlots_eq {a : Authority} {b fresh : Id} {created : Bool}
    (h : BucketReady s now fresh a b created t) (hl : s.Lawful) :
    s.keptSlots b = s.staying a := by
  rw [staying, h.bucketSlots_eq hl.owner]
  rfl

/-- The highest number is the same before and after a refresh has prepared the collection. -/
theorem BucketReady.maxSeqno_eq {a : Authority} {b fresh : Id} {created : Bool}
    (h : BucketReady s now fresh a b created t) (hl : s.Lawful)
    (hslots : t.slots.rows = s.remainingSlots b) : t.maxSeqno b = s.highest a := by
  rw [highest, ← h.keptSlots_eq hl]
  refine Store.maxSeqno_eq (fun x hx => hl.seqno x ?_) (slotsOf_pruned_perm hslots)
  exact (mem_remainingSlots.1 (hslots ▸ hx)).1

/-- So is the room behind it. -/
theorem BucketReady.hasRoom_iff [Arithmetic] {a : Authority} {b fresh : Id} {created : Bool}
    (h : BucketReady s now fresh a b created t) (hl : s.Lawful)
    (hslots : t.slots.rows = s.remainingSlots b) :
    Word.HasRoom (t.maxSeqno b) (t.candidates a.id b).length ↔ s.HasRoom a := by
  have hperm : (t.lackingWorks a.id b).Perm (s.missing a) := by
    refine (List.perm_ext_iff_of_nodup (t.nodup_filter_manifestations _)
      (s.nodup_filter_manifestations _)).2 fun m => (h.mem_lackingWorks_iff hslots m).trans ?_
    rw [h.keptSlots_eq hl]
    exact mem_missing.symm
  rw [h.maxSeqno_eq hl hslots, candidates_eq, List.length_map, hperm.length_eq]
  rfl

/-! ### Why a refresh may fail -/

/-- The ways in which a refresh may fail: for a missing authority, for an id that it is given, or
for numbers. -/
inductive RefreshFault [Arithmetic] (s : Store) (fresh : ℕ → Id) (id : Id) : Fault → Prop
  | unknown (missing : s.authority? id = none) : RefreshFault s fresh id (.notFound "Authority" id)
  | collectionTaken (taken : s.hasCollection (fresh 0) = true) :
      RefreshFault s fresh id (.violated .collectionKey)
  | slotTaken (taken : (∃ i, s.slots.has (fresh i) = true) ∨ ∃ i j, i ≠ j ∧ fresh i = fresh j) :
      RefreshFault s fresh id (.violated .slotKey)
  /-- The collection, new or not, was given a blank id. -/
  | bucketBlank {b : Id} (blank : Text.isBlank b = true)
      (bucket : b = fresh 0 ∨ ∃ row ∈ s.collections.rows, row.id = b ∧ row.isUncollected = true) :
      RefreshFault s fresh id
        (.invalidInput "CollectionItem" "Collection item must belong to a collection")
  /-- The numbers ran out. -/
  | full {a : Authority} (found : s.authority? id = some a) (cramped : ¬ s.HasRoom a) :
      RefreshFault s fresh id (s.crampedFault a)

/-- There is nothing wrong with a new uncollected collection. -/
theorem flaw?_create_uncollected (fresh : Id) (now : Time) :
    (Collection.create fresh now uncollectedTitle .uncollected).flaw? = none := by
  have htitle : Text.isBlank uncollectedTitle = false := by decide +kernel
  simp [Collection.flaw?, Collection.create, htitle]

/-- **A linked collection is of the right kind, and a new one can be linked**, so it is only for its
id that a new one may be refused. -/
theorem bucketOf_eq_error (hl : s.Lawful) (hb : s.BucketLinks) {a row : Authority} {fresh : Id}
    {f : Fault} (hrow : row ∈ s.authorities.rows) (hlink : row.uncollected = a.uncollected)
    (h : s.bucketOf now fresh a = .error f) :
    f = .violated .collectionKey ∧ s.hasCollection fresh = true := by
  unfold bucketOf at h
  split at h
  · -- the collection that the link leads to is uncollected
    rename_i c hc
    obtain ⟨d, hd, hcd⟩ := Option.bind_eq_some_iff.1 hc
    obtain ⟨hmem, rfl⟩ := collection?_eq_some.1 hcd
    rw [if_pos (hb row hrow c hmem (hlink.trans hd))] at h
    contradiction
  · rcases bind_eq_error.1 h with h | ⟨t, hput, h⟩
    · exact ((putCollection_eq_error (flaw?_create_uncollected fresh now)).1 h).symm
    · -- links lead to collections that exist, so none leads to the new one
      obtain ⟨-, hnew, collections, hrows, rfl⟩ := putCollection_eq_ok.1 hput
      obtain ⟨u, hu⟩ : ∃ u, Store.link { s with collections } now a.id fresh = .ok u := by
        refine exists_link (fun x hx hlink => ?_) (hasCollection_iff.2
          ⟨.create fresh now uncollectedTitle .uncollected, ?_, rfl⟩)
        · exact absurd (hl.link x hx fresh hlink) (Bool.eq_false_iff.1 hnew)
        · exact hrows ▸ List.mem_append_right _ List.mem_cons_self
      rcases bind_eq_error.1 h with h | ⟨_, -, h⟩
      · rw [hu] at h
        contradiction
      · contradiction

/-- One of the ids from the `k`-th on is taken by a slot, or two of the ids are the same. -/
def Collide (s : Store) (fresh : ℕ → Id) (k : ℕ) : Prop :=
  (∃ i ≥ k, s.slots.has (fresh i) = true) ∨ ∃ i j, i ≠ j ∧ fresh i = fresh j

/-- Ids that collide behind a new slot collided in front of it: what takes the one is a slot from
before, or the new slot itself. -/
theorem Collide.of_append {fresh : ℕ → Id} {k : ℕ} {x : Slot}
    (h : t.Collide fresh (k + 1)) (hrows : t.slots.rows = s.slots.rows ++ [x])
    (hx : x.id = fresh k) : s.Collide fresh k := by
  rcases h with ⟨i, hi, htaken⟩ | htwice
  · obtain ⟨y, hy, hid⟩ := Table.has_iff.1 htaken
    rcases List.mem_append.1 (hrows ▸ hy) with hy | hy
    · exact .inl ⟨i, by omega, Table.has_iff.2 ⟨y, hy, hid⟩⟩
    · cases List.mem_singleton.1 hy
      exact .inr ⟨k, i, by omega, hx.symm.trans hid⟩
  · exact .inr htwice

/-- Slots for works that exist are refused only for ids, or because there are no numbers for all of
them. -/
theorem appendFrom_eq_error [Arithmetic] {fresh : ℕ → Id} {n seqno : Int} {k : ℕ}
    {rs : List ItemRef} {f : Fault} (hc : s.hasCollection c = true) (hn : 0 ≤ n)
    (hmax : n ≤ Word.last) (hnext : Word.next n = .ok seqno)
    (hrs : ∀ r ∈ rs, ∃ m, r = .manifestation m ∧ s.hasManifestation m = true)
    (h : appendFrom now fresh c s seqno k rs = .error f) :
    (Text.isBlank c = true ∧
      f = .invalidInput "CollectionItem" "Collection item must belong to a collection") ∨
    (s.Collide fresh k ∧ f = .violated .slotKey) ∨
    ¬ Word.HasRoom n rs.length ∧ f = if Arithmetic.checked then .overflow
      else .invalidInput "CollectionItem" "Seqno must be positive" := by
  induction rs generalizing s n seqno k with
  | nil => cases h
  | cons r rs ih =>
      obtain ⟨m, rfl, hm⟩ := hrs r List.mem_cons_self
      rw [appendFrom_cons] at h
      -- a reference to a work that exists passes the two checks
      rcases bind_eq_error.1 h with h | ⟨_, -, h⟩
      · rw [requireTarget, hm] at h
        contradiction
      rcases bind_eq_error.1 h with h | ⟨_, -, h⟩
      · contradiction
      rcases Word.next_eq_ok.1 hnext with ⟨hlt, rfl⟩ | ⟨hle, hwraps, rfl⟩
      swap
      · -- the number came out at the other end of the words
        rw [insertSlot_of_nonpos Word.first_neg.le] at h
        cases h
        refine .inr (.inr ⟨fun hroom => ?_, by rw [hwraps]; rfl⟩)
        simp only [Word.HasRoom, hwraps, List.length_cons] at hroom
        omega
      rcases bind_eq_error.1 h with h | ⟨t, hinsert, h⟩
      · rcases insertSlot_eq_error (show 0 < n + 1 by omega) hc h with hblank | ⟨htaken, hf⟩
        · exact .inl hblank
        · exact .inr (.inl ⟨.inl ⟨k, le_rfl, htaken⟩, hf⟩)
      obtain ⟨-, hput⟩ := insertSlot_eq_ok.1 hinsert
      obtain ⟨-, -, -, slots, hrows, rfl⟩ := putSlot_eq_ok.1 hput
      rw [List.length_cons, Word.hasRoom_succ_iff]
      rcases bind_eq_error.1 h with h | ⟨next, hnext, h⟩
      · obtain ⟨hle, hchecked, rfl⟩ := Word.next_eq_error.1 h
        refine .inr (.inr ⟨fun hroom => ?_, by rw [hchecked]; rfl⟩)
        simp only [Word.HasRoom, hchecked, if_true] at hroom
        omega
      rcases bind_eq_error.1 h with h | ⟨_, -, h⟩
      · exact (ih (s := { s with slots }) hc (by omega) (by omega) hnext
          (fun r hr => hrs r (List.mem_cons_of_mem _ hr)) h).imp_right
            (.imp_left (.imp_left fun htaken => htaken.of_append hrows rfl))
      · contradiction

theorem prepare_fault [Arithmetic] (hl : s.Lawful) (hb : s.BucketLinks) {fresh : ℕ → Id} {f : Fault}
    (h : s.prepare now (fresh 0) id = .error f) : RefreshFault s fresh id f := by
  rcases bind_eq_error.1 h with h | ⟨⟨row, t⟩, hlock, h⟩
  · rcases bind_eq_error.1 h with h | ⟨_, -, h⟩
    · obtain ⟨hmissing, rfl⟩ := require_eq_error.1 h
      exact .unknown hmissing
    · contradiction
  · rcases bind_eq_error.1 h with h | ⟨_, -, h⟩
    · obtain ⟨hfound, rfl⟩ := lockAuthority_eq_ok hlock
      obtain ⟨hrow, rfl⟩ := authority?_eq_some.1 hfound
      have hw : Write s (s.editAuthority row.id (lockedRow now) fun _ => rfl) :=
        .editAuthority _ _ _ _ fun _ => rfl
      have hlocked : lockedRow now row ∈
          (s.editAuthority row.id (lockedRow now) fun _ => rfl).authorities.rows :=
        List.mem_map.2 ⟨row, hrow, if_pos rfl⟩
      obtain ⟨rfl, htaken⟩ :=
        bucketOf_eq_error (hw.lawful hl) (hw.bucketLinks hl hb) hlocked rfl h
      exact .collectionTaken htaken
    · contradiction

/-- A collection that was not there is a new one, under the id that was given for it. -/
theorem BucketReady.eq_fresh {a : Authority} {b fresh : Id} {created : Bool}
    (h : BucketReady s now fresh a b created t) (hl : s.Lawful) (ha : a ∈ s.authorities.rows)
    (hnone : s.collection? b = none) : b = fresh := by
  cases hlink : a.uncollected with
  | none => exact (h.new hlink).1
  | some c =>
      obtain ⟨old, hold⟩ := exists_collection?_iff.2 (hl.link a ha c hlink)
      rw [h.linked c hlink, hold] at hnone
      contradiction

/-- The slots that a refresh adds are for works that exist, so they are refused only for ids and for
numbers. -/
theorem appendRefs_fault [Arithmetic] (hl : s.Lawful) {fresh : ℕ → Id} {p : Prepared} {f : Fault}
    (hprepare : s.prepare now (fresh 0) id = .ok (p, t))
    (h : t.appendRefs now (p.slotIds fresh) p.collection
      ((t.candidates id p.collection).map .manifestation) = .error f) :
    RefreshFault s fresh id f := by
  obtain ⟨a, ha, hready, hslots, -⟩ := pruned hl hprepare
  obtain ⟨row, hrow, hkind, hold⟩ := hready.exists_row
  have hid : a.id = id := (authority?_eq_some.1 ha).2
  have hroom := hready.hasRoom_iff hl hslots
  rw [hid] at hroom
  have hmaxSeqno := hready.maxSeqno_eq hl hslots
  have hworks : ∀ r ∈ (t.candidates id p.collection).map ItemRef.manifestation,
      ∃ m, r = .manifestation m ∧ t.hasManifestation m = true := by
    intro r hr
    obtain ⟨m, hm, rfl⟩ := List.mem_map.1 hr
    rw [candidates_eq] at hm
    obtain ⟨work, hwork, rfl⟩ := List.mem_map.1 hm
    exact ⟨work.id, rfl, hasManifestation_iff.2 ⟨work, (mem_lackingWorks.1 hwork).1, rfl⟩⟩
  have hnonneg : 0 ≤ t.maxSeqno p.collection := (foldl_max_spec (t.slotsOf p.collection) 0).1
  rcases bind_eq_error.1 h with h | ⟨n, hn, h⟩
  · -- there is no number for the first slot
    have hcramped : ¬ s.HasRoom a := fun hroom' => by
      obtain ⟨hle, m, hm⟩ := Word.hasRoom_zero_iff.1 ((hroom.2 hroom').mono (Nat.zero_le _))
      rw [nextPlace_eq_ok.2 ⟨hle, hm⟩] at h
      contradiction
    have hfault : f = s.crampedFault a := by
      rw [crampedFault, ← hmaxSeqno]
      rcases bind_eq_error.1 h with h | ⟨_, hread, h⟩
      · obtain ⟨hlt, rfl⟩ := readMax_eq_error.1 h
        rw [if_pos hlt]
      · obtain ⟨hle, rfl⟩ := readMax_eq_ok.1 hread
        obtain ⟨-, hchecked, rfl⟩ := Word.next_eq_error.1 h
        rw [if_neg (Int.not_lt.2 hle), if_pos hchecked]
    exact hfault ▸ .full ha hcramped
  obtain ⟨hmax, hnext⟩ := nextPlace_eq_ok.1 hn
  rcases appendFrom_eq_error (hasCollection_of_collection? hrow) hnonneg hmax hnext hworks h with
    ⟨hblank, rfl⟩ | ⟨htaken, rfl⟩ | ⟨hcramped, rfl⟩
  · refine .bucketBlank hblank ?_
    rcases hold with hold | ⟨hnone, -⟩
    · obtain ⟨hmem, hid⟩ := collection?_eq_some.1 hold
      refine .inr ⟨row, hmem, hid, ?_⟩
      rw [Collection.isUncollected, hkind]
      rfl
    · exact .inl (hready.eq_fresh hl (authority?_eq_some.1 ha).1 hnone)
  · refine .slotTaken (htaken.imp ?_ ?_)
    · rintro ⟨i, -, htaken⟩
      obtain ⟨x, hx, hid⟩ := Table.has_iff.1 htaken
      refine ⟨p.idsTaken + i, Table.has_iff.2 ⟨x, ?_, hid⟩⟩
      exact (mem_remainingSlots.1 (hslots ▸ hx)).1
    · rintro ⟨i, j, hne, hid⟩
      exact ⟨p.idsTaken + i, p.idsTaken + j, by omega, hid⟩
  · rw [List.length_map, hroom] at hcramped
    have hfault : RefreshFault s fresh id (s.crampedFault a) := .full ha hcramped
    rwa [crampedFault, ← hmaxSeqno, if_neg (Int.not_lt.2 hmax)] at hfault

/-- **A refresh fails for no other reason** than a missing authority, an id that does not serve or a
want of numbers. -/
theorem refresh_fault [Arithmetic] (hl : s.Lawful) (hb : s.BucketLinks) {fresh : ℕ → Id} {f : Fault}
    (h : s.refresh now fresh id = .error f) : RefreshFault s fresh id f := by
  rcases bind_eq_error.1 h with h | ⟨⟨p, t⟩, hprepare, h⟩
  · exact prepare_fault hl hb h
  rcases bind_eq_error.1 h with h | ⟨⟨slots, u⟩, happend, h⟩
  · exact appendRefs_fault hl hprepare h
  -- what comes after does not fail, because the collection and all that is above it exist
  exfalso
  obtain ⟨a, -, hready, -, -⟩ := pruned hl hprepare
  obtain ⟨row, hrow, -, -⟩ := hready.exists_row
  obtain ⟨-, ⟨table, -, rfl⟩, hw⟩ := appendRefs_eq_ok happend
  have howned := (hw.lawful ((writes_prepare hprepare).lawful hl)).owner
  have hpropagate : Store.propagate { t with slots := table } now p.collection = .ok _ :=
    exists_propagate howned (hasCollection_of_collection? hrow)
  rcases bind_eq_error.1 h with h | ⟨v, hv, h⟩
  · rw [hpropagate] at h
    contradiction
  · have hthere : v.hasCollection p.collection = true := by
      obtain ⟨-, rfl⟩ := propagate_eq_ok.1 hv
      exact recount_hasCollection.trans (hasCollection_of_collection? hrow)
    obtain ⟨bucket, hbucket⟩ := exists_collection?_iff.2 hthere
    rw [hbucket] at h
    contradiction

/-! ### Ids that serve -/

/-- Ids that are new to a store, of which no two agree and none is blank. -/
structure FreshIds (s : Store) (fresh : ℕ → Id) : Prop where
  injective : Function.Injective fresh
  named : ∀ k, Text.isBlank (fresh k) = false
  collections : ∀ k, s.hasCollection (fresh k) = false
  slots : ∀ k, s.slots.has (fresh k) = false

/-- A refresh that succeeded had numbers for the works that lacked. -/
theorem hasRoom_of_refresh [Arithmetic] (hl : s.Lawful) {fresh : ℕ → Id}
    {r : RefreshOutcome × Store} (h : s.refresh now fresh id = .ok r) :
    ∃ a, s.authority? id = some a ∧ s.HasRoom a := by
  obtain ⟨p, t, slots, u, _, hprepare, happend, -⟩ := refresh_eq_ok h
  obtain ⟨a, ha, hready, hslots, -⟩ := pruned hl hprepare
  have hroom := appendRefs_hasRoom happend
  rw [List.length_map, ← (authority?_eq_some.1 ha).2] at hroom
  exact ⟨a, ha, (hready.hasRoom_iff hl hslots).1 hroom⟩

/-- With ids that serve, a refresh fails for a missing authority or for numbers. -/
theorem FreshIds.refresh_fault [Arithmetic] (hl : s.Lawful) (hb : s.BucketLinks) {fresh : ℕ → Id}
    (hfresh : s.FreshIds fresh)
    (hnamed : ∀ row ∈ s.collections.rows, row.isUncollected = true → Text.isBlank row.id = false)
    {f : Fault} (h : s.refresh now fresh id = .error f) :
    s.authority? id = none ∨
      ∃ a, s.authority? id = some a ∧ ¬ s.HasRoom a ∧ f = s.crampedFault a := by
  cases Store.refresh_fault hl hb h with
  | unknown missing => exact .inl missing
  | full found cramped => exact .inr ⟨_, found, cramped, rfl⟩
  | collectionTaken taken =>
      rw [hfresh.collections] at taken
      contradiction
  | slotTaken taken =>
      rcases taken with ⟨i, taken⟩ | ⟨i, j, hne, hid⟩
      · rw [hfresh.slots] at taken
        contradiction
      · exact absurd (hfresh.injective hid) hne
  | bucketBlank blank bucket =>
      rcases bucket with rfl | ⟨row, hrow, rfl, hkind⟩
      · rw [hfresh.named] at blank
        contradiction
      · rw [hnamed row hrow hkind] at blank
        contradiction

/-- With ids that serve, a refresh succeeds exactly when the authority exists and there are numbers
for the works that lack. -/
theorem FreshIds.refresh_iff [Arithmetic] (hl : s.Lawful) (hb : s.BucketLinks) {fresh : ℕ → Id}
    (hfresh : s.FreshIds fresh)
    (hnamed : ∀ row ∈ s.collections.rows, row.isUncollected = true → Text.isBlank row.id = false) :
    (∃ o s', s.refresh now fresh id = .ok (o, s')) ↔
      ∃ a, s.authority? id = some a ∧ s.HasRoom a := by
  constructor
  · rintro ⟨o, s', h⟩
    exact hasRoom_of_refresh hl h
  · rintro ⟨a, ha, hroom⟩
    cases h : s.refresh now fresh id with
    | ok r => exact ⟨r.1, r.2, rfl⟩
    | error f =>
        rcases hfresh.refresh_fault hl hb hnamed h with hmissing | ⟨b, hb, hcramped, -⟩
        · rw [ha] at hmissing
          contradiction
        · cases ha.symm.trans hb
          exact absurd hroom hcramped

/-! ### Orphans -/

/-- An uncollected collection that no authority is linked to. -/
structure Orphan (s : Store) (c : Id) : Prop where
  row : ∃ row, s.collection? c = some row ∧ row.isUncollected = true
  unlinked : ∀ a ∈ s.authorities.rows, a.uncollected ≠ some c

theorem Orphan.hasCollection (h : s.Orphan c) : s.hasCollection c = true := by
  obtain ⟨row, hrow, -⟩ := h.row
  exact hasCollection_of_collection? hrow

theorem Orphan.isUncollected (h : s.Orphan c) :
    ∀ row, s.collection? c = some row → row.isUncollected = true := by
  obtain ⟨row, hrow, hkind⟩ := h.row
  rintro _ hrow'
  cases hrow.symm.trans hrow'
  exact hkind

theorem orphan_of_mem_orphans (h : c ∈ s.orphans.map Collection.id) : s.Orphan c := by
  obtain ⟨row, hrow, rfl⟩ := List.mem_map.1 h
  simp only [orphans, List.mem_mergeSort, List.mem_filter, Bool.and_eq_true, linkedTo?,
    Option.isNone_iff_eq_none, List.find?_eq_none, beq_iff_eq] at hrow
  obtain ⟨hmem, hkind, hunlinked⟩ := hrow
  exact ⟨⟨row, collection?_eq_some.2 ⟨hmem, rfl⟩, hkind⟩, hunlinked⟩

theorem nodup_orphans (s : Store) : (s.orphans.map Collection.id).Nodup :=
  ((List.mergeSort_perm _ _).map _).nodup_iff.2
    (s.collections.nodup.sublist (List.filter_sublist.map _))

/-- What contained a collection that was deleted can be counted anew. -/
theorem exists_deleteCollection (howned : s.Owned) (ha : s.Acyclic) (hl : (s.without id).Owned) :
    ∃ r, s.deleteCollection now id = .ok r := by
  unfold deleteCollection
  split
  · refine ⟨_, bind_eq_ok.2 ⟨_, propagateAll_eq_ok.2 ⟨fun p hp d hd => ?_, rfl⟩, rfl⟩⟩
    refine Contains.hasCollection hl hd ?_
    -- a collection does not refer to itself, so those that referred to it are left
    have hchild := mem_childrenOf_iff_mem_parentsOf.2 hp
    obtain ⟨x, hx, rfl, -⟩ := mem_childrenOf.1 hchild
    obtain ⟨row, hrow, hid⟩ := hasCollection_iff.1 (howned x hx)
    refine hasCollection_iff.2 ⟨row, List.mem_filter.2 ⟨hrow, bne_iff_ne.2 fun hself => ?_⟩, hid⟩
    rw [← hid, hself] at hchild
    exact ha id id hchild (.refl id)
  · exact ⟨_, rfl⟩

/-- **An orphan can be treated**, whatever its fate. -/
theorem Orphan.exists_resolve (h : s.Orphan c) (hl : s.Lawful) (ha : s.Acyclic)
    (fate : OrphanFate) : ∃ t, s.resolve now c fate = .ok t := by
  have hdelete : ∃ r, s.deleteCollection now c = .ok r :=
    exists_deleteCollection hl.owner ha ((Writes.lawful writes_without hl).owner)
  cases fate with
  | link a =>
      obtain ⟨t, hlink⟩ : ∃ t, s.link now a c = .ok t :=
        exists_link (fun x hx hx' => absurd hx' (h.unlinked x hx)) h.hasCollection
      obtain ⟨-, hslots, hcollections⟩ := link_content hlink
      have howned : t.Owned := ((writes_link h.isUncollected hlink).lawful hl).owner
      have hc : t.hasCollection c = true := by
        rw [Store.hasCollection, hcollections]
        exact h.hasCollection
      exact ⟨_, bind_eq_ok.2 ⟨t, hlink, exists_propagate howned hc⟩⟩
  | deleteEmpty | deleteDuplicate | deleteUnfixable =>
      obtain ⟨r, hr⟩ := hdelete
      exact ⟨r.2, bind_eq_ok.2 ⟨r, hr, rfl⟩⟩

theorem Orphan.recount {cs : List Id} (h : s.Orphan c) : (s.recount now cs).Orphan c := by
  obtain ⟨row, hrow, hkind⟩ := h.row
  refine ⟨⟨s.recountedIn now cs row, ?_, ?_⟩, h.unlinked⟩
  · rw [recount_collection?, hrow, Option.map_some]
  · rwa [Collection.isUncollected, recountedIn_kind]

theorem Orphan.link {a d : Id} (h : s.Orphan d) (hne : d ≠ c) (hlink : s.link now a c = .ok t) :
    t.Orphan d := by
  obtain ⟨row, hrow, hkind⟩ := h.row
  have hcollections := (link_content hlink).2.2
  obtain ⟨v, hset, rfl⟩ := link_eq_ok hlink
  refine ⟨⟨row, ?_, hkind⟩, fun y hy => ?_⟩
  · rwa [Store.collection?, hcollections]
  · -- the only new link leads to another orphan
    obtain ⟨x', hx', rfl⟩ := List.mem_map.1 hy
    have hold : x'.uncollected ≠ some d := by
      rcases setLink_eq_ok hset with ⟨-, rfl⟩ | ⟨-, -, rfl⟩
      · exact h.unlinked x' hx'
      · obtain ⟨x, hx, rfl⟩ := List.mem_map.1 hx'
        split
        · exact fun hlink => hne (Option.some.inj hlink).symm
        · exact h.unlinked x hx
    split <;> exact hold

theorem Orphan.without {d : Id} (h : s.Orphan d) (hne : d ≠ c) : (s.without c).Orphan d := by
  obtain ⟨row, hrow, hkind⟩ := h.row
  obtain ⟨hmem, hid⟩ := collection?_eq_some.1 hrow
  refine ⟨⟨row, collection?_eq_some.2 ⟨List.mem_filter.2 ⟨hmem, ?_⟩, hid⟩, hkind⟩, fun y hy => ?_⟩
  · exact bne_iff_ne.2 (hid.symm ▸ hne)
  · obtain ⟨x, hx, rfl⟩ := List.mem_map.1 hy
    split
    · exact fun hlink => nomatch hlink
    · exact h.unlinked x hx

/-- **The other orphans stay orphans** when one is treated. -/
theorem Orphan.resolve {d : Id} {fate : OrphanFate} (h : s.Orphan d) (hne : d ≠ c)
    (hresolve : s.resolve now c fate = .ok t) : t.Orphan d := by
  rcases resolve_eq_ok hresolve with ⟨a, u, hlink, rfl⟩ | ⟨deleted, hdelete⟩
  · exact (h.link hne hlink).recount
  · rcases deleteCollection_eq_ok hdelete with ⟨-, -, rfl⟩ | ⟨-, -, rfl⟩
    · exact h
    · exact (h.without hne).recount

/-! ### A cleanup never fails -/

theorem exists_treat {mode : CleanupMode} {linkedNow : List Id} {report : CleanupReport}
    {cs : List Id} (hl : s.Lawful) (ha : s.Acyclic) (hcs : cs.Nodup)
    (horphans : ∀ c ∈ cs, s.Orphan c) :
    ∃ r, (treat mode now s linkedNow report cs).result = .ok r := by
  induction cs generalizing s linkedNow report with
  | nil => exact ⟨_, rfl⟩
  | cons c cs ih =>
      obtain ⟨hc, hcs⟩ := List.nodup_cons.1 hcs
      have horphan := horphans c List.mem_cons_self
      have hrest : ∀ d ∈ cs, s.Orphan d := fun d hd => horphans d (List.mem_cons_of_mem c hd)
      cases mode with
      | dryRun => exact ih hl ha hcs hrest
      | execute =>
          obtain ⟨t, ht⟩ : ∃ t, s.resolve now c (s.fateOf linkedNow c) = .ok t :=
            horphan.exists_resolve hl ha _
          have hw := writes_resolve horphan.isUncollected ht
          simp only [treat, resolveIn, ht]
          refine ih (hw.lawful hl) (hw.acyclic ha) hcs fun d hd => ?_
          exact (hrest d hd).resolve (fun e : d = c => hc (e ▸ hd)) ht

/-- **A cleanup never fails**, in either mode. -/
theorem Reachable.exists_cleanup [Arithmetic] (h : s.Reachable) (now : Time) (mode : CleanupMode) :
    ∃ r, (s.cleanup now mode).result = .ok r :=
  exists_treat h.lawful h.acyclic s.nodup_orphans fun _ hc => orphan_of_mem_orphans hc

/-! ### Links and the upkeep as a whole -/

/-- **Links lead to uncollected collections, and the upkeep succeeds.**  No two authorities are
linked to the same collection.  A refresh fails only as `RefreshFault` says, where neither the kind
of the linked collection nor a rule on links occurs.  So with ids that serve it succeeds exactly
when the authority exists and there are numbers for the works that lack; the ids that were given out
before must not be blank either, because one of them may belong to the linked collection. -/
theorem Reachable.upkeep_succeeds [Arithmetic] (h : s.Reachable) :
    (∀ a ∈ s.authorities.rows, ∀ c, a.uncollected = some c →
      ∃ row, s.collection? c = some row ∧ row.kind = .uncollected) ∧
    (∀ a ∈ s.authorities.rows, ∀ b ∈ s.authorities.rows, ∀ c,
      a.uncollected = some c → b.uncollected = some c → a = b) ∧
    (∀ now fresh id f, s.refresh now fresh id = .error f → RefreshFault s fresh id f) ∧
    (s.ReachedGiving (fun id => Text.isBlank id = false) → ∀ now fresh id, s.FreshIds fresh →
      ((∃ o s', s.refresh now fresh id = .ok (o, s')) ↔
        ∃ a, s.authority? id = some a ∧ s.HasRoom a)) ∧
    ∀ now mode, ∃ r, (s.cleanup now mode).result = .ok r := by
  have hl := h.lawful
  have hb := h.bucketLinks
  refine ⟨fun a ha c hc => ?_, fun a ha b hb c hac hbc => ?_,
    fun now fresh id f hf => refresh_fault hl hb hf,
    fun hgiving now fresh id hfresh => hfresh.refresh_iff hl hb hgiving.uncollected,
    h.exists_cleanup⟩
  · obtain ⟨row, hrow⟩ := exists_collection?_iff.2 (hl.link a ha c hc)
    obtain ⟨hmem, rfl⟩ := collection?_eq_some.1 hrow
    exact ⟨row, hrow, beq_iff_eq.1 (hb a ha row hmem hc)⟩
  · exact Table.eq_of_key_eq ha hb (hl.linkUnique a ha b hb c hac hbc)

/-- The ids `x`, `xx`, `xxx`, … for a letter `x`, which serve where none of them is taken. -/
def lettered (x : Char) (k : ℕ) : Id := String.ofList (List.replicate (k + 1) x)

theorem lettered_inj {x y : Char} {i j : ℕ} : lettered x i = lettered y j ↔ i = j ∧ x = y := by
  simp [lettered, String.ofList_inj, List.replicate_inj]

theorem isBlank_lettered {x : Char} (hx : Text.isSpace x = false) (k : ℕ) :
    Text.isBlank (lettered x k) = false := by
  simp [lettered, Text.isBlank, hx]

/-- Where one letter was used so far, ids of another shape serve. -/
theorem freshIds_of_ne_lettered {x : Char} {fresh : ℕ → Id} (hinjective : Function.Injective fresh)
    (hnamed : ∀ k, Text.isBlank (fresh k) = false) (hne : ∀ j k, lettered x j ≠ fresh k)
    (hcollections : ∀ row ∈ s.collections.rows, row.id ∈ (List.range 2).map (lettered x))
    (hslots : ∀ z ∈ s.slots.rows, z.id ∈ (List.range 3).map (lettered x)) : s.FreshIds fresh where
  injective := hinjective
  named := hnamed
  collections k := Bool.eq_false_iff.2 fun htaken => by
    obtain ⟨row, hrow, hid⟩ := hasCollection_iff.1 htaken
    obtain ⟨j, -, hold⟩ := List.mem_map.1 (hcollections row hrow)
    exact hne j k (hold.trans hid)
  slots k := Bool.eq_false_iff.2 fun htaken => by
    obtain ⟨z, hz, hid⟩ := Table.has_iff.1 htaken
    obtain ⟨j, -, hold⟩ := List.mem_map.1 (hslots z hz)
    exact hne j k (hold.trans hid)

/-- So does another letter. -/
theorem freshIds_lettered {x y : Char} (hne : x ≠ y) (hy : Text.isSpace y = false)
    (hcollections : ∀ row ∈ s.collections.rows, row.id ∈ (List.range 2).map (lettered x))
    (hslots : ∀ z ∈ s.slots.rows, z.id ∈ (List.range 3).map (lettered x)) :
    s.FreshIds (lettered y) :=
  freshIds_of_ne_lettered (fun _ _ hij => (lettered_inj.1 hij).1) (isBlank_lettered hy)
    (fun _ _ hsame => hne (lettered_inj.1 hsame).2) hcollections hslots

/-- No id is blank where only refreshes were given ids, and those were such. -/
theorem reachedGiving_lettered [Arithmetic] {x : Char} (hx : Text.isSpace x = false)
    {ops : List Operation} (hops : ∀ op ∈ ops, op.given ⊆ Set.range (lettered x))
    (hs : Operation.runAll .empty ops = .ok s) :
    s.ReachedGiving (fun id => Text.isBlank id = false) := by
  refine ReachedGiving.empty.runAll (fun op hop id hid => ?_) hs
  obtain ⟨k, rfl⟩ := hops op hop hid
  exact isBlank_lettered hx k

theorem upkeep_succeeds_authored : ∃ s,
    Operation.runAll .empty
      (Operation.authored ++ [.refresh 1 (lettered 'x') "author"]) = .ok s ∧
    s.Reachable ∧ s.ReachedGiving (fun id => Text.isBlank id = false) ∧
    s.FreshIds (lettered 'y') ∧
    (∃ a ∈ s.authorities.rows, a.uncollected = some "x") ∧
    (∃ row, s.collection? "x" = some row ∧ row.kind = .uncollected) ∧
    (∃ o s', s.refresh 2 (lettered 'y') "author" = .ok (o, s')) ∧
    ∃ r, (s.cleanup 2 .execute).result = .ok r := by
  obtain ⟨s, hs, hroom, hlink, hcollections, hslots⟩ : ∃ s,
      Operation.runAll .empty (Operation.authored ++ [.refresh 1 (lettered 'x') "author"]) = .ok s ∧
        ((s.authority? "author").any fun a => decide (s.HasRoom a)) = true ∧
        (∃ a ∈ s.authorities.rows, a.uncollected = some "x") ∧
        (∀ row ∈ s.collections.rows, row.id ∈ (List.range 2).map (lettered 'x')) ∧
        ∀ x ∈ s.slots.rows, x.id ∈ (List.range 3).map (lettered 'x') :=
    exists_eq_ok_of_any (by decide +kernel)
  have hgiving := reachedGiving_lettered (x := 'x') (by decide)
    (by simp [Operation.authored, Operation.given]) hs
  have hfresh : s.FreshIds (lettered 'y') :=
    freshIds_lettered (by decide) (by decide) hcollections hslots
  obtain ⟨hkinds, -, -, hrefresh, hcleanup⟩ := hgiving.reachable.upkeep_succeeds
  obtain ⟨a, ha, hax⟩ := hlink
  obtain ⟨author, hauthor, hroom⟩ := (Option.any_eq_true _ _).1 hroom
  exact ⟨s, hs, hgiving.reachable, hgiving, hfresh, ⟨a, ha, hax⟩, hkinds a ha "x" hax,
    (hrefresh hgiving 2 _ "author" hfresh).2 ⟨_, hauthor, of_decide_eq_true hroom⟩,
    hcleanup 2 .execute⟩

/-- The one work of an author has the last number in the collection, for examples. -/
def crowded : List Operation := Operation.authored ++ [
  .refresh 1 (lettered 'x') "author",
  .updateItem 2 "xx" { SlotAttrs.unset with seqno := some 9223372036854775807 }]

/-- The author has a second work, for examples. -/
def continued : List Operation := crowded ++ [
  .createManifestation (.create "sequel" 3 "Sequel" Manifestation.published),
  .addInvolvement ⟨"author", "sequel", .author, 3⟩]

/-- Another slot was put before the one with the last number for a while, for examples. -/
def overtaken : List Operation := crowded ++ [
  .createCollection (.create "xx" 3 "Shelf" .other),
  .addItem 4 "xxx" "xx" .empty .unset,
  .transplant 5 "xxx" "x" 1,
  .removeItem 6 "xxx"]

/-- Behind a slot with the last number there is none for the next work: the refresh breaks off, or
is refused a number below zero where sums are not checked.  Once that slot was moved on, its number
is no word, and the refresh fails either way, even where nothing lacks. -/
theorem refresh_fails_behind_last : ∃ s t,
    Operation.runAll .empty continued = .ok s ∧ Operation.runAll .empty overtaken = .ok t ∧
    s.Reachable ∧ s.ReachedGiving (fun id => Text.isBlank id = false) ∧
    s.FreshIds (lettered 'y') ∧ (s.authority? "author").isSome = true ∧
    s.refresh 8 (lettered 'y') "author" = .error .overflow ∧
    @Store.refresh ⟨false⟩ s 8 (lettered 'y') "author" =
      .error (.invalidInput "CollectionItem" "Seqno must be positive") ∧
    t.Reachable ∧ t.ReachedGiving (fun id => Text.isBlank id = false) ∧
    t.FreshIds (lettered 'y') ∧ (t.authority? "author").isSome = true ∧
    t.refresh 8 (lettered 'y') "author" = .error (.storage .unreadableMax) ∧
    @Store.refresh ⟨false⟩ t 8 (lettered 'y') "author" = .error (.storage .unreadableMax) := by
  obtain ⟨s, hs, hthere, hchecked, hwrapped, hcollections, hslots⟩ : ∃ s,
      Operation.runAll .empty continued = .ok s ∧ (s.authority? "author").isSome = true ∧
      (s.refresh 8 (lettered 'y') "author" |>.map Prod.fst) = .error .overflow ∧
      (@Store.refresh ⟨false⟩ s 8 (lettered 'y') "author" |>.map Prod.fst) =
        .error (.invalidInput "CollectionItem" "Seqno must be positive") ∧
      (∀ row ∈ s.collections.rows, row.id ∈ (List.range 2).map (lettered 'x')) ∧
      ∀ x ∈ s.slots.rows, x.id ∈ (List.range 3).map (lettered 'x') :=
    exists_eq_ok_of_any (by decide +kernel)
  obtain ⟨t, ht, hthere', hchecked', hunchecked, hcollections', hslots'⟩ : ∃ t,
      Operation.runAll .empty overtaken = .ok t ∧ (t.authority? "author").isSome = true ∧
      (t.refresh 8 (lettered 'y') "author" |>.map Prod.fst) = .error (.storage .unreadableMax) ∧
      (@Store.refresh ⟨false⟩ t 8 (lettered 'y') "author" |>.map Prod.fst) =
        .error (.storage .unreadableMax) ∧
      (∀ row ∈ t.collections.rows, row.id ∈ (List.range 2).map (lettered 'x')) ∧
      ∀ x ∈ t.slots.rows, x.id ∈ (List.range 3).map (lettered 'x') :=
    exists_eq_ok_of_any (by decide +kernel)
  have hgiving := reachedGiving_lettered (x := 'x') (by decide)
    (by simp [continued, crowded, Operation.authored, Operation.given]) hs
  have hgiving' := reachedGiving_lettered (x := 'x') (by decide)
    (by simpa [overtaken, crowded, Operation.authored, Operation.given] using ⟨2, rfl⟩) ht
  exact ⟨s, t, hs, ht, hgiving.reachable, hgiving,
    freshIds_lettered (by decide) (by decide) hcollections hslots, hthere, map_eq_error.1 hchecked,
    map_eq_error.1 hwrapped, hgiving'.reachable, hgiving',
    freshIds_lettered (by decide) (by decide) hcollections' hslots', hthere',
    map_eq_error.1 hchecked', map_eq_error.1 hunchecked⟩

end Store

end Anthology
