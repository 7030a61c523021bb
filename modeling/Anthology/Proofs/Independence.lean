/-
**Refreshes of different authorities do not interfere.**

What a refresh reports, and what the collection refers to after it, are determined by what the
refresh looks at: the row of the authority, its collection, the works, the credits, and which works
are collected.  Ids, numbers and times are left aside here.  A refresh of another authority changes
nothing of all this, because its own collection is uncollected and belongs to nobody else.  It takes
ids, though, and those that follow serve for the next one.

Main definitions:

* `Anthology.Store.Renewal` — a refresh without ids, numbers and times;
* `Anthology.Store.due` — what a refresh has to do;
* `Anthology.Store.refreshes`, `Anthology.Store.breaksOff` — how a refresh ends;
* `Anthology.Store.SameView` — a refresh sees the same in two stores.

Main results:

* `Anthology.Store.Refreshed.renewal_eq` — a refresh does what is due;
* `Anthology.Store.Refreshed.sameView` — **a refresh of another authority is not seen**;
* `Anthology.Store.FreshIds.after` — **the ids that follow serve for the next refresh**.
-/

import Anthology.Proofs.Settled

set_option relaxedAutoImplicit false
set_option autoImplicit false

namespace Anthology

namespace Store

variable {s s' t u : Store} {now : Time} {id : Id} {a b : Authority} {kept : List Slot}
  {works : List Manifestation} {fresh : ℕ → Id} {o : RefreshOutcome}

/-! ### What a refresh has to do -/

/-- What a refresh reports, and what the collection refers to after it, in order. -/
structure Renewal where
  created : Bool
  removed : ℕ
  added : ℕ
  count : Int
  items : List ItemRef
deriving DecidableEq

/-- What the collection that an authority is linked to refers to, in order. -/
def bucketItems (s : Store) (id : Id) : List ItemRef :=
  (s.authority? id).elim [] fun a => (s.bucketSlots a).map Slot.item

/-- What a refresh of the authority has to do. -/
def due (s : Store) (a : Authority) : Renewal where
  created := a.uncollected.isNone
  removed := (s.bucketSlots a).length - (s.staying a).length
  added := (s.missing a).length
  count := (s.staying a).length + (s.missing a).length
  items := (s.staying a).map Slot.item ++ (s.missing a).map fun m => .manifestation m.id

/-- The missing works have one order only. -/
theorem missing_eq (hordered : works.Pairwise fun m n => m.title < n.title ∨
    m.title = n.title ∧ m.id < n.id) (hworks : ∀ m, m ∈ works ↔ m ∈ s.missing a) :
    s.missing a = works := by
  have hrank : works.Pairwise fun m n => m.rank < n.rank :=
    hordered.imp fun h => Manifestation.rank_lt_iff.2 h
  have hnodup : works.Nodup := hrank.imp fun {m n} h => by
    rintro rfl
    exact lt_irrefl _ h
  have hids : ((s.manifestations.rows.filter fun m => m.isPublished && s.qualifies a.id m.id &&
      !s.collected m.id && !(s.staying a).any fun x => x.item == .manifestation m.id).map
        Manifestation.id).Nodup :=
    s.manifestations.nodup.sublist (List.filter_sublist.map _)
  refine mergeSort_eq_of_rank (fun _ _ => Manifestation.precedes_iff)
    (nodup_rank (fun _ => rfl) hids) ?_ (hrank.imp fun h => h.le)
  refine (List.perm_ext_iff_of_nodup (List.Nodup.of_map _ hids) hnodup).2 fun m => ?_
  rw [hworks, missing, List.mem_mergeSort]

/-- What the report and the store after a refresh say. -/
def renewal (s' : Store) (o : RefreshOutcome) : Renewal :=
  ⟨o.created, o.removed, o.added, o.count, (s'.orderedSlots o.collection).map Slot.item⟩

/-- **A refresh does what is due.** -/
theorem Refreshed.renewal_eq (h : Refreshed s now fresh a kept works o s') :
    s'.renewal o = s.due a := by
  have hkept : kept = s.staying a := h.kept_eq
  have hworks : s.missing a = works := missing_eq h.ordered fun m => by
    rw [h.mem_works, mem_missing, hkept]
  have hitems : (s'.orderedSlots o.collection).map Slot.item =
      kept.map Slot.item ++ works.map fun m => .manifestation m.id := by
    rw [h.slots, List.map_append]
    refine congrArg _ (List.ext_getElem (by simp) fun i hi hi' => ?_)
    simp [Slot.create]
  have hremoved : o.removed = (s.bucketSlots a).length - kept.length := by
    have := h.removed
    omega
  simp only [renewal, due, h.created, h.added, h.count, hremoved, hitems, hworks,
    ← hkept]

/-- The collection that the authority is linked to after a refresh is the one that was reported. -/
theorem Refreshed.authority?_eq (h : Refreshed s now fresh a kept works o s')
    (ha : a ∈ s.authorities.rows) : s'.authority? a.id = some (linkedRow now o.collection a) := by
  refine authority?_eq_some.2 ⟨?_, rfl⟩
  rw [h.authorities]
  exact List.mem_map.2 ⟨a, ha, if_pos rfl⟩

/-! ### The other authorities -/

/-- There is an authority with the id. -/
def knows (s : Store) (id : Id) : Bool := (s.authority? id).isSome

/-- There is an authority with the id, and there are numbers for what a refresh of it adds. -/
def refreshes [Arithmetic] (s : Store) (id : Id) : Bool :=
  (s.authority? id).any fun a => decide (s.HasRoom a)

/-- There is an authority with the id, and a refresh of it breaks off. -/
def breaksOff [Arithmetic] (s : Store) (id : Id) : Bool :=
  (s.authority? id).any fun a => !decide (s.HasRoom a) && (s.crampedFault a).breaksOff

/-- A refresh that succeeds does not break off. -/
theorem breaksOff_of_refreshes [Arithmetic]
    (h : s.refreshes id = true) : s.breaksOff id = false := by
  obtain ⟨a, hrow, hroom⟩ := (Option.any_eq_true _ _).1 h
  simp [breaksOff, hrow, of_decide_eq_true hroom]

theorem breaksOff_of_unknown [Arithmetic] (h : s.knows id = false) : s.breaksOff id = false := by
  rw [knows, Option.isSome_eq_false_iff, Option.isNone_iff_eq_none] at h
  rw [breaksOff, h, Option.any_none]

/-- Where there are numbers for all works, each authority can be refreshed. -/
theorem refreshes_eq_knows [Arithmetic] (h : ∀ a ∈ s.authorities.rows,
    s.highest a + s.manifestations.rows.length < Word.last) (id : Id) :
    s.refreshes id = s.knows id ∧ s.breaksOff id = false := by
  cases hrow : s.authority? id with
  | none => simp [refreshes, breaksOff, knows, hrow]
  | some a =>
      have hroom := hasRoom_of_lt (h a (authority?_eq_some.1 hrow).1)
      simp [refreshes, breaksOff, knows, hrow, hroom]

/-- No authority comes or goes by a refresh. -/
theorem Refreshed.knows_eq (h : Refreshed s now fresh a kept works o s') : s'.knows = s.knows := by
  funext id
  rw [Bool.eq_iff_iff, knows, knows, isSome_authority?_iff, isSome_authority?_iff, h.authorities]
  constructor
  · rintro ⟨_, hx', hid⟩
    obtain ⟨x, hx, rfl⟩ := List.mem_map.1 hx'
    refine ⟨x, hx, ?_⟩
    rw [← hid]
    split <;> rfl
  · rintro ⟨x, hx, hid⟩
    refine ⟨_, List.mem_map_of_mem hx, ?_⟩
    rw [← hid]
    split <;> rfl

/-- The rows of the other authorities are those from before. -/
theorem Refreshed.mem_authorities (h : Refreshed s now fresh a kept works o s')
    (hne : b.id ≠ a.id) : b ∈ s'.authorities.rows ↔ b ∈ s.authorities.rows := by
  rw [h.authorities, List.mem_map]
  constructor
  · rintro ⟨x, hx, rfl⟩
    by_cases hid : x.id = a.id
    · rw [if_pos hid] at hne
      exact absurd hid hne
    · rwa [if_neg hid]
  · intro hb
    exact ⟨b, hb, if_neg hne⟩

/-! ### What a refresh does not see -/

/-- A refresh of the authority `a` sees the same in both stores. -/
structure SameView (s t : Store) (a : Authority) : Prop extends SamePlaces s t where
  row : a ∈ t.authorities.rows
  bucket : t.bucketSlots a = s.bucketSlots a

theorem SamePlaces.trans (h : s.SamePlaces t) (h' : t.SamePlaces u) : s.SamePlaces u :=
  ⟨h'.manifestations.trans h.manifestations, h'.involvements.trans h.involvements,
    fun m => (h'.collected m).trans (h.collected m)⟩

theorem SameView.refl (ha : a ∈ s.authorities.rows) : SameView s s a :=
  ⟨⟨rfl, rfl, fun _ => Iff.rfl⟩, ha, rfl⟩

theorem SameView.trans (h : SameView s t a) (h' : SameView t u a) : SameView s u a :=
  ⟨h.toSamePlaces.trans h'.toSamePlaces, h'.row, h'.bucket.trans h.bucket⟩

theorem SameView.symm (h : SameView s t a) (ha : a ∈ s.authorities.rows) : SameView t s a :=
  ⟨⟨h.manifestations.symm, h.involvements.symm, fun m => (h.collected m).symm⟩, ha, h.bucket.symm⟩

theorem SameView.staying_eq (h : SameView s t a) : t.staying a = s.staying a := by
  simp only [staying, h.bucket, h.hasPlace_iff]

theorem SameView.missing_eq (h : SameView s t a) : t.missing a = s.missing a := by
  have hcollected : ∀ m, t.collected m = s.collected m := fun m => by
    rw [Bool.eq_iff_iff, collected_iff, collected_iff, h.collected]
  simp only [missing, h.staying_eq, hcollected, h.manifestations, qualifies, h.involvements]

theorem SameView.due_eq (h : SameView s t a) : t.due a = s.due a := by
  rw [due, due, h.staying_eq, h.missing_eq, h.bucket]

theorem SameView.highest_eq (h : SameView s t a) : t.highest a = s.highest a := by
  rw [highest, highest, h.staying_eq]

theorem SameView.hasRoom_iff [Arithmetic] (h : SameView s t a) : t.HasRoom a ↔ s.HasRoom a := by
  rw [HasRoom, HasRoom, h.highest_eq, h.missing_eq]

/-- What a refresh sees decides whether it succeeds, and whether it breaks off. -/
theorem SameView.fate_eq [Arithmetic] (h : SameView s t a) (ha : a ∈ s.authorities.rows) :
    t.refreshes a.id = s.refreshes a.id ∧ t.breaksOff a.id = s.breaksOff a.id := by
  simp only [refreshes, breaksOff, authority?_eq_some.2 ⟨ha, rfl⟩,
    authority?_eq_some.2 ⟨h.row, rfl⟩, Option.any_some, crampedFault, h.highest_eq, h.hasRoom_iff,
    and_self]

theorem SameView.bucketItems_eq (h : SameView s t a) (ha : a ∈ s.authorities.rows) :
    t.bucketItems a.id = s.bucketItems a.id := by
  simp only [bucketItems, authority?_eq_some.2 ⟨ha, rfl⟩, authority?_eq_some.2 ⟨h.row, rfl⟩,
    Option.elim_some, h.bucket]

/-- **A refresh of another authority is not seen.** -/
theorem Refreshed.sameView (hl : s.Lawful) (hplaces : s.SamePlaces s')
    (h : Refreshed s now fresh a kept works o s') (ha : a ∈ s.authorities.rows)
    (hb : b ∈ s.authorities.rows) (hne : b.id ≠ a.id) : SameView s s' b := by
  refine ⟨hplaces, (h.mem_authorities hne).2 hb, ?_⟩
  · unfold bucketSlots
    cases hlink : b.uncollected with
    | none => rfl
    | some c =>
        -- the collection of the other authority is linked to that one only, or it is new
        have hother : c ≠ o.collection := by
          rintro rfl
          cases halink : a.uncollected with
          | none =>
              have hnew := (h.new halink).2
              rw [hl.link b hb _ hlink] at hnew
              contradiction
          | some d =>
              have hd := h.linked d halink
              exact hne (hl.linkUnique b hb a ha d (hd ▸ hlink) halink)
        simp only [Option.elim_some, orderedSlots, h.otherSlots c hother]

/-! ### Ids -/

theorem triedFrom_of_ok [Arithmetic] {c : Id} {seqno : Int} {k : ℕ} {rs : List ItemRef}
    {slots : List Slot}
    (h : appendFrom now fresh c s seqno k rs = .ok (slots, s')) :
    triedFrom now fresh c s seqno k rs = rs.length := by
  induction rs generalizing s s' seqno k slots with
  | nil => rfl
  | cons r rs ih =>
      simp only [appendFrom, bind_eq_ok, Prod.exists] at h
      obtain ⟨_, htarget, _, hguard, t, hinsert, next, hnext, rest, _, hrest, -⟩ := h
      rw [triedFrom, htarget, hguard, hinsert]
      simp only [Except.isOk, Except.toBool, Bool.not_true, Bool.or_self, Bool.false_eq_true,
        if_false, hnext, Except.toOption, Option.elim_some, ih hrest, List.length_cons]
      exact Nat.add_comm 1 _

theorem idsTried_of_ok [Arithmetic] {c : Id} {rs : List ItemRef} {slots : List Slot}
    (h : s.appendRefs now fresh c rs = .ok (slots, s')) :
    s.idsTried now fresh c rs = rs.length := by
  obtain ⟨n, hn, h⟩ := bind_eq_ok.1 h
  rw [idsTried, hn]
  exact triedFrom_of_ok h

/-- A refresh takes an id for the collection that it makes and one for each slot that it adds. -/
theorem idsGiven_of_refresh [Arithmetic] (h : s.refresh now fresh id = .ok (o, s')) :
    s.idsGiven now fresh id = (if o.created then 1 else 0) + o.added := by
  obtain ⟨p, t, slots, u, bucket, hprepare, happend, -, -, rfl⟩ := refresh_eq_ok h
  obtain ⟨rfl, -, -⟩ := appendRefs_eq_ok happend
  rw [idsGiven, hprepare]
  simp only [idsTried_of_ok happend, Prepared.idsTaken]
  simp [appended]

/-- A refresh of an authority that is not there takes none. -/
theorem idsGiven_unknown [Arithmetic]
    (h : s.authority? id = none) : s.idsGiven now fresh id = 0 := by
  have hprepare : ∃ f, s.prepare now (fresh 0) id = .error f := by
    refine ⟨.notFound "Authority" id, bind_eq_error.2 (.inl (bind_eq_error.2 (.inl ?_)))⟩
    exact require_eq_error.2 ⟨h, rfl⟩
  obtain ⟨f, hprepare⟩ := hprepare
  rw [idsGiven, hprepare]
  simp [lacksBucket, h]

theorem Refreshed.mem_slots {x : Slot} (h : Refreshed s now fresh a kept works o s')
    (hx : x ∈ s'.slots.rows) :
    x ∈ s.slots.rows ∨ ∃ i < o.added, x.id = fresh ((if o.created then 1 else 0) + i) := by
  by_cases howner : x.owner = o.collection
  · have hmem : x ∈ s'.orderedSlots o.collection := mem_orderedSlots.2 ⟨hx, howner⟩
    rcases List.mem_append.1 (h.slots ▸ hmem) with hmem | hmem
    · rw [h.kept_eq] at hmem
      have hbucket := (List.mem_filter.1 hmem).1
      unfold bucketSlots at hbucket
      cases hlink : a.uncollected with
      | none =>
          rw [hlink] at hbucket
          exact absurd hbucket List.not_mem_nil
      | some c =>
          rw [hlink] at hbucket
          exact .inl (mem_orderedSlots.1 hbucket).1
    · obtain ⟨i, hi, rfl⟩ := List.mem_mapIdx.1 hmem
      exact .inr ⟨i, h.added ▸ hi, rfl⟩
  · have hmem : x ∈ s.slotsOf x.owner := h.otherSlots x.owner howner ▸ mem_slotsOf.2 ⟨hx, rfl⟩
    exact .inl (mem_slotsOf.1 hmem).1

theorem Refreshed.hasCollection {c : Id} (hl : s.Lawful) (ha : a ∈ s.authorities.rows)
    (h : Refreshed s now fresh a kept works o s') (hc : s'.hasCollection c = true) :
    s.hasCollection c = true ∨ c = fresh 0 ∧ o.created = true := by
  by_cases hbucket : c = o.collection
  · subst hbucket
    cases hlink : a.uncollected with
    | none => exact .inr ⟨(h.new hlink).1, by rw [h.created, hlink]; rfl⟩
    | some d => exact .inl (h.linked d hlink ▸ hl.link a ha d hlink)
  · refine .inl ?_
    cases hold : s.collection? c with
    | none =>
        obtain ⟨row, hrow⟩ := exists_collection?_iff.2 hc
        rw [(h.otherCollections c hbucket).1 hold] at hrow
        contradiction
    | some old => exact hasCollection_of_collection? hold

/-- Where only the first ids were used, those that follow serve. -/
theorem FreshIds.following (hfresh : s.FreshIds fresh) (k : ℕ)
    (hcollections : ∀ c, t.hasCollection c = true →
      s.hasCollection c = true ∨ ∃ i < k, c = fresh i)
    (hslots : ∀ x ∈ t.slots.rows, x ∈ s.slots.rows ∨ ∃ i < k, x.id = fresh i) :
    t.FreshIds fun j => fresh (k + j) := {
  injective := fun i j hij => Nat.add_left_cancel (hfresh.injective hij)
  named := fun j => hfresh.named _
  collections := fun j => Bool.eq_false_iff.2 fun htaken => by
    rcases hcollections _ htaken with hold | ⟨i, hi, hid⟩
    · rw [hfresh.collections] at hold
      contradiction
    · have hsame := hfresh.injective hid
      omega
  slots := fun j => Bool.eq_false_iff.2 fun htaken => by
    obtain ⟨x, hx, hid⟩ := Table.has_iff.1 htaken
    rcases hslots x hx with hold | ⟨i, hi, hx⟩
    · have hthere := Table.has_iff.2 ⟨x, hold, hid⟩
      rw [hfresh.slots] at hthere
      contradiction
    · have hsame := hfresh.injective (hx.symm.trans hid)
      omega }

/-- **The ids that follow serve for the next refresh.** -/
theorem FreshIds.after (hl : s.Lawful) (hfresh : s.FreshIds fresh) (ha : a ∈ s.authorities.rows)
    (h : Refreshed s now fresh a kept works o s') :
    s'.FreshIds fun k => fresh ((if o.created then 1 else 0) + o.added + k) := by
  refine hfresh.following _ (fun c hc => ?_) (fun x hx => ?_)
  · rcases h.hasCollection hl ha hc with hold | ⟨hid, hcreated⟩
    · exact .inl hold
    · refine .inr ⟨0, ?_, hid⟩
      rw [if_pos hcreated]
      omega
  · rcases h.mem_slots hx with hold | ⟨i, hi, hid⟩
    · exact .inl hold
    · exact .inr ⟨_, by omega, hid⟩

end Store

end Anthology
