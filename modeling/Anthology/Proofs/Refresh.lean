/-
**What a refresh does.**

A refresh brings the uncollected collection of an authority up to date in four steps: it locks the
authority, makes and links the collection where there is none, drops the slots that have lost their
place, and adds the works that lack.  Each step is described by what it leaves and by what it does
not touch; together they say of every row of the store what became of it.

Main definitions:

* `Anthology.Store.Collected`, `Anthology.Store.Creator` — what decides where a work belongs;
* `Anthology.Store.HasPlace` — the slots that stay;
* `Anthology.Store.Refreshed` — the store and the report after a refresh.

Main results:

* `Anthology.Store.bucketReady`, `Anthology.Store.pruned` — the first three steps;
* `Anthology.Store.Reachable.refreshed` — **the refresh as a whole**.
-/

import Anthology.Proofs.Below
import Anthology.Proofs.Operation
import Anthology.Proofs.Order

set_option relaxedAutoImplicit false
set_option autoImplicit false

namespace Anthology

namespace Store

variable {s t u : Store} {now : Time} {a : Authority} {b : Id} {x : Slot}

/-! ### Where a work belongs -/

/-- A slot of a collection of another kind than uncollected refers to the work. -/
def Collected (s : Store) (m : Id) : Prop :=
  ∃ x ∈ s.slots.rows, x.item = .manifestation m ∧
    ∃ row ∈ s.collections.rows, row.id = x.owner ∧ row.kind ≠ .uncollected

/-- The authority is author, translator or editor of the work. -/
def Creator (s : Store) (a m : Id) : Prop :=
  ∃ i ∈ s.involvements.rows, i.authority = a ∧ i.manifestation = m ∧
    (i.role = .author ∨ i.role = .translator ∨ i.role = .editor)

/-- The slot refers to a work that exists and that no collection of another kind holds. -/
def HasPlace (s : Store) (x : Slot) : Prop :=
  ∃ m, x.item = .manifestation m ∧ s.hasManifestation m = true ∧ ¬ s.Collected m

theorem collected_iff {m : Id} : s.collected m = true ↔ s.Collected m := by
  have howner : ∀ o, (s.collection? o).any (fun c => !c.isUncollected) = true ↔
      ∃ row ∈ s.collections.rows, row.id = o ∧ row.kind ≠ .uncollected := by
    intro o
    simp only [Option.any_eq_true, collection?_eq_some, Bool.not_eq_true',
      Collection.isUncollected, CollectionKind.isUncollected, beq_eq_false_iff_ne, and_assoc]
  simp only [collected, List.any_eq_true, Bool.and_eq_true, beq_iff_eq, howner]
  rfl

theorem qualifies_iff {a m : Id} : s.qualifies a m = true ↔ s.Creator a m := by
  have hrole : ∀ r : Role, r.qualifies = true ↔ r = .author ∨ r = .translator ∨ r = .editor := by
    intro r
    cases r <;> simp [Role.qualifies]
  simp only [qualifies, List.any_eq_true, Bool.and_eq_true, beq_iff_eq, hrole, and_assoc]
  rfl

theorem keepsPlace_iff : s.keepsPlace x = true ↔ s.HasPlace x := by
  unfold keepsPlace HasPlace
  split
  · rename_i m h
    simp [h, ← collected_iff]
  · rename_i h
    exact ⟨fun h' => absurd h' Bool.false_ne_true, fun ⟨m, hm, _⟩ => absurd hm (h m)⟩

instance : DecidablePred s.Collected := fun _ => decidable_of_iff _ collected_iff

instance {a : Id} : DecidablePred (s.Creator a) := fun _ => decidable_of_iff _ qualifies_iff

instance : DecidablePred s.HasPlace := fun _ => decidable_of_iff _ keepsPlace_iff

/-- The slots of the collection that an authority is linked to, in their order. -/
def bucketSlots (s : Store) (a : Authority) : List Slot := a.uncollected.elim [] s.orderedSlots

/-! ### The collection is made and linked -/

/-- The row of the authority when the collection `b` is ready. -/
def linkedRow (now : Time) (b : Id) (a : Authority) : Authority :=
  { a with uncollected := some b, lockVersion := a.lockVersion + 1, updatedAt := now }

/-- But for slots, the store `u` is `s` with the authority `a` locked and linked to the collection
`b`, which is a new one under the id `fresh` if the authority had no link. -/
structure BucketReady (s : Store) (now : Time) (fresh : Id) (a : Authority) (b : Id)
    (created : Bool) (u : Store) : Prop where
  manifestations : u.manifestations = s.manifestations
  involvements : u.involvements = s.involvements
  authorities : u.authorities.rows =
    s.authorities.rows.map fun x => if x.id = a.id then linkedRow now b x else x
  collections : u.collections.rows = s.collections.rows ++
    if created then [.create b now uncollectedTitle .uncollected] else []
  bucket : ∃ row ∈ u.collections.rows, row.id = b ∧ row.kind = .uncollected
  created : created = a.uncollected.isNone
  linked : ∀ c, a.uncollected = some c → b = c
  new : a.uncollected = none → b = fresh ∧ s.hasCollection b = false

/-- An authority that is linked is linked to what it was linked to. -/
theorem bucketReady_of_linked (ha : a ∈ s.authorities.rows) {row : Collection} {fresh : Id}
    (hlink : a.uncollected.bind s.collection? = some row) (hkind : row.isUncollected = true) :
    BucketReady s now fresh a row.id false (s.editAuthority a.id (lockedRow now) fun _ => rfl) := by
  obtain ⟨c, hc, hrow⟩ := Option.bind_eq_some_iff.1 hlink
  obtain ⟨hmem, rfl⟩ := collection?_eq_some.1 hrow
  refine ⟨rfl, rfl, List.map_congr_left fun x hx => ?_, (List.append_nil _).symm,
    ⟨row, hmem, rfl, ?_⟩, ?_, fun d hd => ?_, fun hnone => ?_⟩
  · show (if x.id = a.id then lockedRow now x else x) = _
    split
    · rename_i hid
      rw [Table.eq_of_key_eq hx ha hid, linkedRow, lockedRow, hc]
    · rfl
  · simpa [Collection.isUncollected, CollectionKind.isUncollected] using hkind
  · rw [hc]
    rfl
  · rw [hc] at hd
    exact Option.some.inj hd
  · rw [hc] at hnone
    contradiction

/-- A new collection is the only one that is added, and only the row of the authority is written
besides. -/
theorem bucketReady_of_new (hl : s.Lawful) (ha : a ∈ s.authorities.rows) {fresh : Id}
    (hnone : a.uncollected.bind s.collection? = none)
    (hput : (s.editAuthority a.id (lockedRow now) fun _ => rfl).putCollection
      (.create fresh now uncollectedTitle .uncollected) = .ok t)
    (hlink : t.link now a.id fresh = .ok u) : BucketReady s now fresh a fresh true u := by
  -- a link leads to a collection, so an authority for which none was found has no link
  have hunlinked : a.uncollected = none := by
    cases hc : a.uncollected with
    | none => rfl
    | some c =>
        obtain ⟨row, hrow⟩ := exists_collection?_iff.2 (hl.link a ha c hc)
        rw [hc] at hnone
        exact absurd (hrow.symm.trans hnone) (Option.some_ne_none row)
  obtain ⟨-, hfresh, collections, hrows, rfl⟩ := putCollection_eq_ok.1 hput
  obtain ⟨v, hset, rfl⟩ := link_eq_ok hlink
  have hlocked : lockedRow now a ∈
      (s.editAuthority a.id (lockedRow now) fun _ => rfl).authorities.rows :=
    List.mem_map.2 ⟨a, ha, if_pos rfl⟩
  rcases setLink_eq_ok hset with ⟨hmissing, -⟩ | ⟨-, -, rfl⟩
  · have hthere := authority?_eq_some.2 ⟨hlocked, rfl⟩
    exact absurd (hthere.symm.trans hmissing) (Option.some_ne_none _)
  refine ⟨rfl, rfl, ?_, hrows, ⟨.create fresh now uncollectedTitle .uncollected, ?_, rfl, rfl⟩, ?_,
    fun c hc => ?_, fun _ => ⟨rfl, hfresh⟩⟩
  · show ((s.authorities.rows.map fun x => if x.id = a.id then lockedRow now x else x).map
        fun x => if x.id = a.id then { x with uncollected := some fresh } else x).map
        (fun x => if x.id = a.id then { x with updatedAt := now } else x) = _
    rw [List.map_map, List.map_map]
    refine List.map_congr_left fun x _ => ?_
    by_cases hid : x.id = a.id
    · simp [hid, lockedRow, linkedRow]
    · simp [hid]
  · exact hrows ▸ List.mem_append_right _ List.mem_cons_self
  · rw [hunlinked]
    rfl
  · rw [hunlinked] at hc
    contradiction

theorem bucketReady {fresh : Id} {created : Bool} (hl : s.Lawful) (ha : a ∈ s.authorities.rows)
    (h : (s.editAuthority a.id (lockedRow now) fun _ => rfl).bucketOf now fresh a =
      .ok ((b, created), u)) : BucketReady s now fresh a b created u ∧ u.slots = s.slots := by
  rcases bucketOf_eq_ok h with
    ⟨row, hlink, hkind, rfl, rfl, rfl⟩ | ⟨hnone, rfl, rfl, t, hput, hlink⟩
  · exact ⟨bucketReady_of_linked ha hlink hkind, rfl⟩
  · refine ⟨bucketReady_of_new hl ha hnone hput hlink, (link_content hlink).2.1.trans ?_⟩
    obtain ⟨-, -, _, -, rfl⟩ := putCollection_eq_ok.1 hput
    rfl

section Ready

variable {fresh : Id} {created : Bool}

theorem BucketReady.with_slots (h : BucketReady s now fresh a b created u) (slots : Table Slot) :
    BucketReady s now fresh a b created { u with slots } :=
  ⟨h.manifestations, h.involvements, h.authorities, h.collections, h.bucket, h.created, h.linked,
    h.new⟩

/-- Whether a work is collected is not decided by the slots of the collection `b`, because that is
uncollected itself. -/
theorem BucketReady.collected_iff (h : BucketReady s now fresh a b created u)
    (hslots : ∀ x, x.owner ≠ b → (x ∈ u.slots.rows ↔ x ∈ s.slots.rows)) (m : Id) :
    u.Collected m ↔ s.Collected m := by
  -- a slot of the bucket itself belongs to an uncollected collection
  have howner : ∀ x : Slot, ∀ row ∈ u.collections.rows, row.id = x.owner →
      row.kind ≠ .uncollected → x.owner ≠ b := by
    intro x row hrow hid hkind howner
    obtain ⟨bucket, hbucket, hb, huncollected⟩ := h.bucket
    refine hkind ?_
    rw [Table.eq_of_key_eq hrow hbucket (hid.trans (howner.trans hb.symm))]
    exact huncollected
  constructor
  · rintro ⟨x, hx, hitem, row, hrow, hid, hkind⟩
    refine ⟨x, (hslots x (howner x row hrow hid hkind)).1 hx, hitem, row, ?_, hid, hkind⟩
    rcases List.mem_append.1 (h.collections ▸ hrow) with hrow | hrow
    · exact hrow
    · cases created
      · exact absurd hrow List.not_mem_nil
      · rw [List.mem_singleton.1 hrow] at hkind
        exact absurd rfl hkind
  · rintro ⟨x, hx, hitem, row, hrow, hid, hkind⟩
    have hrow' : row ∈ u.collections.rows := h.collections ▸ List.mem_append_left _ hrow
    exact ⟨x, (hslots x (howner x row hrow' hid hkind)).2 hx, hitem, row, hrow', hid, hkind⟩

theorem BucketReady.hasPlace_iff (h : BucketReady s now fresh a b created u)
    (hslots : u.slots = s.slots) (x : Slot) : u.HasPlace x ↔ s.HasPlace x := by
  have hcollected := h.collected_iff fun x _ => by rw [hslots]
  simp only [HasPlace, hcollected, hasManifestation, h.manifestations]

theorem BucketReady.collection?_of_ne (h : BucketReady s now fresh a b created u) {c : Id}
    (hc : c ≠ b) : u.collection? c = s.collection? c := by
  refine Option.ext fun row => ?_
  rw [collection?_eq_some, collection?_eq_some, h.collections, List.mem_append, or_and_right]
  refine or_iff_left ?_
  rintro ⟨hrow, rfl⟩
  cases created
  · exact List.not_mem_nil hrow
  · rw [List.mem_singleton.1 hrow] at hc
    exact hc rfl

/-- The collection is the one that was there, or a new one. -/
theorem BucketReady.exists_row (h : BucketReady s now fresh a b created u) :
    ∃ row, u.collection? b = some row ∧ row.kind = .uncollected ∧
      (s.collection? b = some row ∨
        s.collection? b = none ∧ row = .create b now uncollectedTitle .uncollected) := by
  obtain ⟨row, hrow, hid, hkind⟩ := h.bucket
  refine ⟨row, collection?_eq_some.2 ⟨hrow, hid⟩, hkind, ?_⟩
  rcases List.mem_append.1 (h.collections ▸ hrow) with hold | hnew
  · exact .inl (collection?_eq_some.2 ⟨hold, hid⟩)
  · cases created
    · exact absurd hnew List.not_mem_nil
    · have hnone : a.uncollected = none := Option.isNone_iff_eq_none.1 h.created.symm
      refine .inr ⟨?_, List.mem_singleton.1 hnew⟩
      cases hb : s.collection? b with
      | none => rfl
      | some old =>
          have hthere := hasCollection_of_collection? hb
          rw [(h.new hnone).2] at hthere
          contradiction

/-- A collection that was made has no slots yet. -/
theorem BucketReady.owner_ne (h : BucketReady s now fresh a b true u) (howned : s.Owned) (x : Slot)
    (hx : x ∈ s.slots.rows) : x.owner ≠ b := by
  rintro rfl
  have hnone : a.uncollected = none := Option.isNone_iff_eq_none.1 h.created.symm
  exact absurd (howned x hx) (Bool.eq_false_iff.1 (h.new hnone).2)

theorem BucketReady.bucketSlots_eq (h : BucketReady s now fresh a b created u)
    (howned : s.Owned) : s.bucketSlots a = s.orderedSlots b := by
  unfold bucketSlots
  cases hlink : a.uncollected with
  | none =>
      have hcreated : created = true := by rw [h.created, hlink]; rfl
      subst hcreated
      refine (List.eq_nil_iff_forall_not_mem.2 fun x hx => ?_).symm
      exact h.owner_ne howned x (mem_orderedSlots.1 hx).1 (mem_orderedSlots.1 hx).2
  | some c => rw [h.linked c hlink, Option.elim_some]

end Ready

/-! ### Slots that have lost their place go -/

/-- The slots of the collection `b` that have a place in it, in their order. -/
def keptSlots (s : Store) (b : Id) : List Slot :=
  (s.orderedSlots b).filter fun x => decide (s.HasPlace x)

/-- The slots of all collections, but of the collection `b` only those that have a place. -/
def remainingSlots (s : Store) (b : Id) : List Slot :=
  s.slots.rows.filter fun x => decide (x.owner ≠ b ∨ s.HasPlace x)

theorem mem_remainingSlots :
    x ∈ s.remainingSlots b ↔ x ∈ s.slots.rows ∧ (x.owner ≠ b ∨ s.HasPlace x) := by
  rw [remainingSlots, List.mem_filter, decide_eq_true_iff]

/-- Every slot of the collection is kept or gone. -/
theorem lost_add_kept (s : Store) (b : Id) :
    s.slots.rows.countP (fun x => !decide (x.owner ≠ b ∨ s.HasPlace x)) + (s.keptSlots b).length =
      (s.orderedSlots b).length := by
  have hlost : s.slots.rows.countP (fun x => !decide (x.owner ≠ b ∨ s.HasPlace x)) =
      (s.orderedSlots b).countP fun x => !decide (s.HasPlace x) := by
    rw [(s.orderedSlots_perm b).countP_eq, slotsOf, List.countP_filter]
    refine List.countP_congr fun x _ => ?_
    simp [and_comm]
  rw [hlost, keptSlots, ← List.countP_eq_length_filter, Nat.add_comm,
    List.length_eq_countP_add_countP fun x => decide (s.HasPlace x)]
  simp

/-- When a refresh has prepared the collection, the slots without a place are gone from it. -/
theorem pruned (hl : s.Lawful) {fresh id : Id} {p : Prepared}
    (h : s.prepare now fresh id = .ok (p, t)) :
    ∃ a, s.authority? id = some a ∧ BucketReady s now fresh a p.collection p.created t ∧
      t.slots.rows = s.remainingSlots p.collection ∧
      p.removed + (s.keptSlots p.collection).length = (s.orderedSlots p.collection).length := by
  obtain ⟨a, v, u, hlock, hbucket, hprune⟩ := prepare_eq_ok h
  obtain ⟨hauthority, rfl⟩ := lockAuthority_eq_ok hlock
  obtain ⟨ha, rfl⟩ := authority?_eq_some.1 hauthority
  obtain ⟨hready, hslots⟩ := bucketReady hl ha hbucket
  refine ⟨a, hauthority, ?_⟩
  rcases hprune with ⟨hcreated, hremoved, rfl⟩ | ⟨hcreated, hprune⟩
  · -- a collection that was made has no slots, so none can go
    rw [hcreated] at hready ⊢
    have hnone : s.orderedSlots p.collection = [] := by
      rw [← hready.bucketSlots_eq hl.owner, bucketSlots,
        Option.isNone_iff_eq_none.1 hready.created.symm]
      rfl
    refine ⟨hready, ?_, ?_⟩
    · rw [hslots, eq_comm, remainingSlots, List.filter_eq_self]
      intro x hx
      exact decide_eq_true (.inl (hready.owner_ne hl.owner x hx))
    · rw [keptSlots, hnone, hremoved]
      rfl
  · obtain ⟨hremoved, rfl⟩ := Prod.ext_iff.1 hprune
    have hlost : ∀ x, (x.owner == p.collection && !u.keepsPlace x) =
        !decide (x.owner ≠ p.collection ∨ s.HasPlace x) := by
      intro x
      rw [Bool.eq_iff_iff]
      simp [← hready.hasPlace_iff hslots x, ← keepsPlace_iff]
    refine ⟨hready.with_slots _, ?_, ?_⟩
    · show u.slots.rows.filter (fun x => !(x.owner == p.collection && !u.keepsPlace x)) = _
      simp only [hlost, hslots, Bool.not_not]
      rfl
    · have hcount : p.removed =
          u.slots.rows.countP fun x => x.owner == p.collection && !u.keepsPlace x := hremoved.symm
      rw [← lost_add_kept s p.collection, hcount]
      simp only [hlost, hslots]

/-- Pruning leaves all other collections as they were. -/
theorem slotsOf_pruned (hslots : t.slots.rows = s.remainingSlots b) {c : Id} (hc : c ≠ b) :
    t.slotsOf c = s.slotsOf c := by
  rw [slotsOf, slotsOf, hslots, remainingSlots, List.filter_filter]
  refine List.filter_congr fun x _ => ?_
  by_cases howner : x.owner = c
  · simp [howner, hc]
  · simp [howner]

/-- The slots that are left of the collection itself are those that are kept. -/
theorem slotsOf_pruned_perm (hslots : t.slots.rows = s.remainingSlots b) :
    (t.slotsOf b).Perm (s.keptSlots b) := by
  have hfilter : t.slotsOf b = (s.slotsOf b).filter fun x => decide (s.HasPlace x) := by
    rw [slotsOf, slotsOf, hslots, remainingSlots, List.filter_filter, List.filter_filter]
    refine List.filter_congr fun x _ => ?_
    by_cases howner : x.owner = b
    · simp [howner]
    · simp [howner]
  rw [hfilter]
  exact ((s.orderedSlots_perm b).filter _).symm

theorem pairwise_keptSlots (s : Store) (b : Id) :
    (s.keptSlots b).Pairwise fun x y => x.rank ≤ y.rank :=
  ((s.orderedSlots_pairwise b).imp fun h => h.le).sublist List.filter_sublist

/-! ### Works that lack are added -/

/-- The works that the collection `b` of the authority `a` lacks, in the order in which they are
added. -/
def lackingWorks (s : Store) (a b : Id) : List Manifestation :=
  (s.manifestations.rows.filter (s.lacks a b)).mergeSort Manifestation.precedes

theorem candidates_eq (s : Store) (a b : Id) :
    s.candidates a b = (s.lackingWorks a b).map Manifestation.id := rfl

theorem mem_lackingWorks {a b : Id} {m : Manifestation} : m ∈ s.lackingWorks a b ↔
    m ∈ s.manifestations.rows ∧ m.status = Manifestation.published ∧ s.Creator a m.id ∧
      ¬ s.Collected m.id ∧ ∀ x ∈ s.slotsOf b, x.item ≠ .manifestation m.id := by
  simp only [lackingWorks, List.mem_mergeSort, List.mem_filter, lacks, Bool.and_eq_true,
    Manifestation.isPublished, beq_iff_eq, qualifies_iff, Bool.not_eq_true', ← Bool.not_eq_true,
    collected_iff, List.any_eq_true, not_exists, not_and, and_assoc, ne_eq]

/-- No work is added twice, because works are listed by their rows and not by their credits. -/
theorem pairwise_lackingWorks (s : Store) (a b : Id) : (s.lackingWorks a b).Pairwise fun m n =>
    m.title < n.title ∨ m.title = n.title ∧ m.id < n.id := by
  have hids : ((s.manifestations.rows.filter (s.lacks a b)).map Manifestation.id).Nodup :=
    s.manifestations.nodup.sublist (List.filter_sublist.map _)
  have hsorted : (s.lackingWorks a b).Pairwise fun m n => m.rank < n.rank :=
    pairwise_mergeSort_lt (fun _ _ => Manifestation.precedes_iff) (nodup_rank (fun _ => rfl) hids)
  exact hsorted.imp fun h => Manifestation.rank_lt_iff.1 h

theorem appended_works {p : Prepared} {fresh : ℕ → Id} {n : Int} (works : List Manifestation) :
    appended now (p.slotIds fresh) b n 0 ((works.map Manifestation.id).map .manifestation) =
      works.mapIdx fun i m => .create (fresh ((if p.created then 1 else 0) + i)) now b
        (.manifestation m.id) (n + i) := by
  refine List.ext_getElem (by simp [appended]) fun i hi hi' => ?_
  simp [appended, Prepared.slotIds, Prepared.idsTaken]

/-- A collection whose slots refer to works that exist, and to nothing else, holds as many works as
it has slots. -/
theorem countBelow_of_works {b : Id}
    (h : ∀ x ∈ s.slotsOf b, ∃ m, x.item = .manifestation m ∧ s.hasManifestation m = true) :
    s.countBelow b = (s.slotsOf b).length := by
  have hworks : s.worksIn b = (s.slotsOf b).length := by
    refine List.countP_eq_length.2 fun x hx => ?_
    obtain ⟨m, hitem, hm⟩ := h x hx
    simp [hitem, ItemRef.manifestation?, hm]
  have hnone : s.childrenOf b = [] := by
    refine List.filterMap_eq_nil_iff.2 fun x hx => ?_
    obtain ⟨m, hitem, -⟩ := h x hx
    rw [hitem]
    rfl
  rw [countBelow_childless, hworks]
  rw [subCollections, hnone, List.filter_nil]

section Filled

variable {fresh : Id} {created : Bool}

/-- The works that lack, in terms of the store before. -/
theorem BucketReady.mem_lackingWorks_iff (h : BucketReady s now fresh a b created t)
    (hslots : t.slots.rows = s.remainingSlots b) (m : Manifestation) :
    m ∈ t.lackingWorks a.id b ↔ m ∈ s.manifestations.rows ∧
      m.status = Manifestation.published ∧ s.Creator a.id m.id ∧ ¬ s.Collected m.id ∧
        ∀ x ∈ s.keptSlots b, x.item ≠ .manifestation m.id := by
  have hcollected : t.Collected m.id ↔ s.Collected m.id := by
    refine h.collected_iff (fun x hne => ?_) m.id
    rw [hslots, mem_remainingSlots]
    exact and_iff_left (.inl hne)
  rw [mem_lackingWorks, hcollected, h.manifestations, Creator, h.involvements]
  simp only [(slotsOf_pruned_perm hslots).mem_iff]
  rfl

/-- The collection holds the works that it kept and those that were added, and nothing else. -/
theorem BucketReady.countBelow_append (h : BucketReady s now fresh a b created t)
    (hslots : t.slots.rows = s.remainingSlots b) {works : List Manifestation}
    (hworks : ∀ m ∈ works, m ∈ s.manifestations.rows) {slots : Table Slot} {ids : ℕ → Id}
    {n : Int} {k : ℕ} (hrows : slots.rows =
      t.slots.rows ++ appended now ids b n k ((works.map Manifestation.id).map .manifestation)) :
    (Store.countBelow { t with slots } b : Int) = (s.keptSlots b).length + works.length := by
  have hperm := slotsOf_pruned_perm hslots
  have hsplit := slotsOf_append hrows fun x hx => appended_owner hx
  have hhas : ∀ m, Store.hasManifestation { t with slots } m = s.hasManifestation m := by
    intro m
    rw [hasManifestation, hasManifestation, h.manifestations]
  have hall : ∀ x ∈ Store.slotsOf { t with slots } b, ∃ m, x.item = .manifestation m ∧
      Store.hasManifestation { t with slots } m = true := by
    intro x hx
    simp only [hhas]
    rcases List.mem_append.1 (hsplit ▸ hx) with hx | hx
    · obtain ⟨m, hitem, hm, -⟩ := of_decide_eq_true (List.mem_filter.1 (hperm.mem_iff.1 hx)).2
      exact ⟨m, hitem, hm⟩
    · have hmem := List.mem_map_of_mem (f := Slot.item) hx
      rw [appended_items] at hmem
      obtain ⟨id, hid, hitem⟩ := List.mem_map.1 hmem
      obtain ⟨m, hm, rfl⟩ := List.mem_map.1 hid
      exact ⟨m.id, hitem.symm, hasManifestation_iff.2 ⟨m, hworks m hm, rfl⟩⟩
  rw [countBelow_of_works hall, hsplit, List.length_append, hperm.length_eq]
  simp [appended]

end Filled

/-! ### The refresh as a whole -/

/-- The same row, but for the number and the time of the last change. -/
def SameButCount (old row : Collection) : Prop :=
  row = { old with count := row.count, updatedAt := row.updatedAt }

/-- The store `s'` and the report `o` after a refresh of the authority `a` in the store `s`, where
`kept` are the slots that stayed and `works` the works that were added. -/
structure Refreshed (s : Store) (now : Time) (fresh : ℕ → Id) (a : Authority) (kept : List Slot)
    (works : List Manifestation) (o : RefreshOutcome) (s' : Store) : Prop where
  /-- The slots that stayed are those that have a place, as they were. -/
  kept_eq : kept = (s.bucketSlots a).filter fun x => decide (s.HasPlace x)
  /-- The works are added by title and then by id, each once. -/
  ordered : works.Pairwise fun m n => m.title < n.title ∨ m.title = n.title ∧ m.id < n.id
  mem_works : ∀ m, m ∈ works ↔ m ∈ s.manifestations.rows ∧ m.status = Manifestation.published ∧
    s.Creator a.id m.id ∧ ¬ s.Collected m.id ∧ ∀ x ∈ kept, x.item ≠ .manifestation m.id
  slots : s'.orderedSlots o.collection = kept ++ works.mapIdx fun i m =>
    .create (fresh ((if o.created then 1 else 0) + i)) now o.collection (.manifestation m.id)
      ((kept.map Slot.seqno).max?.getD 0 + 1 + i)
  authority : o.authority = a.id
  created : o.created = a.uncollected.isNone
  linked : ∀ c, a.uncollected = some c → o.collection = c
  new : a.uncollected = none → o.collection = fresh 0 ∧ s.hasCollection o.collection = false
  removed : o.removed + kept.length = (s.bucketSlots a).length
  added : o.added = works.length
  count : o.count = kept.length + works.length
  sameWorks : s'.manifestations = s.manifestations
  sameCredits : s'.involvements = s.involvements
  /-- Of the authorities only the row of `a` is written. -/
  authorities : s'.authorities.rows =
    s.authorities.rows.map fun x => if x.id = a.id then linkedRow now o.collection x else x
  /-- The slots of all other collections are as they were. -/
  otherSlots : ∀ c, c ≠ o.collection → s'.slotsOf c = s.slotsOf c
  bucket : ∃ old row, s'.collection? o.collection = some row ∧ SameButCount old row ∧
    row.kind = .uncollected ∧ row.count = o.count ∧
      (s.collection? o.collection = some old ∨ s.collection? o.collection = none ∧
        old = .create o.collection now uncollectedTitle .uncollected)
  /-- Of the other collections only numbers are written, and those only above the bucket. -/
  otherCollections : ∀ c, c ≠ o.collection →
    (s.collection? c = none → s'.collection? c = none) ∧
      ∀ old, s.collection? c = some old → ∃ row, s'.collection? c = some row ∧
        SameButCount old row ∧ (¬ s.Contains c o.collection → row = old)

theorem recountedIn_sameButCount {cs : List Id} {row : Collection} :
    SameButCount row (s.recountedIn now cs row) := by
  unfold recountedIn recounted
  split
  · split <;> rfl
  · rfl

/-- The row of a collection after a recount from there upwards. -/
theorem row_of_recount_upward {row bucket : Collection} (hrow : t.collection? b = some row)
    (hbucket : (t.recount now (t.upward b)).collection? b = some bucket) :
    SameButCount row bucket ∧ bucket.kind = row.kind ∧ bucket.count = t.countBelow b := by
  rw [recount_collection?, hrow, Option.map_some] at hbucket
  obtain rfl := Option.some.inj hbucket
  have hid : row.id = b := (collection?_eq_some.1 hrow).2
  refine ⟨recountedIn_sameButCount, recountedIn_kind .., ?_⟩
  rw [recountedIn, if_pos (hid ▸ mem_upward.2 (.refl _)), recounted_count, hid]

/-- The row of another collection after that recount. -/
theorem row_of_recount_other {c : Id} {old : Collection} (hold : t.collection? c = some old) :
    ∃ row, (t.recount now (t.upward b)).collection? c = some row ∧ SameButCount old row ∧
      (¬ t.Contains c b → row = old) := by
  refine ⟨_, by rw [recount_collection?, hold, Option.map_some], recountedIn_sameButCount, ?_⟩
  intro hcontains
  refine if_neg fun hmem => hcontains ?_
  rwa [(collection?_eq_some.1 hold).2, mem_upward] at hmem

/-- A refresh brings in no reference to a collection. -/
theorem contains_of_appended {slots : Table Slot} {fresh : ℕ → Id} {n : Int} {k : ℕ}
    {ids : List Id} {c d : Id} (hsub : ∀ x ∈ t.slots.rows, x ∈ s.slots.rows)
    (hrows : slots.rows = t.slots.rows ++ appended now fresh b n k (ids.map .manifestation))
    (h : Store.Contains { t with slots } c d) : s.Contains c d := by
  refine h.mono fun c d hd => ?_
  obtain ⟨x, hx, howner, hitem⟩ := mem_childrenOf.1 hd
  rcases List.mem_append.1 (hrows ▸ hx) with hx | hx
  · exact mem_childrenOf.2 ⟨x, hsub x hx, howner, hitem⟩
  · have hmem := List.mem_map_of_mem (f := Slot.item) hx
    rw [appended_items, hitem] at hmem
    obtain ⟨m, -, hm⟩ := List.mem_map.1 hmem
    contradiction

/-- **The refresh as a whole.** -/
theorem Reachable.refreshed [Arithmetic] (h : s.Reachable) {fresh : ℕ → Id} {id : Id}
    {o : RefreshOutcome}
    {s' : Store} (hrefresh : s.refresh now fresh id = .ok (o, s')) :
    ∃ a kept works, s.authority? id = some a ∧ Refreshed s now fresh a kept works o s' := by
  obtain ⟨p, t, _, u, bucket, hprepare, happend, rfl, hbucket, rfl⟩ := refresh_eq_ok hrefresh
  obtain ⟨a, hauthority, hready, hslots, hremoved⟩ := pruned h.lawful hprepare
  obtain ⟨rfl, ⟨table, hrows, rfl⟩, -⟩ := appendRefs_eq_ok happend
  obtain ⟨ha, rfl⟩ := authority?_eq_some.1 hauthority
  have hsub : ∀ x ∈ t.slots.rows, x ∈ s.slots.rows := fun x hx =>
    (mem_remainingSlots.1 (hslots ▸ hx)).1
  have hbefore := hready.bucketSlots_eq h.lawful.owner
  have hworks := hready.mem_lackingWorks_iff hslots
  rw [candidates_eq] at hrows
  -- the slots in their order, with the numbers counted on from the highest that was kept
  have hordered := orderedSlots_append (slotsOf_pruned_perm hslots) (s.pairwise_keptSlots _) hrows
  rw [maxSeqno_eq (fun x hx => h.lawful.seqno x (hsub x hx)) (slotsOf_pruned_perm hslots),
    appended_works] at hordered
  -- the row of the bucket, which carries the number of its slots because each refers to a work
  obtain ⟨row, hrow, hkind, hold⟩ := hready.exists_row
  have hrow' : Store.collection? { t with slots := table } p.collection = some row := hrow
  obtain ⟨hsame, hbucketKind, hbucketCount⟩ := row_of_recount_upward hrow' hbucket
  rw [hready.countBelow_append hslots (fun m hm => ((hworks m).1 hm).1) hrows] at hbucketCount
  refine ⟨a, s.keptSlots p.collection, t.lackingWorks a.id p.collection, hauthority, ?_⟩
  exact {
    kept_eq := by rw [hbefore]; rfl
    ordered := t.pairwise_lackingWorks a.id p.collection
    mem_works := hworks
    slots := hordered
    authority := rfl
    created := hready.created
    linked := hready.linked
    new := hready.new
    removed := by rw [hbefore]; exact hremoved
    added := by simp [appended, candidates_eq]
    count := hbucketCount
    sameWorks := hready.manifestations
    sameCredits := hready.involvements
    authorities := hready.authorities
    otherSlots := by
      intro c hc
      rw [← slotsOf_pruned hslots hc]
      exact slotsOf_append_of_ne hrows (fun x hx => appended_owner hx) hc
    bucket := ⟨row, bucket, hbucket, hsame, hbucketKind.trans hkind, rfl, hold⟩
    otherCollections := by
      intro c hc
      have hsame : Store.collection? { t with slots := table } c = s.collection? c :=
        hready.collection?_of_ne hc
      refine ⟨fun hnone => ?_, fun old hold => ?_⟩
      · rw [recount_collection?, hsame, hnone]
        rfl
      · obtain ⟨row, hrow, hbut, heq⟩ := row_of_recount_other (hsame.trans hold)
        refine ⟨row, hrow, hbut, fun hcontains => heq fun habove => hcontains ?_⟩
        exact contains_of_appended hsub hrows habove }

theorem refreshed_authored : ∃ s o s', Operation.runAll .empty Operation.authored = .ok s ∧
    s.refresh 1 (fun _ => "bucket") "author" = .ok (o, s') ∧ o.created = true ∧ o.added = 1 ∧
      ∃ a kept works, s.authority? "author" = some a ∧
        Refreshed s 1 (fun _ => "bucket") a kept works o s' := by
  obtain ⟨s, hs, hrefresh⟩ : ∃ s, Operation.runAll .empty Operation.authored = .ok s ∧
      (s.refresh 1 (fun _ => "bucket") "author").toOption.any (fun r =>
        decide (r.1.created = true ∧ r.1.added = 1)) = true :=
    exists_eq_ok_of_any (by decide +kernel)
  obtain ⟨⟨o, s'⟩, hs', hcreated, hadded⟩ := exists_eq_ok_of_any hrefresh
  exact ⟨s, o, s', hs, hs', hcreated, hadded, Reachable.refreshed (.runAll .empty hs) hs'⟩

end Store

end Anthology
