/-
**Links lead to uncollected collections.**

An authority is linked to the collection that the upkeep fills for it.  The schema lets a link lead
to any collection; that it leads to an uncollected one is shown of the writes.  A link is set only
to a collection of that kind, no edit changes whether a collection is of it, and a link goes with
the collection.  Uncollected collections, in turn, come from the upkeep alone: an operation other
than a refresh makes none, and a refresh makes at most one, under the first id that it is given.

Main definitions:

* `Anthology.Store.BucketLinks` — every link leads to an uncollected collection;
* `Anthology.Store.KindsInherited`, `Anthology.Store.KindsEdited` — what becomes of the kinds of
  collections;
* `Anthology.Operation.given`, `Anthology.Store.ReachedGiving` — the stores that are reached when
  all ids that are given out pass a test.

Main results:

* `Anthology.Store.Write.bucketLinks` — **no write makes a link lead elsewhere**;
* `Anthology.Store.kindsEdited_run` — only a refresh makes an uncollected collection, and nothing
  ends or begins that a collection is uncollected;
* `Anthology.Store.uncollected_of_run` — where uncollected collections come from;
* `Anthology.Store.ReachedGiving.uncollected` — the ids of uncollected collections were given out.
-/

import Anthology.Proofs.Refresh

set_option relaxedAutoImplicit false
set_option autoImplicit false

namespace Anthology

namespace Store

variable {s s' t u : Store} {now : Time} {id : Id}

/-! ### Where links lead -/

/-- Every collection that an authority is linked to is uncollected. -/
def BucketLinks (s : Store) : Prop :=
  ∀ a ∈ s.authorities.rows, ∀ row ∈ s.collections.rows,
    a.uncollected = some row.id → row.isUncollected = true

theorem BucketLinks.empty : Store.empty.BucketLinks := fun _ ha => absurd ha List.not_mem_nil

/-- Links may go, and so may collections. -/
theorem BucketLinks.mono (h : s.BucketLinks)
    (hlinks : ∀ b ∈ t.authorities.rows, ∀ c, b.uncollected = some c →
      ∃ a ∈ s.authorities.rows, a.uncollected = some c)
    (hcollections : ∀ row ∈ t.collections.rows, row ∈ s.collections.rows) : t.BucketLinks := by
  intro b hb row hrow hlink
  obtain ⟨a, ha, hlink⟩ := hlinks b hb row.id hlink
  exact h a ha row (hcollections row hrow) hlink

/-- **No write makes a link lead elsewhere.** -/
theorem Write.bucketLinks (hw : Write s t) (hl : s.Lawful) (h : s.BucketLinks) :
    t.BucketLinks := by
  cases hw with
  | putSlot target guarded put =>
      obtain ⟨-, -, -, _, -, rfl⟩ := putSlot_eq_ok.1 put
      exact h
  | @putCollection _ c put =>
      -- links lead to collections that were there, and the new one was not
      obtain ⟨-, hnew, collections, hrows, rfl⟩ := putCollection_eq_ok.1 put
      intro a ha row hrow hlink
      rcases List.mem_append.1 (hrows ▸ hrow) with hrow | hrow
      · exact h a ha row hrow hlink
      · cases List.mem_singleton.1 hrow
        rw [hl.link a ha _ hlink] at hnew
        contradiction
  | editCollections f hf kind counted =>
      intro a ha row' hrow' hlink
      obtain ⟨row, hrow, rfl⟩ := List.mem_map.1 hrow'
      rw [hf] at hlink
      exact (kind row hrow).trans (h a ha row hrow hlink)
  | @dropCollection id alone =>
      refine h.mono (fun b hb c hlink => ?_) fun row hrow => (List.mem_filter.1 hrow).1
      obtain ⟨a, ha, rfl⟩ := List.mem_map.1 hb
      split at hlink
      · cases hlink
      · exact ⟨a, ha, hlink⟩
  | putManifestation put =>
      obtain ⟨-, -, _, -, rfl⟩ := putManifestation_eq_ok.1 put
      exact h
  | @putAuthority _ new put =>
      obtain ⟨-, hlink, -, authorities, hrows, rfl⟩ := putAuthority_eq_ok.1 put
      refine h.mono (fun b hb c hc => ?_) fun row hrow => hrow
      rcases List.mem_append.1 (hrows ▸ hb) with hb | hb
      · exact ⟨b, hb, hc⟩
      · cases List.mem_singleton.1 hb
        rw [hlink] at hc
        cases hc
  | editAuthority id f hf linked =>
      refine h.mono (fun b hb c hc => ?_) fun row hrow => hrow
      obtain ⟨a, ha, rfl⟩ := List.mem_map.1 hb
      refine ⟨a, ha, ?_⟩
      split at hc
      · rwa [linked] at hc
      · exact hc
  | @setLink _ a c uncollected set =>
      rcases setLink_eq_ok set with ⟨-, rfl⟩ | ⟨-, -, rfl⟩
      · exact h
      · intro b' hb' row hrow hlink
        obtain ⟨b, hb, rfl⟩ := List.mem_map.1 hb'
        split at hlink
        · cases Option.some.inj hlink
          exact uncollected row (collection?_eq_some.2 ⟨hrow, rfl⟩)
        · exact h b hb row hrow hlink
  | dropAuthority id =>
      exact h.mono (fun b hb c hc => ⟨b, (List.mem_filter.1 hb).1, hc⟩) fun row hrow => hrow
  | putInvolvement put =>
      rcases putInvolvement_eq_ok put with rfl | ⟨-, -, _, -, rfl⟩ <;> exact h
  | placeSlot | relabel | dropSlots | editManifestation | dropManifestation | dropInvolvements =>
      exact h

theorem Reachable.bucketLinks [Arithmetic] (h : s.Reachable) : s.BucketLinks :=
  h.of_write .empty fun hl hw => hw.bucketLinks hl

/-! ### Where uncollected collections come from -/

theorem isUncollected_iff {row : Collection} :
    row.isUncollected = true ↔ row.kind = .uncollected := by
  simp [Collection.isUncollected, CollectionKind.isUncollected]

/-- Every uncollected collection of `t` was one in `s`. -/
def BucketsFrom (s t : Store) : Prop :=
  ∀ row ∈ t.collections.rows, row.isUncollected = true →
    ∃ old ∈ s.collections.rows, old.id = row.id ∧ old.isUncollected = true

/-- The collection was there in `s`, uncollected or not as it is now. -/
def Inherits (s : Store) (row : Collection) : Prop :=
  ∃ old ∈ s.collections.rows, old.id = row.id ∧ old.isUncollected = row.isUncollected

/-- Every collection of `t` was there in `s`, uncollected or not as it is now. -/
def KindsInherited (s t : Store) : Prop := ∀ row ∈ t.collections.rows, s.Inherits row

/-- Every collection of `t` was there in `s`, uncollected or not as it is now, or it is new and not
uncollected. -/
def KindsEdited (s t : Store) : Prop := ∀ row ∈ t.collections.rows,
  s.Inherits row ∨ s.hasCollection row.id = false ∧ row.isUncollected = false

theorem KindsInherited.of_eq (h : t.collections = s.collections) : s.KindsInherited t :=
  fun row hrow => ⟨row, h ▸ hrow, rfl, rfl⟩

theorem KindsInherited.trans (h : s.KindsInherited t) (h' : t.KindsInherited u) :
    s.KindsInherited u := by
  intro row hrow
  obtain ⟨mid, hmid, hid, hkind⟩ := h' row hrow
  obtain ⟨old, hold, hid', hkind'⟩ := h mid hmid
  exact ⟨old, hold, hid'.trans hid, hkind'.trans hkind⟩

theorem KindsInherited.recount {cs : List Id} (h : s.KindsInherited t) :
    s.KindsInherited (t.recount now cs) := by
  refine h.trans fun row' hrow' => ?_
  obtain ⟨row, hrow, rfl⟩ := List.mem_map.1 hrow'
  exact ⟨row, hrow, (recountedIn_id ..).symm, by simp [Collection.isUncollected]⟩

theorem KindsInherited.bucketsFrom (h : s.KindsInherited t) : s.BucketsFrom t := by
  intro row hrow hkind
  obtain ⟨old, hold, hid, hsame⟩ := h row hrow
  exact ⟨old, hold, hid, hsame.trans hkind⟩

theorem KindsInherited.edited (h : s.KindsInherited t) : s.KindsEdited t :=
  fun row hrow => .inl (h row hrow)

theorem KindsFrom.inherited (h : s.KindsFrom t) : s.KindsInherited t := by
  intro row hrow
  obtain ⟨old, hold, hsame⟩ := h row.id row (collection?_eq_some.2 ⟨hrow, rfl⟩)
  obtain ⟨hold, hid⟩ := collection?_eq_some.1 hold
  exact ⟨old, hold, hid, by rw [Collection.isUncollected, hsame, Collection.isUncollected]⟩

/-- A new collection that is not uncollected comes in first, or it comes in alone. -/
theorem KindsEdited.of_put {c : Collection} (hkind : c.isUncollected = false)
    (hput : s.putCollection c = .ok t) (h : t.KindsEdited u) : s.KindsEdited u := by
  obtain ⟨-, hnew, collections, hrows, rfl⟩ := putCollection_eq_ok.1 hput
  intro row hrow
  rcases h row hrow with ⟨mid, hmid, hid, hsame⟩ | ⟨hmissing, hother⟩
  · rcases List.mem_append.1 (hrows ▸ hmid) with hmid | hmid
    · exact .inl ⟨mid, hmid, hid, hsame⟩
    · cases List.mem_singleton.1 hmid
      exact .inr ⟨hid ▸ hnew, hsame.symm.trans hkind⟩
  · refine .inr ⟨Bool.eq_false_iff.2 fun hthere => ?_, hother⟩
    exact Bool.eq_false_iff.1 hmissing (Table.has_of_append hrows hthere)

theorem kindsInherited_addItem [Arithmetic] {c : Id} {r : ItemRef} {a : SlotAttrs} {x : Slot}
    (h : s.addItem now id c r a = .ok (x, s')) : s.KindsInherited s' := by
  obtain ⟨-, -, -, -, -, -, t, hput, rfl⟩ := addItem_eq_ok h
  obtain ⟨-, -, -, _, -, rfl⟩ := putSlot_eq_ok.1 hput
  exact .recount (.of_eq rfl)

theorem kindsInherited_appendRefs [Arithmetic] {fresh : ℕ → Id} {c : Id} {rs : List ItemRef}
    {slots : List Slot} (h : s.appendRefs now fresh c rs = .ok (slots, t)) :
    s.KindsInherited t := by
  obtain ⟨-, ⟨_, -, rfl⟩, -⟩ := appendRefs_eq_ok h
  exact .of_eq rfl

theorem kindsEdited_place [Arithmetic] {slotId parent : Id} {row : Collection} {p : Placed}
    (hkind : row.isUncollected = false) (h : s.place now slotId parent row = .ok (p, s')) :
    s.KindsEdited s' := by
  obtain ⟨t, slots, u, hput, happend, rfl⟩ := place_eq_ok h
  exact .of_put hkind hput (kindsInherited_appendRefs happend).recount.edited

theorem Relabelled.kindsInherited (h : s.Relabelled t) : s.KindsInherited t := by
  obtain ⟨_, _, -, -, -, rfl⟩ := h
  exact .of_eq rfl

/-- An edit may change the kind of a collection, but not whether it is uncollected. -/
theorem kindsInherited_updateCollection {row : Collection}
    (h : s.updateCollection now row = .ok s') : s.KindsInherited s' := by
  obtain ⟨old, hold, hsame, rfl⟩ := updateCollection_eq_ok h
  obtain ⟨hold, hid⟩ := collection?_eq_some.1 hold
  intro x' hx'
  obtain ⟨x, hx, rfl⟩ := List.mem_map.1 hx'
  split
  · rename_i hx'
    cases Table.eq_of_key_eq hx hold (hx'.trans hid.symm)
    exact ⟨old, hold, rfl, hsame⟩
  · exact ⟨x, hx, rfl, rfl⟩

theorem kindsInherited_cleanup {mode : CleanupMode} {r : CleanupReport}
    (h : (s.cleanup now mode).result = .ok (r, s')) : s.KindsInherited s' :=
  cleanup_induction (P := s.KindsInherited)
    (fun hs _ hresolve => hs.trans (kindsFrom_resolve hresolve).inherited) (.of_eq rfl) h

/-- **Nothing but a refresh makes an uncollected collection**, and nothing at all ends or begins
that a collection is uncollected. -/
theorem kindsEdited_run [Arithmetic] {op : Operation} (h : op.run s = .ok s')
    (hop : ∀ now fresh a, op ≠ .refresh now fresh a) : s.KindsEdited s' := by
  cases op <;> simp only [Operation.run, map_eq_ok, Prod.exists, exists_eq_right] at h
  case refresh now fresh a => exact absurd rfl (hop now fresh a)
  case createCollection row =>
      obtain ⟨hkind, hput⟩ := createCollection_eq_ok.1 h
      exact .of_put hkind hput (KindsInherited.of_eq rfl).edited
  case addPeriodicalIssue now fresh periodical title =>
      obtain ⟨p, h⟩ := h
      exact kindsEdited_place rfl (addPeriodicalIssue_eq_ok h)
  case createPeriodicalWithIssue now fresh title issueTitle =>
      obtain ⟨p, h⟩ := h
      obtain ⟨t, placed, hput, hplace⟩ := createPeriodicalWithIssue_eq_ok h
      exact .of_put rfl hput (kindsEdited_place rfl hplace)
  case createSubCollection now fresh parent title kind =>
      obtain ⟨p, h⟩ := h
      obtain ⟨hkind, hplace⟩ := createSubCollection_eq_ok h
      refine kindsEdited_place ?_ hplace
      exact hkind
  -- no other operation makes a collection
  all_goals refine KindsInherited.edited ?_
  case updateCollection now row => exact kindsInherited_updateCollection h
  case deleteCollection now id =>
      obtain ⟨_, h⟩ := h
      exact (kindsFrom_deleteCollection h).inherited
  case addItem now id c r a =>
      obtain ⟨x, h⟩ := h
      exact kindsInherited_addItem h
  case appendItem now id c r =>
      obtain ⟨x, h⟩ := h
      exact kindsInherited_addItem h
  case appendMany now fresh c rs =>
      obtain ⟨slots, h⟩ := h
      obtain ⟨-, t, happend, rfl⟩ := appendMany_eq_ok h
      exact (kindsInherited_appendRefs happend).recount
  case updateItem now id a =>
      obtain ⟨x, h⟩ := h
      exact (updateItem_eq_ok h).kindsInherited
  case retargetItem now id r =>
      obtain ⟨x, h⟩ := h
      obtain ⟨old, t, -, -, -, -, rfl, rfl⟩ := retargetItem_eq_ok h
      exact .recount (.of_eq rfl)
  case removeItem now id =>
      obtain ⟨_, h⟩ := h
      rcases removeItem_eq_ok h with ⟨-, -, rfl⟩ | ⟨old, t, -, -, rfl, rfl⟩
      · exact .of_eq rfl
      · exact .recount (.of_eq rfl)
  case reorder now c id old new =>
      obtain ⟨items, h⟩ := h
      exact (reorder_eq_ok h).kindsInherited
  case moveItem now direction c id =>
      obtain ⟨items, h⟩ := h
      exact (moveItem_eq_ok h).kindsInherited
  case transplant now id dest rank =>
      obtain ⟨x, h⟩ := h
      obtain ⟨old, seqno, t, -, -, -, -, -, rfl, rfl⟩ := transplant_eq_ok h
      exact .recount (.of_eq rfl)
  case createManifestation m =>
      obtain ⟨-, -, _, -, rfl⟩ := putManifestation_eq_ok.1 h
      exact .of_eq rfl
  case updateManifestation now m =>
      rw [updateManifestation_eq_ok h]
      exact .of_eq rfl
  case deleteManifestation now id =>
      obtain ⟨_, h⟩ := h
      rcases deleteManifestation_eq_ok h with ⟨-, -, rfl⟩ | ⟨-, -, rfl⟩
      · exact .of_eq rfl
      · exact .recount (.of_eq rfl)
  case createAuthority a =>
      obtain ⟨-, -, -, _, -, rfl⟩ := putAuthority_eq_ok.1 h
      exact .of_eq rfl
  case updateAuthority now a =>
      rw [updateAuthority_eq_ok h]
      exact .of_eq rfl
  case deleteAuthority id =>
      cases h
      unfold deleteAuthority
      split <;> exact .of_eq rfl
  case addInvolvement i =>
      rcases putInvolvement_eq_ok h with rfl | ⟨-, -, _, -, rfl⟩ <;> exact .of_eq rfl
  case removeInvolvement a m role =>
      cases h
      unfold removeInvolvement
      split <;> exact .of_eq rfl
  case cleanup now mode =>
      obtain ⟨r, h⟩ := h
      exact kindsInherited_cleanup h
  case recalculate now c =>
      obtain ⟨r, h⟩ := h
      rw [recalculate_eq_ok h]
      exact .recount (.of_eq rfl)
  case recalculateAll now =>
      obtain ⟨summary, drifts, h⟩ := h
      rw [recalculateAll_eq_ok h]
      exact .recount (.of_eq rfl)

/-- A refresh makes at most one collection, under the first id that it is given. -/
theorem uncollected_of_refresh [Arithmetic] (hl : s.Lawful) {fresh : ℕ → Id} {o : RefreshOutcome}
    (h : s.refresh now fresh id = .ok (o, s')) {row : Collection}
    (hrow : row ∈ s'.collections.rows) (hkind : row.isUncollected = true) :
    (∃ old ∈ s.collections.rows, old.id = row.id ∧ old.isUncollected = true) ∨
      row.id = fresh 0 := by
  obtain ⟨p, t, slots, u, _, hprepare, happend, rfl, -, -⟩ := refresh_eq_ok h
  obtain ⟨a, -, hready, -, -⟩ := pruned hl hprepare
  obtain ⟨mid, hmid, hid, hmidKind⟩ :=
    (kindsInherited_appendRefs happend).recount.bucketsFrom row hrow hkind
  rcases List.mem_append.1 (hready.collections ▸ hmid) with hold | hnew
  · exact .inl ⟨mid, hold, hid, hmidKind⟩
  · cases hcreated : p.created with
    | false =>
        rw [hcreated] at hnew
        exact absurd hnew List.not_mem_nil
    | true =>
        rw [hcreated] at hnew
        cases List.mem_singleton.1 hnew
        have hnone : a.uncollected = none :=
          Option.isNone_iff_eq_none.1 (hready.created.symm.trans hcreated)
        exact .inr (hid.symm.trans (hready.new hnone).1)

/-- **Only a refresh makes an uncollected collection**, under the first id that it is given. -/
theorem uncollected_of_run [Arithmetic] (hl : s.Lawful) {op : Operation} (h : op.run s = .ok s')
    {row : Collection} (hrow : row ∈ s'.collections.rows) (hkind : row.isUncollected = true) :
    (∃ old ∈ s.collections.rows, old.id = row.id ∧ old.isUncollected = true) ∨
      ∃ now fresh a, op = .refresh now fresh a ∧ row.id = fresh 0 := by
  by_cases hop : ∃ now fresh a, op = .refresh now fresh a
  · obtain ⟨now, fresh, a, rfl⟩ := hop
    simp only [Operation.run, map_eq_ok, Prod.exists, exists_eq_right] at h
    obtain ⟨o, h⟩ := h
    refine (uncollected_of_refresh hl h hrow hkind).imp_right fun hid => ?_
    exact ⟨now, fresh, a, rfl, hid⟩
  · have hedited : s.KindsEdited s' :=
      kindsEdited_run h fun now fresh a hrefresh => hop ⟨now, fresh, a, hrefresh⟩
    rcases hedited row hrow with ⟨old, hold, hid, hsame⟩ | ⟨-, hother⟩
    · exact .inl ⟨old, hold, hid, hsame.trans hkind⟩
    · rw [hkind] at hother
      contradiction

end Store

/-! ### Ids that are given out -/

/-- The ids that an operation is given for the records that it makes. -/
def Operation.given : Operation → Set Id
  | addItem _ id _ _ _ | appendItem _ id _ _ => {id}
  | appendMany _ fresh _ _ | addPeriodicalIssue _ fresh _ _ | createPeriodicalWithIssue _ fresh _ _
  | createSubCollection _ fresh _ _ _ | refresh _ fresh _ => Set.range fresh
  | _ => ∅

namespace Store

variable {s : Store} {p : Id → Prop}

/-- The stores that operations lead to from the store without rows, where every id that an
operation is given passes the test `p`.  The ids of records that are brought in need not. -/
inductive ReachedGiving [Arithmetic] (p : Id → Prop) : Store → Prop
  | empty : ReachedGiving p .empty
  | step {s s' : Store} (h : ReachedGiving p s) (op : Operation) (given : ∀ id ∈ op.given, p id)
      (run : op.run s = .ok s') : ReachedGiving p s'

theorem ReachedGiving.reachable [Arithmetic] (h : s.ReachedGiving p) : s.Reachable := by
  induction h with
  | empty => exact .empty
  | step _ op _ run ih => exact ih.step op run

theorem ReachedGiving.runAll [Arithmetic] (h : s.ReachedGiving p) {s' : Store}
    {ops : List Operation}
    (given : ∀ op ∈ ops, ∀ id ∈ op.given, p id) (run : Operation.runAll s ops = .ok s') :
    s'.ReachedGiving p := by
  induction ops generalizing s with
  | nil =>
      cases run
      exact h
  | cons op ops ih =>
      obtain ⟨t, ht, run⟩ := bind_eq_ok.1 run
      exact ih (h.step op (given op List.mem_cons_self) ht)
        (fun op hop => given op (List.mem_cons_of_mem _ hop)) run

/-- The ids of uncollected collections were given out. -/
theorem ReachedGiving.uncollected [Arithmetic] (h : s.ReachedGiving p) :
    ∀ row ∈ s.collections.rows, row.isUncollected = true → p row.id := by
  induction h with
  | empty => exact fun row hrow => absurd hrow List.not_mem_nil
  | step h op given run ih =>
      intro row hrow hkind
      rcases uncollected_of_run h.reachable.lawful run hrow hkind with
        ⟨old, hold, hid, holdKind⟩ | ⟨now, fresh, a, rfl, hid⟩
      · exact hid ▸ ih old hold holdKind
      · exact hid ▸ given (fresh 0) ⟨0, rfl⟩

end Store

end Anthology
