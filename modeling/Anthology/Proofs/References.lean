/-
**References lead to collections.**

A slot may go on referring to a work that was deleted, but never to a collection that does not
exist: a reference comes in only when the collection is there, and a collection goes only after the
slots that refer to it.  Nothing in the schema sees to that, so it is shown of the writes.  It is
what makes the ways to follow references agree.  The guard follows all of them, the count follows
those to collections that exist, the recount follows them upwards, and a subtree is read level by
level in portions; all four follow the same references.

Main definitions:

* `Anthology.Store.Resolved` — every collection that a slot refers to exists.

Main results:

* `Anthology.Store.Write.resolved` — no write leaves a reference without its collection;
* `Anthology.Store.Contains.hasCollection` — what contains a collection exists;
* `Anthology.Store.mem_collectionsBelow`, `Anthology.Store.mem_collectionsAbove` — one level of a
  subtree;
* `Anthology.Store.Reachable.references` — **all walks follow the same references**.
-/

import Anthology.Proofs.Operation
import Anthology.Store.Subtree

set_option relaxedAutoImplicit false
set_option autoImplicit false

namespace Anthology

namespace Store

variable {s t : Store} {c d : Id}

/-! ### No reference without its collection -/

/-- Every collection that a slot refers to exists. -/
def Resolved (s : Store) : Prop :=
  ∀ x ∈ s.slots.rows, ∀ d, x.item = .collection d → s.hasCollection d = true

theorem Resolved.empty : Store.empty.Resolved := fun _ hx => absurd hx List.not_mem_nil

/-- Slots may go, and collections may come. -/
theorem Resolved.mono (h : s.Resolved)
    (hslots : ∀ x ∈ t.slots.rows, ∃ y ∈ s.slots.rows, y.item = x.item)
    (hcollections : ∀ c, s.hasCollection c = true → t.hasCollection c = true) : t.Resolved := by
  intro x hx d hd
  obtain ⟨y, hy, hitem⟩ := hslots x hx
  exact hcollections d (h y hy d (hitem.trans hd))

/-- **No write leaves a reference without its collection.** -/
theorem Write.resolved (hw : Write s t) (h : s.Resolved) : t.Resolved := by
  cases hw with
  | @putSlot _ x target guarded put =>
      obtain ⟨-, -, -, slots, hrows, rfl⟩ := putSlot_eq_ok.1 put
      intro y hy d hd
      rcases List.mem_append.1 (hrows ▸ hy) with hy | hy
      · exact h y hy d hd
      · cases List.mem_singleton.1 hy
        exact (requireTarget_eq_ok.1 target).1 d hd
  | @placeSlot x f hf found owned numbered target guarded =>
      intro y hy d hd
      rcases mem_editSlot.1 hy with ⟨hy, -⟩ | ⟨z, hz, rfl⟩
      · exact h y hy d hd
      · obtain ⟨hz, hid⟩ := slot?_eq_some.1 hz
        cases Table.eq_of_key_eq hz found hid
        rcases target with hitem | target
        · exact h _ found d (hitem.symm.trans hd)
        · exact (requireTarget_eq_ok.1 target).1 d hd
  | relabel f hf owner item numbered =>
      refine h.mono (fun x hx => ?_) fun _ hc => hc
      obtain ⟨y, hy, rfl⟩ := List.mem_map.1 hx
      exact ⟨y, hy, (item y).symm⟩
  | dropSlots p => exact h.mono (fun x hx => ⟨x, (List.mem_filter.1 hx).1, rfl⟩) fun _ hc => hc
  | putCollection put =>
      obtain ⟨-, -, collections, hrows, rfl⟩ := putCollection_eq_ok.1 put
      exact h.mono (fun x hx => ⟨x, hx, rfl⟩) fun _ => Table.has_of_append hrows
  | editCollections f hf kind counted =>
      exact h.mono (fun x hx => ⟨x, hx, rfl⟩) fun c hc =>
        (Table.has_update s.collections f hf c).trans hc
  | @dropCollection id alone =>
      -- the slots that referred to the collection have gone before it
      intro x hx d hd
      obtain ⟨hx, -⟩ := List.mem_filter.1 hx
      obtain ⟨row, hrow, hid⟩ := hasCollection_iff.1 (h x hx d hd)
      refine hasCollection_iff.2 ⟨row, List.mem_filter.2 ⟨hrow, bne_iff_ne.2 fun hgone => ?_⟩, hid⟩
      rw [← hid, hgone] at hd
      exact alone x hx hd
  | putManifestation put =>
      obtain ⟨-, -, _, -, rfl⟩ := putManifestation_eq_ok.1 put
      exact h
  | putAuthority put =>
      obtain ⟨-, -, -, _, -, rfl⟩ := putAuthority_eq_ok.1 put
      exact h
  | putInvolvement put =>
      rcases putInvolvement_eq_ok put with rfl | ⟨-, -, _, -, rfl⟩ <;> exact h
  | setLink uncollected set =>
      rcases setLink_eq_ok set with ⟨-, rfl⟩ | ⟨-, -, rfl⟩ <;> exact h
  | editManifestation | dropManifestation | editAuthority | dropAuthority | dropInvolvements =>
      exact h

theorem Reachable.resolved [Arithmetic] (h : s.Reachable) : s.Resolved :=
  h.of_write .empty fun _ hw => hw.resolved

/-- What contains a collection that exists exists too, because it owns a slot. -/
theorem Contains.hasCollection (howned : s.Owned) (h : s.Contains c d)
    (hd : s.hasCollection d = true) : s.hasCollection c = true := by
  cases h with
  | refl => exact hd
  | step hchild _ =>
      obtain ⟨x, hx, rfl, -⟩ := mem_childrenOf.1 hchild
      exact howned x hx

/-! ### The count follows every reference -/

theorem Resolved.hasCollection_of_mem (h : s.Resolved) (hd : d ∈ s.childrenOf c) :
    s.hasCollection d = true := by
  obtain ⟨x, hx, -, hitem⟩ := mem_childrenOf.1 hd
  exact h x hx d hitem

theorem Resolved.subCollections_eq (h : s.Resolved) (c : Id) :
    s.subCollections c = s.childrenOf c :=
  List.filter_eq_self.2 fun _ hd => h.hasCollection_of_mem hd

/-! ### One level of a subtree -/

/-- Cutting a list into portions loses nothing. -/
theorem flatten_portionsWithin {α : Type} (n : ℕ) {fuel : ℕ} {xs : List α}
    (hfuel : xs.length ≤ fuel) : (portionsWithin n fuel xs).flatten = xs := by
  induction fuel generalizing xs with
  | zero =>
      rw [List.length_eq_zero_iff.1 (Nat.le_zero.1 hfuel)]
      rfl
  | succ fuel ih =>
      cases xs with
      | nil => rfl
      | cons x xs =>
          have hrest : ((x :: xs).drop (n + 1)).length ≤ fuel := by
            simp only [List.length_drop, List.length_cons] at hfuel ⊢
            omega
          show (_ :: portionsWithin n fuel _).flatten = _
          rw [List.flatten_cons, ih hrest, List.take_append_drop]

theorem exists_mem_portions {α : Type} {xs : List α} {a : α} :
    (∃ portion ∈ portions xs, a ∈ portion) ↔ a ∈ xs := by
  rw [← List.mem_flatten, portions, flatten_portionsWithin _ (Nat.le_refl _)]

/-- What the slots of a level refer to, empty slots apart. -/
theorem mem_refsBelow {level : List Id} {r : ItemRef} :
    r ∈ s.refsBelow level ↔
      r.isEmpty = false ∧ ∃ c ∈ level, ∃ x ∈ s.slots.rows, x.owner = c ∧ x.item = r := by
  simp only [refsBelow, List.mem_flatMap, List.mem_map, List.mem_mergeSort, List.mem_filter,
    Bool.and_eq_true, Bool.not_eq_true', List.contains_iff_mem]
  constructor
  · rintro ⟨portion, hportion, x, ⟨hx, howner, hsome⟩, rfl⟩
    exact ⟨hsome, x.owner, exists_mem_portions.1 ⟨portion, hportion, howner⟩, x, hx, rfl, rfl⟩
  · rintro ⟨hsome, _, hlevel, x, hx, rfl, rfl⟩
    obtain ⟨portion, hportion, howner⟩ := exists_mem_portions.2 hlevel
    exact ⟨portion, hportion, x, ⟨hx, howner, hsome⟩, rfl⟩

/-- The slots of a level refer to the collections that one of the level refers to. -/
theorem mem_collectionsBelow {level : List Id} :
    d ∈ s.collectionsBelow level ↔ ∃ c ∈ level, s.Refers c d := by
  simp only [collectionsBelow, List.mem_filterMap, ItemRef.collection?_eq_some, mem_refsBelow,
    exists_eq_right]
  exact and_iff_right rfl

/-- The level above one holds the collections that refer to one of it. -/
theorem mem_collectionsAbove {level : List Id} :
    c ∈ s.collectionsAbove level ↔ ∃ d ∈ level, s.Refers c d := by
  simp only [collectionsAbove, List.mem_flatMap, mem_distinct, List.mem_map, List.mem_filter,
    Option.any_eq_true, ItemRef.collection?_eq_some, List.contains_iff_mem]
  constructor
  · rintro ⟨portion, hportion, x, ⟨hx, d, hitem, hd⟩, howner⟩
    exact ⟨d, exists_mem_portions.1 ⟨portion, hportion, hd⟩, x, hx, howner, hitem⟩
  · rintro ⟨d, hlevel, x, hx, howner, hitem⟩
    obtain ⟨portion, hportion, hd⟩ := exists_mem_portions.2 hlevel
    exact ⟨portion, hportion, x, ⟨hx, d, hitem, hd⟩, howner⟩

/-- A level is read without passing over a reference. -/
theorem Resolved.filter_collectionsBelow (h : s.Resolved) (level : List Id) :
    (s.collectionsBelow level).filter s.hasCollection = s.collectionsBelow level := by
  refine List.filter_eq_self.2 fun d hd => ?_
  obtain ⟨c, -, hrefers⟩ := mem_collectionsBelow.1 hd
  exact h.hasCollection_of_mem (refers_iff.1 hrefers)

theorem Owned.filter_collectionsAbove (h : s.Owned) (level : List Id) :
    (s.collectionsAbove level).filter s.hasCollection = s.collectionsAbove level := by
  refine List.filter_eq_self.2 fun c hc => ?_
  obtain ⟨d, -, x, hx, rfl, -⟩ := mem_collectionsAbove.1 hc
  exact h x hx

/-! ### The references as a whole -/

/-- **All walks follow the same references.**  Every slot belongs to a collection that exists, has a
positive number and refers to no collection that is missing.  So what the guard follows downwards,
what the count follows where it exists, what the recount follows upwards and what a subtree is read
along in both directions is one relation. -/
theorem Reachable.references [Arithmetic] (h : s.Reachable) :
    (∀ x ∈ s.slots.rows, s.hasCollection x.owner = true ∧ 0 < x.seqno ∧
      ∀ d, x.item = .collection d → s.hasCollection d = true) ∧
    (∀ c, s.subCollections c = s.childrenOf c) ∧
    (∀ c d, (d ∈ s.childrenOf c ↔ s.Refers c d) ∧ (c ∈ s.parentsOf d ↔ s.Refers c d)) ∧
    ∀ level, (∀ d, d ∈ (s.collectionsBelow level).filter s.hasCollection ↔
        ∃ c ∈ level, s.Refers c d) ∧
      ∀ c, c ∈ (s.collectionsAbove level).filter s.hasCollection ↔ ∃ d ∈ level, s.Refers c d := by
  have hl := h.lawful
  have hr := h.resolved
  refine ⟨fun x hx => ⟨hl.owner x hx, hl.seqno x hx, hr x hx⟩, hr.subCollections_eq,
    fun c d => ⟨refers_iff.symm, mem_childrenOf_iff_mem_parentsOf.symm.trans refers_iff.symm⟩,
    fun level => ⟨fun d => ?_, fun c => ?_⟩⟩
  · rw [hr.filter_collectionsBelow]
    exact mem_collectionsBelow
  · rw [hl.owner.filter_collectionsAbove]
    exact mem_collectionsAbove

/-- A slot outlives the work that it refers to, and the walks agree all the same. -/
theorem references_dangling_work : ∃ s,
    Operation.runAll .empty [
      .createCollection (.create "series" 0 "Series" .series),
      .createCollection (.create "volume" 0 "Volume" .volume),
      .createManifestation (.create "work" 0 "Work" Manifestation.published),
      .addItem 0 "upper" "series" (.collection "volume") .unset,
      .addItem 0 "lower" "volume" (.manifestation "work") .unset,
      .deleteManifestation 0 "work"] = .ok s ∧
    (∃ x ∈ s.slots.rows, x.item = .manifestation "work") ∧ s.hasManifestation "work" = false ∧
      s.subCollections "series" = s.childrenOf "series" ∧ "volume" ∈ s.childrenOf "series" := by
  obtain ⟨s, hrun, hslot, hwork, hchild⟩ : ∃ s, Operation.runAll .empty [
      .createCollection (.create "series" 0 "Series" .series),
      .createCollection (.create "volume" 0 "Volume" .volume),
      .createManifestation (.create "work" 0 "Work" Manifestation.published),
      .addItem 0 "upper" "series" (.collection "volume") .unset,
      .addItem 0 "lower" "volume" (.manifestation "work") .unset,
      .deleteManifestation 0 "work"] = .ok s ∧
      (∃ x ∈ s.slots.rows, x.item = .manifestation "work") ∧ s.hasManifestation "work" = false ∧
        "volume" ∈ s.childrenOf "series" := exists_eq_ok_of_any (by decide +kernel)
  exact ⟨s, hrun, hslot, hwork, (Reachable.references (.runAll .empty hrun)).2.1 "series", hchild⟩

end Store

end Anthology
