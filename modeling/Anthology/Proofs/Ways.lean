/-
**Counting is counting the ways down.**

The number that the store computes for a collection is defined by recursion along the containment,
with a bound on the depth.  Here it is shown to be what it is meant to be: the number of ways that
lead from the collection down to a slot with a work that exists.  A way is the list of the slots
along it, so a work in a collection that is reached along two ways is counted twice.

Main definitions:

* `Anthology.Store.Way`, `Anthology.Store.ways` — the ways down from a collection;
* `Anthology.Store.SameHoldings` — a collection holds the same in two stores;
* `Anthology.Store.waysWithin` — the ways down of a bounded length, listed.

Main results:

* `Anthology.Store.Way.length_le` — without cycles a way passes each collection at most once;
* `Anthology.Store.finite_ways`, `Anthology.Store.ncard_ways` — **the computed number is the number
  of ways down**;
* `Anthology.Store.ways_congr` — what the ways down from a collection depend on.
-/

import Anthology.Proofs.Order
import Anthology.Proofs.Tally
import Mathlib.Data.List.Perm.Subperm
import Mathlib.Data.Set.Card

set_option relaxedAutoImplicit false
set_option autoImplicit false

namespace Anthology

namespace Store

variable {s t : Store} {c d i : Id} {w : List Id}

/-! ### Ways down -/

/-- The slot `i` of the collection `c` refers to a work that exists. -/
def HoldsWork (s : Store) (c i : Id) : Prop :=
  ∃ x ∈ s.slots.rows, x.id = i ∧ x.owner = c ∧
    ∃ m, x.item = .manifestation m ∧ s.hasManifestation m = true

/-- The slot `i` of the collection `c` refers to the collection `d`. -/
def HoldsCollection (s : Store) (c i d : Id) : Prop :=
  ∃ x ∈ s.slots.rows, x.id = i ∧ x.owner = c ∧ x.item = .collection d

/-- A way down from a collection: the slots along it, of which the last refers to a work that
exists and every other one to the collection of the next. -/
inductive Way (s : Store) : Id → List Id → Prop
  | here {c i : Id} (holds : s.HoldsWork c i) : Way s c [i]
  | through {c i d : Id} {w : List Id} (holds : s.HoldsCollection c i d) (rest : Way s d w) :
      Way s c (i :: w)

/-- The ways down from a collection. -/
def ways (s : Store) (c : Id) : Set (List Id) := {w | s.Way c w}

theorem HoldsCollection.child (h : s.HoldsCollection c i d) : d ∈ s.childrenOf c := by
  obtain ⟨x, hx, -, hc, hd⟩ := h
  exact mem_childrenOf.2 ⟨x, hx, hc, hd⟩

/-- A collection that something leads down from exists. -/
theorem Way.hasCollection (howned : s.Owned) (h : s.Way c w) : s.hasCollection c = true := by
  cases h with
  | here holds =>
      obtain ⟨x, hx, -, rfl, -⟩ := holds
      exact howned x hx
  | through holds _ =>
      obtain ⟨x, hx, -, rfl, -⟩ := holds
      exact howned x hx

/-- The collections along a way are all there, and without cycles no two of them agree. -/
theorem Way.exists_owners (howned : s.Owned) (ha : s.Acyclic) (h : s.Way c w) :
    ∃ owners : List Id, owners.length = w.length ∧ owners.Nodup ∧
      ∀ o ∈ owners, s.Contains c o ∧ s.hasCollection o = true := by
  have hhas := h.hasCollection howned
  induction h with
  | @here c i holds =>
      refine ⟨[c], rfl, List.nodup_singleton c, fun o ho => ?_⟩
      rw [List.mem_singleton.1 ho]
      exact ⟨.refl c, hhas⟩
  | @through c i d w holds rest ih =>
      obtain ⟨owners, hlength, hnodup, howners⟩ := ih (rest.hasCollection howned)
      refine ⟨c :: owners, by simp [hlength], List.nodup_cons.2 ⟨fun hc => ?_, hnodup⟩, ?_⟩
      -- a collection further down that is `c` again would close a cycle
      · exact ha c d holds.child (howners c hc).1
      · intro o ho
        rcases List.mem_cons.1 ho with rfl | ho
        · exact ⟨.refl o, hhas⟩
        · exact ⟨.step holds.child (howners o ho).1, (howners o ho).2⟩

/-- **Without cycles a way passes each collection at most once.** -/
theorem Way.length_le (howned : s.Owned) (ha : s.Acyclic) (h : s.Way c w) :
    w.length ≤ s.collections.size := by
  obtain ⟨owners, hlength, hnodup, howners⟩ := h.exists_owners howned ha
  have hsub : owners ⊆ s.collections.rows.map Collection.id := by
    intro o ho
    obtain ⟨row, hrow, rfl⟩ := hasCollection_iff.1 (howners o ho).2
    exact List.mem_map_of_mem hrow
  rw [← hlength, Table.size, ← List.length_map (f := Collection.id)]
  exact (List.subperm_of_subset hnodup hsub).length_le

/-! ### The ways down, listed -/

/-- The ways down that begin with a slot, where `below` lists those from a collection. -/
def waysThrough (s : Store) (below : Id → List (List Id)) (x : Slot) : List (List Id) :=
  match x.item with
  | .empty => []
  | .manifestation m => if s.hasManifestation m then [[x.id]] else []
  | .collection d => (below d).map (x.id :: ·)

/-- The ways down from a collection along at most `depth` slots. -/
def waysWithin (s : Store) : ℕ → Id → List (List Id)
  | 0, _ => []
  | depth + 1, c => (s.slotsOf c).flatMap (s.waysThrough (s.waysWithin depth))

theorem mem_waysThrough {below : Id → List (List Id)} {x : Slot} :
    w ∈ s.waysThrough below x ↔
      (∃ m, x.item = .manifestation m ∧ s.hasManifestation m = true ∧ w = [x.id]) ∨
        ∃ d v, x.item = .collection d ∧ v ∈ below d ∧ w = x.id :: v := by
  unfold waysThrough
  split
  · rename_i h
    simp [h]
  · rename_i m h
    by_cases hm : s.hasManifestation m = true <;> simp [h, hm]
  · rename_i d h
    simp only [h, List.mem_map, reduceCtorEq, false_and, exists_false, false_or,
      ItemRef.collection.injEq]
    constructor
    · rintro ⟨v, hv, rfl⟩
      exact ⟨d, v, rfl, hv, rfl⟩
    · rintro ⟨_, v, rfl, hv, rfl⟩
      exact ⟨v, hv, rfl⟩

theorem mem_waysWithin {depth : ℕ} :
    w ∈ s.waysWithin depth c ↔ s.Way c w ∧ w.length ≤ depth := by
  induction depth generalizing c w with
  | zero =>
      refine ⟨fun h => absurd h List.not_mem_nil, fun ⟨h, hlength⟩ => ?_⟩
      cases h <;> simp at hlength
  | succ depth ih =>
      simp only [waysWithin, List.mem_flatMap, mem_slotsOf, mem_waysThrough]
      constructor
      · rintro ⟨x, ⟨hx, rfl⟩, ⟨m, hitem, hm, rfl⟩ | ⟨d, v, hitem, hv, rfl⟩⟩
        · exact ⟨.here ⟨x, hx, rfl, rfl, m, hitem, hm⟩, by simp⟩
        · obtain ⟨hway, hlength⟩ := ih.1 hv
          exact ⟨.through ⟨x, hx, rfl, rfl, hitem⟩ hway, by simpa using hlength⟩
      · rintro ⟨hway, hlength⟩
        cases hway with
        | here holds =>
            obtain ⟨x, hx, rfl, hc, m, hitem, hm⟩ := holds
            exact ⟨x, ⟨hx, hc⟩, .inl ⟨m, hitem, hm, rfl⟩⟩
        | through holds rest =>
            obtain ⟨x, hx, rfl, hc, hitem⟩ := holds
            exact ⟨x, ⟨hx, hc⟩, .inr ⟨_, _, hitem, ih.2 ⟨rest, by simpa using hlength⟩, rfl⟩⟩

/-- Ways that begin with different slots differ. -/
theorem nodup_waysWithin (s : Store) (depth : ℕ) (c : Id) : (s.waysWithin depth c).Nodup := by
  induction depth generalizing c with
  | zero => exact List.nodup_nil
  | succ depth ih =>
      -- the first slot of a way tells the ways through different slots apart
      have hhead : ∀ {x : Slot} {w : List Id}, w ∈ s.waysThrough (s.waysWithin depth) x →
          w.head? = some x.id := by
        intro x w hw
        rcases mem_waysThrough.1 hw with ⟨m, -, -, rfl⟩ | ⟨d, v, -, -, rfl⟩ <;> rfl
      rw [waysWithin, List.nodup_flatMap]
      refine ⟨fun x _ => ?_, (List.pairwise_map.1 (s.nodup_slotsOf c)).imp fun hne => ?_⟩
      · unfold waysThrough
        split
        · exact List.nodup_nil
        · split
          · exact List.nodup_singleton _
          · exact List.nodup_nil
        · exact (ih _).map fun v v' h => (List.cons.inj h).2
      · intro w hw hw'
        exact hne (Option.some.inj ((hhead hw).symm.trans (hhead hw')))

/-- The ways through a slot are as many as it is worth, where `number` counts those that go on
below. -/
theorem length_waysThrough {below : Id → List (List Id)} {number : Id → ℕ}
    (hbelow : ∀ d, (below d).length = if s.hasCollection d then number d else 0) (x : Slot) :
    (s.waysThrough below x).length = s.worth number x.item := by
  cases hitem : x.item with
  | empty => simp [waysThrough, worth, hitem]
  | manifestation m =>
      by_cases hm : s.hasManifestation m = true <;> simp [waysThrough, worth, hitem, hm]
  | collection d => simp [waysThrough, worth, hitem, hbelow]

/-- The store computes the number of the listed ways.  It passes over collections that do not
exist, and from those no way leads down. -/
theorem length_waysWithin (howned : s.Owned) (depth : ℕ) (c : Id) :
    (s.waysWithin depth c).length = s.countWithin depth c := by
  induction depth generalizing c with
  | zero => rfl
  | succ depth ih =>
      have hbelow : ∀ d, (s.waysWithin depth d).length =
          if s.hasCollection d then s.countWithin depth d else 0 := by
        intro d
        split
        · exact ih d
        · rename_i hd
          refine List.length_eq_zero_iff.2 (List.eq_nil_iff_forall_not_mem.2 fun w hw => hd ?_)
          exact (mem_waysWithin.1 hw).1.hasCollection howned
      rw [waysWithin, List.length_flatMap, funext (length_waysThrough hbelow), sum_worth,
        countWithin]
      rfl

/-! ### The number of ways down -/

theorem ways_eq (howned : s.Owned) (ha : s.Acyclic) (c : Id) :
    s.ways c = (s.waysWithin (s.collections.size + 1) c).toFinset := by
  ext w
  rw [List.coe_toFinset, Set.mem_ofPred_eq, mem_waysWithin]
  exact ⟨fun h => ⟨h, Nat.le_succ_of_le (Way.length_le howned ha h)⟩, fun h => h.1⟩

theorem finite_ways (howned : s.Owned) (ha : s.Acyclic) (c : Id) : (s.ways c).Finite := by
  rw [ways_eq howned ha]
  exact Finset.finite_toSet _

/-- **The number that the store computes is the number of ways down.** -/
theorem ncard_ways (howned : s.Owned) (ha : s.Acyclic) (c : Id) :
    (s.ways c).ncard = s.countBelow c := by
  rw [ways_eq howned ha, Set.ncard_coe_finset, List.toFinset_card_of_nodup (s.nodup_waysWithin _ c),
    length_waysWithin howned, ha.countBelow_eq_within]

/-! ### What the ways down depend on -/

/-- The collection `c` holds the same in both stores. -/
def SameHoldings (s t : Store) (c : Id) : Prop :=
  (∀ i, t.HoldsWork c i ↔ s.HoldsWork c i) ∧
    ∀ i d, t.HoldsCollection c i d ↔ s.HoldsCollection c i d

theorem SameHoldings.trans {u : Store} (h : s.SameHoldings t c) (h' : t.SameHoldings u c) :
    s.SameHoldings u c :=
  ⟨fun i => (h'.1 i).trans (h.1 i), fun i d => (h'.2 i d).trans (h.2 i d)⟩

/-- Where more is held there are more ways down. -/
theorem Way.mono (hwork : ∀ c i, s.HoldsWork c i → t.HoldsWork c i)
    (hcollection : ∀ c i d, s.HoldsCollection c i d → t.HoldsCollection c i d) (h : s.Way c w) :
    t.Way c w := by
  induction h with
  | here holds => exact .here (hwork _ _ holds)
  | through holds _ ih => exact .through (hcollection _ _ _ holds) ih

/-- The ways down from a collection depend on what is held by the collections below it. -/
theorem ways_congr (h : ∀ d, t.Contains c d → s.SameHoldings t d) : t.ways c = s.ways c := by
  ext w
  constructor
  · intro hw
    induction hw with
    | @here c i holds => exact .here (((h c (.refl c)).1 i).1 holds)
    | @through c i d w holds rest ih =>
        refine .through (((h c (.refl c)).2 i d).1 holds) (ih fun e he => ?_)
        exact h e (.step holds.child he)
  · intro hw
    induction hw with
    | @here c i holds => exact .here (((h c (.refl c)).1 i).2 holds)
    | @through c i d w holds rest ih =>
        have hbelow := ((h c (.refl c)).2 i d).2 holds
        exact .through hbelow (ih fun e he => h e (.step hbelow.child he))

end Store

end Anthology
