/-
**The cached numbers stay right.**

An operation that writes slots changes what some collections hold, and it counts anew from these
collections upwards.  Whether that is enough depends on two things only: outside of the collections
that were touched everything is held as before, and every collection above one that was touched is
counted.  The first is shown for each operation; the second is what the walk upwards is for, taken
in the store after the slots were written, so that references that went are not missed and new ones
are followed.

Main definitions:

* `Anthology.Store.Counted` — every cached number is the number of ways down;
* `Anthology.Store.Touches` — what a sequence of writes changed of what collections hold.

Main results:

* `Anthology.Store.Counted.recount` — a recount above what was touched makes all numbers right;
* `Anthology.Store.Counted.run` — **every operation that brings in no record keeps them right**;
* `Anthology.Store.putCollection_counted_iff`, `Anthology.Store.putManifestation_counted_iff` —
  when a record that is brought in does.
-/

import Anthology.Proofs.Operation
import Anthology.Proofs.Ways

set_option relaxedAutoImplicit false
set_option autoImplicit false

namespace Anthology

namespace Store

variable {s s' t u : Store} {now : Time} {c id : Id} {T T' : Set Id} {cs : List Id}

/-- Every cached number is the number of ways down to a work that exists. -/
def Counted (s : Store) : Prop :=
  ∀ row ∈ s.collections.rows, (s.ways row.id).Finite ∧ row.count = (s.ways row.id).ncard

/-- The ways down and the recursion along the containment make the same numbers right. -/
theorem counted_iff_cached (howned : s.Owned) (ha : s.Acyclic) :
    s.Counted ↔ s.Cached s.countBelow := by
  refine forall₂_congr fun row _ => ?_
  rw [ncard_ways howned ha, and_iff_right (finite_ways howned ha row.id)]

theorem Counted.empty : Store.empty.Counted := fun _ h => absurd h List.not_mem_nil

/-! ### What was touched -/

/-- Outside of `T` the collections of `t` hold what they held in `s`, and their rows carry the
numbers that they carried there. -/
structure Touches (T : Set Id) (s t : Store) : Prop where
  holdings : ∀ c ∉ T, s.SameHoldings t c
  numbers : ∀ row ∈ t.collections.rows, ∃ old ∈ s.collections.rows,
    old.id = row.id ∧ old.count = row.count

theorem Touches.trans (h : Touches T s t) (h' : Touches T t u) : Touches T s u where
  holdings c hc := (h.holdings c hc).trans (h'.holdings c hc)
  numbers row hrow := by
    obtain ⟨mid, hmid, hid, hcount⟩ := h'.numbers row hrow
    obtain ⟨old, hold, hid', hcount'⟩ := h.numbers mid hmid
    exact ⟨old, hold, hid'.trans hid, hcount'.trans hcount⟩

/-- Where nothing was touched nothing has to be counted. -/
theorem Counted.of_touches (hc : s.Counted) (ht : Touches ∅ s t) : t.Counted := by
  intro row hrow
  obtain ⟨old, hold, hid, hcount⟩ := ht.numbers row hrow
  have hways : t.ways row.id = s.ways row.id :=
    ways_congr fun d _ => ht.holdings d (Set.notMem_empty d)
  rw [hways, ← hid, ← hcount]
  exact hc old hold

/-- A recount changes no way down. -/
@[simp] theorem ways_recount : (t.recount now cs).ways c = t.ways c :=
  ways_congr fun _ _ => ⟨fun _ => .rfl, fun _ _ => .rfl⟩

/-- **A recount above what was touched makes all numbers right.**  Those that are not counted are
right because nothing changed below them. -/
theorem Counted.recount (howned : (t.recount now cs).Owned) (ha : (t.recount now cs).Acyclic)
    (hc : s.Counted) (ht : Touches T s t)
    (hcs : ∀ d ∈ T, ∀ c, t.hasCollection c = true → t.Contains c d → c ∈ cs) :
    (t.recount now cs).Counted := by
  intro row' hrow'
  obtain ⟨row, hrow, rfl⟩ := List.mem_map.1 hrow'
  rw [recountedIn_id]
  refine ⟨finite_ways howned ha row.id, ?_⟩
  unfold recountedIn
  split
  · rw [recounted_count, ncard_ways howned ha, recount_countBelow]
  · -- whatever is below a row that is not listed was not touched
    rename_i hlisted
    have hrest : t.ways row.id = s.ways row.id := by
      refine ways_congr fun d hd => ht.holdings d fun hdT => hlisted ?_
      exact hcs d hdT row.id (hasCollection_iff.2 ⟨row, hrow, rfl⟩) hd
    obtain ⟨old, hold, hid, hcount⟩ := ht.numbers row hrow
    rw [ways_recount, hrest, ← hid, ← hcount]
    exact (hc old hold).2

/-- The walk upwards from the one collection that was touched, if it was. -/
theorem Counted.recount_upward {touched : Bool}
    (howned : (t.recount now (if touched then t.upward c else [])).Owned)
    (ha : (t.recount now (if touched then t.upward c else [])).Acyclic) (hc : s.Counted)
    (ht : Touches {d | touched = true ∧ d = c} s t) :
    (t.recount now (if touched then t.upward c else [])).Counted := by
  refine .recount howned ha hc ht ?_
  rintro d ⟨rfl, rfl⟩ e - he
  exact mem_upward.2 he

/-! ### What the writes touch -/

/-- Slots that refer to nothing hold nothing, so the others decide. -/
theorem Touches.of_slots (hworks : t.manifestations = s.manifestations)
    (hst : ∀ x ∈ s.slots.rows, x.item ≠ .empty → x.owner ∉ T →
      ∃ y ∈ t.slots.rows, y.id = x.id ∧ y.owner = x.owner ∧ y.item = x.item)
    (hts : ∀ y ∈ t.slots.rows, y.item ≠ .empty → y.owner ∉ T →
      ∃ x ∈ s.slots.rows, x.id = y.id ∧ x.owner = y.owner ∧ x.item = y.item)
    (hnumbers : ∀ row ∈ t.collections.rows, ∃ old ∈ s.collections.rows,
      old.id = row.id ∧ old.count = row.count) : Touches T s t where
  holdings c hc := by
    have hm : ∀ m, t.hasManifestation m = s.hasManifestation m := fun m => by
      rw [hasManifestation, hworks]
      rfl
    refine ⟨fun i => ⟨?_, ?_⟩, fun i d => ⟨?_, ?_⟩⟩
    · rintro ⟨y, hy, hi, rfl, m, hitem, hmem⟩
      obtain ⟨x, hx, hid, howner, hxy⟩ := hts y hy (by simp [hitem]) hc
      exact ⟨x, hx, hid.trans hi, howner, m, hxy.trans hitem, hm m ▸ hmem⟩
    · rintro ⟨x, hx, hi, rfl, m, hitem, hmem⟩
      obtain ⟨y, hy, hid, howner, hyx⟩ := hst x hx (by simp [hitem]) hc
      exact ⟨y, hy, hid.trans hi, howner, m, hyx.trans hitem, (hm m).trans hmem⟩
    · rintro ⟨y, hy, hi, rfl, hitem⟩
      obtain ⟨x, hx, hid, howner, hxy⟩ := hts y hy (by simp [hitem]) hc
      exact ⟨x, hx, hid.trans hi, howner, hxy.trans hitem⟩
    · rintro ⟨x, hx, hi, rfl, hitem⟩
      obtain ⟨y, hy, hid, howner, hyx⟩ := hst x hx (by simp [hitem]) hc
      exact ⟨y, hy, hid.trans hi, howner, hyx.trans hitem⟩
  numbers := hnumbers

/-- Only rows of authorities and credits were written, or nothing. -/
theorem Touches.of_eq (hworks : t.manifestations = s.manifestations) (hslots : t.slots = s.slots)
    (hcollections : t.collections = s.collections) : Touches T s t :=
  .of_slots hworks (fun x hx _ _ => ⟨x, hslots ▸ hx, rfl, rfl, rfl⟩)
    (fun x hx _ _ => ⟨x, hslots ▸ hx, rfl, rfl, rfl⟩)
    fun row hrow => ⟨row, hcollections ▸ hrow, rfl, rfl⟩

theorem Touches.of_relabelled (h : s.Relabelled t) : Touches T s t := by
  obtain ⟨f, hf, howner, hitem, -, rfl⟩ := h
  refine .of_slots rfl (fun x hx _ _ => ?_) (fun y hy _ _ => ?_) fun row hrow =>
    ⟨row, hrow, rfl, rfl⟩
  · exact ⟨f x, List.mem_map_of_mem hx, hf x, howner x, hitem x⟩
  · obtain ⟨x, hx, rfl⟩ := List.mem_map.1 hy
    exact ⟨x, hx, (hf x).symm, (howner x).symm, (hitem x).symm⟩

/-- New slots touch the collections that they belong to. -/
theorem Touches.append {slots : Table Slot} {xs : List Slot}
    (hrows : slots.rows = s.slots.rows ++ xs)
    (hxs : ∀ x ∈ xs, x.item ≠ .empty → x.owner ∈ T) : Touches T s { s with slots } := by
  refine .of_slots rfl (fun x hx _ _ => ?_) (fun y hy hitem hT => ?_) fun row hrow =>
    ⟨row, hrow, rfl, rfl⟩
  · exact ⟨x, hrows ▸ List.mem_append_left xs hx, rfl, rfl, rfl⟩
  · rcases List.mem_append.1 (hrows ▸ hy) with hy | hy
    · exact ⟨y, hy, rfl, rfl, rfl⟩
    · exact absurd (hxs y hy hitem) hT

/-- One new slot touches its collection, if it refers to something. -/
theorem Touches.append_one {slots : Table Slot} {x : Slot}
    (hrows : slots.rows = s.slots.rows ++ [x]) :
    Touches {d | x.item.affectsCount = true ∧ d = x.owner} s { s with slots } := by
  refine .append hrows fun y hy hitem => ?_
  rw [List.mem_singleton.1 hy] at hitem ⊢
  exact ⟨ItemRef.affectsCount_iff.2 hitem, rfl⟩

/-- Slots for many references touch their collection, if one of them refers to something. -/
theorem Touches.appended {slots : Table Slot} {fresh : ℕ → Id} {seqno : Int} {k : ℕ}
    {rs : List ItemRef} (hrows : slots.rows = s.slots.rows ++ appended now fresh c seqno k rs) :
    Touches {d | rs.any ItemRef.affectsCount = true ∧ d = c} s { s with slots } := by
  refine .append hrows fun x hx hitem => ?_
  refine ⟨List.any_eq_true.2 ⟨x.item, ?_, ItemRef.affectsCount_iff.2 hitem⟩, appended_owner hx⟩
  have hmem := List.mem_map_of_mem (f := Slot.item) hx
  rwa [appended_items] at hmem

/-- Slots that go touch the collections that they belonged to. -/
theorem Touches.dropSlots {p : Slot → Bool}
    (hp : ∀ x ∈ s.slots.rows, p x = true → x.item ≠ .empty → x.owner ∈ T) :
    Touches T s (s.dropSlots p) := by
  refine .of_slots rfl (fun x hx hitem hT => ?_) (fun y hy _ _ => ?_) fun row hrow =>
    ⟨row, hrow, rfl, rfl⟩
  · refine ⟨x, List.mem_filter.2 ⟨hx, ?_⟩, rfl, rfl, rfl⟩
    cases hpx : p x with
    | false => rfl
    | true => exact absurd (hp x hx hpx hitem) hT
  · exact ⟨y, (List.mem_filter.1 hy).1, rfl, rfl, rfl⟩

/-- A slot that is changed touches the collections that it belonged to and belongs to. -/
theorem Touches.editSlot {f : Slot → Slot} {hf : ∀ x, (f x).id = x.id} {old : Slot}
    (hold : s.slot? id = some old) (hbefore : old.item ≠ .empty → old.owner ∈ T)
    (hafter : (f old).item ≠ .empty → (f old).owner ∈ T) : Touches T s (s.editSlot id f hf) := by
  obtain ⟨hmem, rfl⟩ := slot?_eq_some.1 hold
  refine .of_slots rfl (fun x hx hitem hT => ?_) (fun y hy hitem hT => ?_) fun row hrow =>
    ⟨row, hrow, rfl, rfl⟩
  · refine ⟨x, mem_editSlot.2 (.inl ⟨hx, fun hid => ?_⟩), rfl, rfl, rfl⟩
    cases Table.eq_of_key_eq hx hmem hid
    exact hT (hbefore hitem)
  · rcases mem_editSlot.1 hy with ⟨hy, -⟩ | ⟨x, hx, rfl⟩
    · exact ⟨y, hy, rfl, rfl, rfl⟩
    · rw [hold] at hx
      cases hx
      exact absurd (hafter hitem) hT

theorem Touches.editSlot_of_eq {f : Slot → Slot} {hf : ∀ x, (f x).id = x.id} {old : Slot}
    (hold : s.slot? id = some old) (howner : (f old).owner = old.owner)
    (hitem : (f old).item = old.item) : Touches T s (s.editSlot id f hf) := by
  obtain ⟨hmem, hid⟩ := slot?_eq_some.1 hold
  refine .of_slots rfl (fun x hx _ _ => ?_) (fun y hy _ _ => ?_) fun row hrow =>
    ⟨row, hrow, rfl, rfl⟩
  · by_cases hx' : x.id = id
    · cases Table.eq_of_key_eq hx hmem (hx'.trans hid.symm)
      exact ⟨f old, mem_editSlot.2 (.inr ⟨old, hold, rfl⟩), hf old, howner, hitem⟩
    · exact ⟨x, mem_editSlot.2 (.inl ⟨hx, hx'⟩), rfl, rfl, rfl⟩
  · rcases mem_editSlot.1 hy with ⟨hy, -⟩ | ⟨x, hx, rfl⟩
    · exact ⟨y, hy, rfl, rfl, rfl⟩
    · rw [hold] at hx
      cases hx
      exact ⟨old, hmem, (hf old).symm, howner.symm, hitem.symm⟩

/-- A collection that goes is touched, and so are those with a slot that referred to it. -/
theorem touches_without (s : Store) (id : Id) :
    Touches {c | c = id ∨ c ∈ s.parentsOf id} s (s.without id) := by
  refine .of_slots rfl (fun x hx _ hT => ?_) (fun y hy _ _ => ?_) fun row hrow =>
    ⟨row, (List.mem_filter.1 hrow).1, rfl, rfl⟩
  · refine ⟨x, List.mem_filter.2 ⟨List.mem_filter.2 ⟨hx, ?_⟩, ?_⟩, rfl, rfl, rfl⟩
    · simp only [Bool.not_eq_true', beq_eq_false_iff_ne]
      exact fun hitem => hT (.inr (mem_holdersOf.2 ⟨x, hx, rfl, hitem⟩))
    · exact bne_iff_ne.2 fun howner => hT (.inl howner)
  · exact ⟨y, (List.mem_filter.1 (List.mem_filter.1 hy).1).1, rfl, rfl, rfl⟩

/-- Nothing that is left contains a collection that went. -/
theorem not_contains_without (h : (s.without id).hasCollection c = true) :
    ¬ (s.without id).Contains c id := by
  intro hcontains
  rcases (contains_iff.1 hcontains).cases_tail with rfl | ⟨d, -, hchild⟩
  · obtain ⟨row, hrow, hid⟩ := hasCollection_iff.1 h
    exact bne_iff_ne.1 (List.mem_filter.1 hrow).2 hid
  · obtain ⟨x, hx, -, hitem⟩ := mem_childrenOf.1 hchild
    have hkept := (List.mem_filter.1 (List.mem_filter.1 hx).1).2
    simp [hitem] at hkept

theorem touches_editManifestation {f : Manifestation → Manifestation} (hf : ∀ m, (f m).id = m.id) :
    Touches T s (s.editManifestation id f hf) := by
  have hhas : ∀ m, (s.editManifestation id f hf).hasManifestation m = s.hasManifestation m :=
    Table.has_modify s.manifestations f hf id
  refine ⟨fun c _ => ⟨fun i => ?_, fun _ _ => .rfl⟩, fun row hrow => ⟨row, hrow, rfl, rfl⟩⟩
  simp only [HoldsWork, hhas]
  exact .rfl

/-- A work that goes touches the collections that held it. -/
theorem touches_dropManifestation (s : Store) (id : Id) :
    Touches {c | c ∈ s.holdersOf (.manifestation id)} s (s.dropManifestation id) where
  holdings c hc := by
    refine ⟨fun i => ⟨?_, ?_⟩, fun i d => .rfl⟩
    · rintro ⟨x, hx, hi, howner, m, hitem, hm⟩
      obtain ⟨row, hrow, hid⟩ := hasManifestation_iff.1 hm
      exact ⟨x, hx, hi, howner, m, hitem,
        hasManifestation_iff.2 ⟨row, (List.mem_filter.1 hrow).1, hid⟩⟩
    · rintro ⟨x, hx, hi, howner, m, hitem, hm⟩
      obtain ⟨row, hrow, hid⟩ := hasManifestation_iff.1 hm
      refine ⟨x, hx, hi, howner, m, hitem, hasManifestation_iff.2 ⟨row, ?_, hid⟩⟩
      refine List.mem_filter.2 ⟨hrow, bne_iff_ne.2 fun h => hc ?_⟩
      rw [hid] at h
      exact mem_holdersOf.2 ⟨x, hx, howner, h ▸ hitem⟩
  numbers row hrow := ⟨row, hrow, rfl, rfl⟩

theorem Touches.editCollection {f : Collection → Collection} {hf : ∀ c, (f c).id = c.id}
    (hcount : ∀ c, (f c).count = c.count) : Touches T s (s.editCollection id f hf) := by
  refine .of_slots rfl (fun x hx _ _ => ⟨x, hx, rfl, rfl, rfl⟩)
    (fun x hx _ _ => ⟨x, hx, rfl, rfl, rfl⟩) fun row hrow => ?_
  obtain ⟨old, hold, rfl⟩ := List.mem_map.1 hrow
  refine ⟨old, hold, ?_, ?_⟩ <;> split
  · exact (hf old).symm
  · rfl
  · exact (hcount old).symm
  · rfl

/-! ### New collections and new works -/

/-- A new collection holds nothing, so its number is right exactly when it is zero. -/
theorem putCollection_counted_iff (howned : s.Owned) {row : Collection}
    (h : s.putCollection row = .ok t) : t.Counted ↔ s.Counted ∧ row.count = 0 := by
  obtain ⟨-, hnew, collections, hrows, rfl⟩ := putCollection_eq_ok.1 h
  have hways : ∀ c, Store.ways { s with collections } c = s.ways c := fun c =>
    ways_congr fun d _ => ⟨fun _ => .rfl, fun _ _ => .rfl⟩
  have hnone : s.ways row.id = ∅ := by
    refine Set.eq_empty_of_forall_notMem fun w hw => ?_
    have hrow := Way.hasCollection howned hw
    rw [hnew] at hrow
    contradiction
  simp only [Counted, hways, hrows, List.forall_mem_append, List.forall_mem_singleton, hnone,
    Set.ncard_empty, Set.finite_empty, true_and, Nat.cast_zero]

/-- A new work counts wherever a slot refers to it already, so the numbers stay right exactly when
no slot does. -/
theorem putManifestation_counted_iff (howned : s.Owned) (hc : s.Counted)
    {m : Manifestation} (h : s.putManifestation m = .ok t) :
    t.Counted ↔ ∀ x ∈ s.slots.rows, x.item ≠ .manifestation m.id := by
  obtain ⟨-, hnew, manifestations, hrows, rfl⟩ := putManifestation_eq_ok.1 h
  have hhas : ∀ id, Store.hasManifestation { s with manifestations } id = true ↔
      s.hasManifestation id = true ∨ id = m.id := by
    intro id
    simp only [hasManifestation_iff, hrows, List.mem_append, List.mem_singleton, or_and_right,
      exists_or, exists_eq_left]
    exact or_congr_right eq_comm
  constructor
  · intro ht x hx hitem
    -- the slot is a way down that was not there before
    obtain ⟨row, hrow, hid⟩ := hasCollection_iff.1 (howned x hx)
    have hsub : s.ways row.id ⊂ Store.ways { s with manifestations } row.id := by
      refine (Set.ssubset_iff_of_subset fun w hw => ?_).2 ⟨[x.id], ?_, fun hway => ?_⟩
      · refine Way.mono (fun c i holds => ?_) (fun c i d => ?_) (hw : s.Way row.id w)
        · obtain ⟨y, hy, hi, howner, n, hy', hn⟩ := holds
          exact ⟨y, hy, hi, howner, n, hy', (hhas n).2 (.inl hn)⟩
        · exact fun holds => holds
      · exact .here ⟨x, hx, rfl, hid.symm, m.id, hitem, (hhas m.id).2 (.inr rfl)⟩
      · cases hway with
        | here holds =>
            obtain ⟨y, hy, hyx, -, n, hy', hn⟩ := holds
            cases Table.eq_of_key_eq hy hx hyx
            cases hitem.symm.trans hy'
            rw [hnew] at hn
            contradiction
        | through _ rest => cases rest
    have hlt := Set.ncard_lt_ncard hsub (ht row hrow).1
    have hold := (hc row hrow).2
    have hcount := (ht row hrow).2
    omega
  · -- no slot refers to the new work, so no slot has come to hold one
    intro hslots
    refine hc.of_touches ⟨fun c _ => ⟨fun i => ?_, fun _ _ => .rfl⟩, fun row hrow =>
      ⟨row, hrow, rfl, rfl⟩⟩
    refine exists_congr fun x => and_congr_right fun hx => and_congr_right fun _ =>
      and_congr_right fun _ => exists_congr fun n => and_congr_right fun hitem => ?_
    refine (hhas n).trans ⟨fun hn => hn.resolve_right fun e => ?_, .inl⟩
    exact hslots x hx (e ▸ hitem)

/-! ### Operations that bring in no record -/

variable (howned : s'.Owned) (hacyclic : s'.Acyclic) (hc : s.Counted)

include howned hacyclic hc

theorem counted_addItem [Arithmetic] {r : ItemRef} {a : SlotAttrs} {x : Slot}
    (h : s.addItem now id c r a = .ok (x, s')) : s'.Counted := by
  obtain ⟨-, -, -, -, rfl, rfl, t, hput, rfl⟩ := addItem_eq_ok h
  obtain ⟨-, -, -, slots, hrows, rfl⟩ := putSlot_eq_ok.1 hput
  exact .recount_upward howned hacyclic hc (.append_one hrows)

theorem counted_appendMany [Arithmetic] {fresh : ℕ → Id} {rs : List ItemRef} {slots : List Slot}
    (h : s.appendMany now fresh c rs = .ok (slots, s')) : s'.Counted := by
  obtain ⟨-, t, happend, rfl⟩ := appendMany_eq_ok h
  obtain ⟨rfl, ⟨table, hrows, rfl⟩, -⟩ := appendRefs_eq_ok happend
  exact .recount_upward howned hacyclic hc (.appended hrows)

theorem counted_retargetItem {r : ItemRef} {x : Slot}
    (h : s.retargetItem now id r = .ok (x, s')) : s'.Counted := by
  obtain ⟨old, t, hold, -, -, -, rfl, rfl⟩ := retargetItem_eq_ok h
  refine .recount_upward howned hacyclic hc (.editSlot hold (fun hitem => ?_) fun hitem => ?_)
  · exact ⟨Bool.or_eq_true_iff.2 (.inl (ItemRef.affectsCount_iff.2 hitem)), rfl⟩
  · exact ⟨Bool.or_eq_true_iff.2 (.inr (ItemRef.affectsCount_iff.2 hitem)), rfl⟩

theorem counted_removeItem {removed : Bool} (h : s.removeItem now id = .ok (removed, s')) :
    s'.Counted := by
  rcases removeItem_eq_ok h with ⟨-, -, rfl⟩ | ⟨old, t, hold, -, rfl, rfl⟩
  · exact hc
  · obtain ⟨hmem, rfl⟩ := slot?_eq_some.1 hold
    refine .recount_upward howned hacyclic hc (.dropSlots fun x hx hid hitem => ?_)
    cases Table.eq_of_key_eq hx hmem (beq_iff_eq.1 hid)
    exact ⟨ItemRef.affectsCount_iff.2 hitem, rfl⟩

/-- A slot that stays in its collection changes no number, and one that leaves changes those above
its old place and its new one. -/
theorem counted_transplant [Arithmetic] {dest : Id} {rank : Int} {x : Slot}
    (h : s.transplant now id dest rank = .ok (x, s')) : s'.Counted := by
  obtain ⟨old, seqno, t, hold, -, -, -, -, rfl, rfl⟩ := transplant_eq_ok h
  have hfound : (s.shiftFrom now dest seqno id).slot? id = some old := by
    obtain ⟨hmem, rfl⟩ := slot?_eq_some.1 hold
    exact slot?_eq_some.2 ⟨List.mem_map.2 ⟨old, hmem, if_neg fun h => h.2.2 rfl⟩, rfl⟩
  by_cases howner : old.owner = dest
  · -- in its own collection the slot is only numbered anew
    subst howner
    refine .recount howned hacyclic hc (T := ∅) (.trans
      (.of_relabelled (shiftFrom_relabelled s _ seqno id)) (.editSlot_of_eq hfound rfl rfl)) ?_
    exact fun d hd => absurd hd (Set.notMem_empty d)
  · refine .recount howned hacyclic hc (T := {d | old.item.affectsCount = true ∧
      (d = old.owner ∨ d = dest)}) (.trans (.of_relabelled (shiftFrom_relabelled s dest seqno id))
        (.editSlot hfound (fun hitem => ?_) fun hitem => ?_)) ?_
    · exact ⟨ItemRef.affectsCount_iff.2 hitem, .inl rfl⟩
    · exact ⟨ItemRef.affectsCount_iff.2 hitem, .inr rfl⟩
    · rintro d ⟨haffected, hd⟩ e - he
      have hmoved : (old.item.affectsCount && old.owner != dest) = true := by
        simp [haffected, howner]
      rw [if_pos hmoved, List.mem_append, mem_upward, mem_upward]
      rcases hd with rfl | rfl
      · exact .inl he
      · exact .inr he

theorem counted_deleteCollection {deleted : Bool}
    (h : s.deleteCollection now id = .ok (deleted, s')) : s'.Counted := by
  rcases deleteCollection_eq_ok h with ⟨-, -, rfl⟩ | ⟨-, -, rfl⟩
  · exact hc
  refine .recount howned hacyclic hc (touches_without s id) ?_
  rintro d (rfl | hd) e hhas he
  -- the collection itself is gone, and nothing that is left leads to it
  · exact absurd he (not_contains_without hhas)
  · exact List.mem_flatMap.2 ⟨d, hd, mem_upward.2 he⟩

theorem counted_deleteManifestation {deleted : Bool}
    (h : s.deleteManifestation now id = .ok (deleted, s')) : s'.Counted := by
  rcases deleteManifestation_eq_ok h with ⟨-, -, rfl⟩ | ⟨-, -, rfl⟩
  · exact hc
  · refine .recount howned hacyclic hc (touches_dropManifestation s id) fun d hd e _ he => ?_
    exact List.mem_flatMap.2 ⟨d, hd, mem_upward.2 he⟩

/-- The new collection holds nothing yet, so only the one that it is put into is touched. -/
theorem counted_place [Arithmetic] (hbefore : s.Owned) {slotId parent : Id} {row : Collection}
    {p : Placed}
    (hrow : row.count = 0) (h : s.place now slotId parent row = .ok (p, s')) : s'.Counted := by
  obtain ⟨t, slots, u, hput, happend, rfl⟩ := place_eq_ok h
  obtain ⟨rfl, ⟨table, hrows, rfl⟩, -⟩ := appendRefs_eq_ok happend
  refine .recount howned hacyclic ((putCollection_counted_iff hbefore hput).2 ⟨hc, hrow⟩)
    (.append (T := {parent}) hrows fun x hx _ => appended_owner hx) ?_
  rintro d rfl e - he
  exact mem_upward.2 he

/-- A refresh touches the collection that it fills, and no other. -/
theorem counted_refresh [Arithmetic] (hbefore : s.Owned) {fresh : ℕ → Id} {a : Id}
    {o : RefreshOutcome}
    (h : s.refresh now fresh a = .ok (o, s')) : s'.Counted := by
  obtain ⟨p, v, slots, w, bucket, hprepare, happend, rfl, -, -⟩ := refresh_eq_ok h
  obtain ⟨row, t, u, hlock, hbucket, hprune⟩ := prepare_eq_ok hprepare
  obtain ⟨rfl, ⟨table, hrows, rfl⟩, -⟩ := appendRefs_eq_ok happend
  -- up to the pruning only rows of authorities are written, and a collection without slots
  have hcu : u.Counted := by
    obtain ⟨-, rfl⟩ := lockAuthority_eq_ok hlock
    have hct : (s.editAuthority a (lockedRow now) fun _ => rfl).Counted :=
      hc.of_touches (.of_eq rfl rfl rfl)
    have hbefore' : (s.editAuthority a (lockedRow now) fun _ => rfl).Owned := hbefore
    rcases bucketOf_eq_ok hbucket with ⟨_, -, -, -, -, rfl⟩ | ⟨-, -, -, x, hput, hlink⟩
    · exact hct
    · refine Counted.of_touches ((putCollection_counted_iff hbefore' hput).2 ⟨hct, rfl⟩) ?_
      exact .of_eq (link_content hlink).1 (link_content hlink).2.1 (link_content hlink).2.2
  have hpruned : Touches {p.collection} u v := by
    rcases hprune with ⟨-, -, rfl⟩ | ⟨-, hprune⟩
    · exact .of_eq rfl rfl rfl
    · cases (Prod.ext_iff.1 hprune).2
      refine .dropSlots fun x _ hlost _ => ?_
      exact beq_iff_eq.1 (Bool.and_eq_true_iff.1 hlost).1
  refine .recount howned hacyclic hcu
    (hpruned.trans (.append hrows fun x hx _ => appended_owner hx)) ?_
  rintro d rfl e - he
  exact mem_upward.2 he

theorem counted_resolve {fate : OrphanFate} (h : s.resolve now c fate = .ok s') : s'.Counted := by
  rcases resolve_eq_ok h with ⟨a, t, hlink, rfl⟩ | ⟨deleted, hdelete⟩
  · refine .recount howned hacyclic hc (T := ∅)
      (.of_eq (link_content hlink).1 (link_content hlink).2.1 (link_content hlink).2.2) ?_
    exact fun d hd => absurd hd (Set.notMem_empty d)
  · exact counted_deleteCollection howned hacyclic hc hdelete

/-- A recount of whatever collections spoils nothing. -/
theorem counted_recount (h : s' = s.recount now cs) : s'.Counted := by
  subst h
  exact .recount howned hacyclic hc (T := ∅) (.of_eq rfl rfl rfl) fun d hd =>
    absurd hd (Set.notMem_empty d)

omit howned hacyclic hc

/-- **Every operation that brings in no record keeps the numbers right**, in every store that meets
the rules of the schema and has no cycles. -/
theorem Counted.run [Arithmetic] (hl : s.Lawful) (ha : s.Acyclic) (hc : s.Counted) {op : Operation}
    (hop : op.bringsRecord = false) (h : op.run s = .ok s') : s'.Counted := by
  have hwrites := writes_run hl h
  have howned := (hwrites.lawful hl).owner
  have hacyclic := hwrites.acyclic ha
  cases op <;> simp only [Operation.run, map_eq_ok, Prod.exists, exists_eq_right] at h
  case createCollection row => cases hop
  case updateCollection now row =>
      obtain ⟨old, -, -, rfl⟩ := updateCollection_eq_ok h
      exact hc.of_touches (.editCollection fun _ => rfl)
  case deleteCollection now id =>
      obtain ⟨_, h⟩ := h
      exact counted_deleteCollection howned hacyclic hc h
  case addItem now id c r a =>
      obtain ⟨x, h⟩ := h
      exact counted_addItem howned hacyclic hc h
  case appendItem now id c r =>
      obtain ⟨x, h⟩ := h
      exact counted_addItem howned hacyclic hc h
  case appendMany now fresh c rs =>
      obtain ⟨slots, h⟩ := h
      exact counted_appendMany howned hacyclic hc h
  case updateItem now id a =>
      obtain ⟨x, h⟩ := h
      exact hc.of_touches (.of_relabelled (updateItem_eq_ok h))
  case retargetItem now id r =>
      obtain ⟨x, h⟩ := h
      exact counted_retargetItem howned hacyclic hc h
  case removeItem now id =>
      obtain ⟨_, h⟩ := h
      exact counted_removeItem howned hacyclic hc h
  case reorder now c id old new =>
      obtain ⟨items, h⟩ := h
      exact hc.of_touches (.of_relabelled (reorder_eq_ok h))
  case moveItem now direction c id =>
      obtain ⟨items, h⟩ := h
      exact hc.of_touches (.of_relabelled (moveItem_eq_ok h))
  case transplant now id dest rank =>
      obtain ⟨x, h⟩ := h
      exact counted_transplant howned hacyclic hc h
  case addPeriodicalIssue now fresh periodical title =>
      obtain ⟨p, h⟩ := h
      exact counted_place howned hacyclic hc hl.owner rfl (addPeriodicalIssue_eq_ok h)
  case createPeriodicalWithIssue now fresh title issueTitle =>
      obtain ⟨p, h⟩ := h
      obtain ⟨t, placed, hput, hplace⟩ := createPeriodicalWithIssue_eq_ok h
      have hct := (putCollection_counted_iff hl.owner hput).2 ⟨hc, rfl⟩
      have hlt := (Write.putCollection hput).lawful hl
      exact counted_place howned hacyclic hct hlt.owner rfl hplace
  case createSubCollection now fresh parent title kind =>
      obtain ⟨p, h⟩ := h
      exact counted_place howned hacyclic hc hl.owner rfl (createSubCollection_eq_ok h).2
  case createManifestation m => cases hop
  case updateManifestation now m =>
      rw [updateManifestation_eq_ok h]
      exact hc.of_touches (touches_editManifestation _)
  case deleteManifestation now id =>
      obtain ⟨_, h⟩ := h
      exact counted_deleteManifestation howned hacyclic hc h
  case createAuthority a =>
      obtain ⟨-, -, -, authorities, -, rfl⟩ := putAuthority_eq_ok.1 h
      exact hc.of_touches (.of_eq rfl rfl rfl)
  case updateAuthority now a =>
      rw [updateAuthority_eq_ok h]
      exact hc.of_touches (.of_eq rfl rfl rfl)
  case deleteAuthority id =>
      cases h
      unfold deleteAuthority
      split
      · exact hc.of_touches (.of_eq rfl rfl rfl)
      · exact hc
  case addInvolvement i =>
      rcases putInvolvement_eq_ok h with rfl | ⟨-, -, involvements, -, rfl⟩
      · exact hc
      · exact hc.of_touches (.of_eq rfl rfl rfl)
  case removeInvolvement a m role =>
      cases h
      unfold removeInvolvement
      split
      · exact hc.of_touches (.of_eq rfl rfl rfl)
      · exact hc
  case refresh now fresh a =>
      obtain ⟨o, h⟩ := h
      exact counted_refresh howned hacyclic hc hl.owner h
  case cleanup now mode =>
      obtain ⟨r, h⟩ := h
      -- the three properties pass from orphan to orphan together
      have hkept : s'.Lawful ∧ s'.Acyclic ∧ s'.Counted := by
        refine cleanup_induction (P := fun t => t.Lawful ∧ t.Acyclic ∧ t.Counted) ?_ ⟨hl, ha, hc⟩ h
        rintro t u c fate ⟨hlt, hat, hct⟩ hkind hresolve
        have hw := writes_resolve hkind hresolve
        exact ⟨hw.lawful hlt, hw.acyclic hat,
          counted_resolve (hw.lawful hlt).owner (hw.acyclic hat) hct hresolve⟩
      exact hkept.2.2
  case recalculate now c =>
      obtain ⟨r, h⟩ := h
      exact counted_recount howned hacyclic hc (recalculate_eq_ok h)
  case recalculateAll now =>
      obtain ⟨summary, drifts, h⟩ := h
      exact counted_recount howned hacyclic hc (recalculateAll_eq_ok h)

theorem refreshed_counted : ∃ s s', Operation.runAll .empty Operation.authored = .ok s ∧
    (Operation.refresh 1 (fun _ => "bucket") "author").run s = .ok s' ∧
      (s'.collection? "bucket").map Collection.count = some 1 ∧ s'.Counted := by
  obtain ⟨s, hs, hnone, hrefresh⟩ : ∃ s, Operation.runAll .empty Operation.authored = .ok s ∧
      s.collections.rows = [] ∧
        ((Operation.refresh 1 (fun _ => "bucket") "author").run s).toOption.any (fun s' =>
          decide ((s'.collection? "bucket").map Collection.count = some 1)) = true :=
    exists_eq_ok_of_any (by decide +kernel)
  obtain ⟨s', hs', hone⟩ := exists_eq_ok_of_any hrefresh
  have hreached : s.Reachable := .runAll .empty hs
  have hcounted : s.Counted := fun row hrow => absurd hrow (hnone ▸ List.not_mem_nil)
  exact ⟨s, s', hs, hs', hone, Counted.run hreached.lawful hreached.acyclic hcounted rfl hs'⟩

/-! ### Records that are brought in -/

/-- **When a record that is brought in keeps the numbers right**: a collection exactly when it comes
with the number zero, because the number is stored as it comes; a work exactly when no slot refers
to its id already, because slots outlive the work that they refer to. -/
theorem creation_counted_iff [Arithmetic] (h : s.Reachable) (hc : s.Counted) :
    (∀ row s', (Operation.createCollection row).run s = .ok s' → (s'.Counted ↔ row.count = 0)) ∧
      ∀ m s', (Operation.createManifestation m).run s = .ok s' →
        (s'.Counted ↔ ∀ x ∈ s.slots.rows, x.item ≠ .manifestation m.id) := by
  refine ⟨fun row s' hrun => ?_, fun m s' hrun => ?_⟩
  · rw [putCollection_counted_iff h.lawful.owner (createCollection_eq_ok.1 hrun).2,
      and_iff_right hc]
  · exact putManifestation_counted_iff h.lawful.owner hc hrun

theorem creation_counted_iff_empty : ∃ s',
    (Operation.createCollection (.create "c" 0 "T" .other)).run .empty = .ok s' ∧ s'.Counted := by
  obtain ⟨s', hrun, -⟩ : ∃ s',
      (Operation.createCollection (.create "c" 0 "T" .other)).run .empty = .ok s' ∧ True :=
    exists_eq_ok_of_any (by decide +kernel)
  exact ⟨s', hrun, ((creation_counted_iff .empty .empty).1 _ s' hrun).2 rfl⟩

/-- A new collection that comes with a number holds nothing, and keeps its number. -/
theorem creation_miscounts : Store.empty.Reachable ∧ Store.empty.Counted ∧ ∃ s',
    (Operation.createCollection { Collection.create "c" 0 "T" .other with count := 5 }).run .empty =
      .ok s' ∧ ¬ s'.Counted := by
  obtain ⟨s', hrun, -⟩ : ∃ s', (Operation.createCollection
      { Collection.create "c" 0 "T" .other with count := 5 }).run .empty = .ok s' ∧ True :=
    exists_eq_ok_of_any (by decide +kernel)
  refine ⟨.empty, .empty, s', hrun, fun hcounted => ?_⟩
  have hput := (createCollection_eq_ok.1 hrun).2
  have hzero := ((putCollection_counted_iff Reachable.empty.lawful.owner hput).1 hcounted).2
  exact absurd hzero (by decide)

end Store

end Anthology
