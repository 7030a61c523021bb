/-
**What is returned and what is stored.**

An operation that makes or changes records returns them, and it puts its answer together beside the
rows that it writes: from the record that came in, or from a row that was read before the write and
changed in the same way.  Nearly everywhere the two agree to the last field, whatever the time and
the ids.  There are two exceptions, and they are exact:

* slots that are put into another order are returned with their new numbers and with the time of
  their last change, while their rows were written again;
* an authority is returned with the number of locks that the caller gave it, while its row starts
  from none.

Main definitions:

* `Anthology.Reply.StoredIn` — the records of a reply are those that are stored under their ids;
* `Anthology.Operation.Shown` — the slots that were put into order are shown as they were returned;
* `Anthology.Store.Returns` — the operations with what they return;
* `Anthology.Operation.Outdates` — the two exceptions.

Main results:

* `Anthology.Store.Arranged.storedIn_iff` — slots that are put into another order;
* `Anthology.Store.Returns.stored_iff` — one operation;
* `Anthology.Session.answer_returns` — a session answers with what the operation returns;
* `Anthology.Store.Reachable.returned_iff` — **what is returned is what is stored, but for the two
  exceptions**.
-/

import Anthology.Proofs.Atomic
import Anthology.Proofs.Renumber
import Anthology.Proofs.Tally

set_option relaxedAutoImplicit false
set_option autoImplicit false

namespace Anthology

/-! ### Replies and the operations that they answer -/

/-- A read of the id of a record in the reply gives this record.  The replies that are left out have
no records that were made or changed. -/
def Reply.StoredIn (t : Store) : Reply → Prop
  | collection row => t.collection? row.id = some row
  | slot x => t.slot? x.id = some x
  | slots xs => ∀ x ∈ xs, t.slot? x.id = some x
  | manifestation m => t.manifestation? m.id = some m
  | authority a => t.authority? a.id = some a
  | placed p => t.collection? p.collection.id = some p.collection ∧ t.slot? p.slot.id = some p.slot
  | periodical p => t.collection? p.periodical.id = some p.periodical ∧
      t.collection? p.issue.id = some p.issue ∧ t.slot? p.slot.id = some p.slot
  | _ => True

/-- The slots of a collection that was put into order are shown as they were returned. -/
def Operation.Shown (t : Store) : Operation → Reply → Prop
  | reorder _ c _ _ _, .slots items => t.orderedSlots c = items
  | moveItem _ _ c _, .slots items => t.orderedSlots c = items
  | _, _ => True

namespace Store

/-- An operation that makes or changes records, with what it returns and the store after it. -/
inductive Returns [Arithmetic] (s : Store) : Operation → Reply → Store → Prop
  | createCollection {row : Collection} {t : Store} (run : s.createCollection row = .ok t) :
      Returns s (.createCollection row) (.collection row) t
  | addItem {now : Time} {id c : Id} {r : ItemRef} {a : SlotAttrs} {x : Slot} {t : Store}
      (run : s.addItem now id c r a = .ok (x, t)) : Returns s (.addItem now id c r a) (.slot x) t
  | appendItem {now : Time} {id c : Id} {r : ItemRef} {x : Slot} {t : Store}
      (run : s.appendItem now id c r = .ok (x, t)) : Returns s (.appendItem now id c r) (.slot x) t
  | appendMany {now : Time} {fresh : ℕ → Id} {c : Id} {rs : List ItemRef} {xs : List Slot}
      {t : Store} (run : s.appendMany now fresh c rs = .ok (xs, t)) :
      Returns s (.appendMany now fresh c rs) (.slots xs) t
  | updateItem {now : Time} {id : Id} {a : SlotAttrs} {x : Slot} {t : Store}
      (run : s.updateItem now id a = .ok (x, t)) : Returns s (.updateItem now id a) (.slot x) t
  | retargetItem {now : Time} {id : Id} {r : ItemRef} {x : Slot} {t : Store}
      (run : s.retargetItem now id r = .ok (x, t)) : Returns s (.retargetItem now id r) (.slot x) t
  | reorder {now : Time} {c id : Id} {old new : ℕ} {xs : List Slot} {t : Store}
      (run : s.reorder now c id old new = .ok (xs, t)) :
      Returns s (.reorder now c id old new) (.slots xs) t
  | moveItem {now : Time} {direction : Direction} {c id : Id} {xs : List Slot} {t : Store}
      (run : s.moveItem now direction c id = .ok (xs, t)) :
      Returns s (.moveItem now direction c id) (.slots xs) t
  | transplant {now : Time} {id dest : Id} {rank : Int} {x : Slot} {t : Store}
      (run : s.transplant now id dest rank = .ok (x, t)) :
      Returns s (.transplant now id dest rank) (.slot x) t
  | addPeriodicalIssue {now : Time} {fresh : ℕ → Id} {c : Id} {title : String} {p : Placed}
      {t : Store} (run : s.addPeriodicalIssue now fresh c title = .ok (p, t)) :
      Returns s (.addPeriodicalIssue now fresh c title) (.placed p) t
  | createPeriodicalWithIssue {now : Time} {fresh : ℕ → Id} {title issueTitle : String}
      {p : PeriodicalWithIssue} {t : Store}
      (run : s.createPeriodicalWithIssue now fresh title issueTitle = .ok (p, t)) :
      Returns s (.createPeriodicalWithIssue now fresh title issueTitle) (.periodical p) t
  | createSubCollection {now : Time} {fresh : ℕ → Id} {parent : Id} {title : String}
      {kind : CollectionKind} {p : Placed} {t : Store}
      (run : s.createSubCollection now fresh parent title kind = .ok (p, t)) :
      Returns s (.createSubCollection now fresh parent title kind) (.placed p) t
  | createManifestation {m : Manifestation} {t : Store} (run : s.putManifestation m = .ok t) :
      Returns s (.createManifestation m) (.manifestation m) t
  | createAuthority {a : Authority} {t : Store} (run : s.putAuthority a = .ok t) :
      Returns s (.createAuthority a) (.authority a) t

/-- A slot was given another number, at another time than that of its last change. -/
def Restamped (s t : Store) (now : Time) : Prop :=
  ∃ x y, s.slot? x.id = some x ∧ t.slot? x.id = some y ∧ y.seqno ≠ x.seqno ∧ x.updatedAt ≠ now

end Store

/-- What the operation returns is not what is stored: slots were numbered anew at another time than
that of their last change, or an authority came in with locks. -/
def Operation.Outdates (s t : Store) : Operation → Prop
  | reorder now .. => s.Restamped t now
  | moveItem now .. => s.Restamped t now
  | createAuthority a => a.lockVersion ≠ 0
  | _ => False

namespace Store

variable {s s' t u : Store} {now : Time} {c id : Id} {cs : List Id} {n : Int} {x : Slot}
  {xs items : List Slot} {row : Collection}

/-! ### Slots in another order -/

/-- A slot whose number changes along the list is given another number by the walk. -/
theorem restamped_renumberFrom_iff (hperm : xs.Perm (s.orderedSlots c)) :
    s.Restamped (renumberFrom now s n xs) now ↔
      ∃ p ∈ placesFrom n xs, p.2 ≠ p.1.seqno ∧ p.1.updatedAt ≠ now := by
  obtain ⟨hnodup, hrows, -⟩ := perm_orderedSlots_rows hperm
  constructor
  · rintro ⟨x, y, hx, hy, hchanged, htime⟩
    rcases slot?_renumberFrom_elim hnodup hrows hy with ⟨p, hp, hid, rfl⟩ | ⟨-, hbefore⟩
    · have hlisted := hrows p.1 (fst_mem_of_mem_placesFrom hp)
      rw [hid, hx] at hlisted
      cases hlisted
      rw [Slot.numbered_seqno] at hchanged
      exact ⟨p, hp, hchanged, htime⟩
    · cases hx.symm.trans hbefore
      contradiction
  · rintro ⟨p, hp, hchanged, htime⟩
    refine ⟨p.1, _, hrows p.1 (fst_mem_of_mem_placesFrom hp),
      slot?_renumberFrom hnodup hrows hp, ?_, htime⟩
    rwa [Slot.numbered_seqno]

/-- The slots are returned as they are stored where none was numbered anew at another time. -/
theorem rowsFrom_eq_numberedFrom_iff : rowsFrom now n xs = numberedFrom n xs ↔
    ∀ p ∈ placesFrom n xs, p.2 ≠ p.1.seqno → p.1.updatedAt = now := by
  rw [rowsFrom, numberedFrom_eq_map, List.map_inj_left]
  exact forall₂_congr fun p hp => Slot.numbered_eq_iff

/-- **Slots that are put into another order** are returned as they are stored, and as they are
shown, exactly where none of them was numbered anew at another time. -/
theorem Arranged.storedIn_iff (h : s.Arranged t now c items) :
    (Reply.slots items).StoredIn t ∧ t.orderedSlots c = items ↔ ¬ s.Restamped t now := by
  rcases h with ⟨rfl, rfl⟩ | ⟨xs, hperm, rfl, rfl⟩
  · refine iff_of_true ⟨fun x hx => slot?_of_mem (mem_orderedSlots.1 hx).1, rfl⟩ ?_
    rintro ⟨x, y, hx, hy, hchanged, -⟩
    cases hx.symm.trans hy
    contradiction
  · obtain ⟨hnodup, hrows, -⟩ := perm_orderedSlots_rows hperm
    have hsame : ¬ s.Restamped (renumberFrom now s 1 xs) now ↔
        rowsFrom now 1 xs = numberedFrom 1 xs := by
      rw [restamped_renumberFrom_iff hperm, rowsFrom_eq_numberedFrom_iff]
      simp only [not_exists, not_and, not_not]
    rw [hsame, orderedSlots_renumberFrom hperm, and_iff_right_iff_imp]
    intro heq x hx
    rw [← heq, rowsFrom, List.mem_map] at hx
    obtain ⟨p, hp, rfl⟩ := hx
    rw [Slot.numbered_id]
    exact slot?_renumberFrom hnodup hrows hp

/-! ### New rows, and counts that are right -/

theorem slot?_putSlot (h : s.putSlot x = .ok t) : t.slot? x.id = some x := by
  obtain ⟨-, -, -, table, hrows, rfl⟩ := putSlot_eq_ok.1 h
  exact slot?_of_mem (hrows ▸ List.mem_append_right _ List.mem_cons_self)

theorem collection?_putCollection (h : s.putCollection row = .ok t) :
    t.collection? row.id = some row := by
  obtain ⟨-, -, table, hrows, rfl⟩ := putCollection_eq_ok.1 h
  exact collection?_eq_some.2 ⟨hrows ▸ List.mem_append_right _ List.mem_cons_self, rfl⟩

theorem collection?_putCollection_of_some (h : s.putCollection row = .ok t) {old : Collection}
    (hold : s.collection? c = some old) : t.collection? c = some old := by
  obtain ⟨-, -, table, hrows, rfl⟩ := putCollection_eq_ok.1 h
  obtain ⟨hmem, hid⟩ := collection?_eq_some.1 hold
  exact collection?_eq_some.2 ⟨hrows ▸ List.mem_append_left _ hmem, hid⟩

/-- A row whose number is right is left as it is by a recount. -/
theorem collection?_recount_of_right (hrow : s.collection? c = some row)
    (hcount : (s.countBelow c : Int) = row.count) :
    (s.recount now cs).collection? c = some row := by
  obtain ⟨-, rfl⟩ := collection?_eq_some.1 hrow
  rw [recount_collection?, hrow, Option.map_some, recountedIn]
  split
  · rw [recounted, if_pos hcount]
  · rfl

theorem countBelow_of_slotless (h : ∀ x ∈ s.slots.rows, x.owner ≠ c) : s.countBelow c = 0 := by
  have hslots : s.slotsOf c = [] := by
    refine List.eq_nil_iff_forall_not_mem.2 fun x hx => ?_
    exact h x (mem_slotsOf.1 hx).1 (mem_slotsOf.1 hx).2
  have hsub : s.subCollections c = [] := by rw [subCollections, childrenOf, hslots]; rfl
  rw [countBelow_childless hsub, worksIn, hslots]
  rfl

/-- Nothing is counted where all slots refer to collections without slots. -/
theorem Acyclic.countBelow_of_children (ha : s.Acyclic) (h : ∀ x ∈ s.slotsOf c, ∃ d,
    x.item = .collection d ∧ ∀ y ∈ s.slots.rows, y.owner ≠ d) : s.countBelow c = 0 := by
  have hworks : s.worksIn c = 0 := by
    refine List.countP_eq_zero.2 fun x hx => ?_
    obtain ⟨d, hitem, -⟩ := h x hx
    simp [hitem, ItemRef.manifestation?]
  have hbelow : ∀ d ∈ s.subCollections c, s.countBelow d = 0 := by
    intro d hd
    obtain ⟨x, hx, howner, hitem⟩ := mem_childrenOf.1 (mem_subCollections.1 hd).1
    obtain ⟨e, hitem', hslotless⟩ := h x (mem_slotsOf.2 ⟨hx, howner⟩)
    cases hitem.symm.trans hitem'
    exact countBelow_of_slotless hslotless
  rw [ha.countBelow_eq, hworks, List.sum_eq_zero_iff_forall_eq_nat.2 (List.forall_mem_map.2 hbelow)]

/-! ### Collections made in place -/

/-- A collection is made with a slot that refers to it.  The guard keeps the slot out of the
collection itself. -/
theorem place_returns [Arithmetic] {slotId parent : Id} {p : Placed}
    (h : s.place now slotId parent row = .ok (p, s')) :
    ∃ t u, s.putCollection row = .ok t ∧ t.putSlot p.slot = .ok u ∧
      s' = u.recount now (u.upward parent) ∧ p.collection = row ∧ p.slot.owner = parent ∧
        p.slot.item = .collection row.id ∧ parent ≠ row.id := by
  simp only [place, appendRefs_singleton, bind_eq_ok, Prod.exists, guard_eq_ok, insertSlot_eq_ok,
    propagate_eq_ok, require_eq_ok, pure_eq_ok, Prod.mk.injEq] at h
  obtain ⟨t, hput, _, u, ⟨n, -, _, -, _, hguard, _, ⟨-, hslot⟩, _, -, rfl, rfl⟩, x, hx, _,
    ⟨-, rfl⟩, rfl, rfl⟩ := h
  cases Option.some.inj hx
  refine ⟨t, _, hput, hslot, rfl, rfl, rfl, rfl, ?_⟩
  rintro rfl
  exact hguard row.id rfl (.refl row.id)

/-- The slots of the store in which a collection was made are those from before and the one that
refers to it. -/
theorem mem_slots_place (hput : s.putCollection row = .ok t) (hslot : t.putSlot x = .ok u)
    {y : Slot} (hy : y ∈ u.slots.rows) : y = x ∨ y ∈ s.slots.rows := by
  obtain ⟨-, -, -, table, hrows, rfl⟩ := putSlot_eq_ok.1 hslot
  obtain ⟨-, -, collections, -, rfl⟩ := putCollection_eq_ok.1 hput
  rcases List.mem_append.1 (hrows ▸ hy) with hy | hy
  · exact .inr hy
  · exact .inl (List.mem_singleton.1 hy)

/-- **A collection made in place is returned as it is stored**, with its slot, and a parent without
slots stays as it was. -/
theorem Lawful.place_stored [Arithmetic] (hl : s.Lawful) (ha : s.Acyclic) {slotId parent : Id}
    {p : Placed}
    (hcount : row.count = 0) (h : s.place now slotId parent row = .ok (p, s')) :
    (Reply.placed p).StoredIn s' ∧ ∀ old, s.collection? parent = some old → old.count = 0 →
      (∀ x ∈ s.slots.rows, x.owner ≠ parent) → s'.collection? parent = some old := by
  have hacyclic : s'.Acyclic := (writes_place h).acyclic ha
  obtain ⟨t, u, hput, hslot, rfl, hrow, howner, hitem, hparent⟩ := place_returns h
  have hnew : s.hasCollection row.id = false := (putCollection_eq_ok.1 hput).2.1
  have hcollections : u.collections = t.collections := by
    obtain ⟨-, -, -, table, -, rfl⟩ := putSlot_eq_ok.1 hslot
    rfl
  -- the new collection has no slots, so nothing is counted in it
  have hslotless : ∀ y ∈ u.slots.rows, y.owner ≠ row.id := by
    intro y hy hid
    rcases mem_slots_place hput hslot hy with rfl | hy
    · exact hparent (howner.symm.trans hid)
    · have hthere := hl.owner y hy
      rw [hid, hnew] at hthere
      contradiction
  have hstored : (u.recount now (u.upward parent)).slot? p.slot.id = some p.slot := by
    rw [recount_slot?, slot?_putSlot hslot]
  refine ⟨⟨?_, hstored⟩, fun old hold hzero hempty => ?_⟩
  · rw [hrow]
    refine collection?_recount_of_right ?_ ?_
    · rw [collection?, hcollections]
      exact collection?_putCollection hput
    · rw [countBelow_of_slotless hslotless, hcount]
      rfl
  · refine collection?_recount_of_right ?_ ?_
    · rw [collection?, hcollections]
      exact collection?_putCollection_of_some hput hold
    · rw [(hacyclic.of_slots rfl : u.Acyclic).countBelow_of_children, hzero]
      · rfl
      · intro x hx
        obtain ⟨hx, hxowner⟩ := mem_slotsOf.1 hx
        refine ⟨row.id, ?_, hslotless⟩
        rcases mem_slots_place hput hslot hx with rfl | hx
        · exact hitem
        · exact absurd hxowner (hempty x hx)

theorem Lawful.createPeriodicalWithIssue_stored [Arithmetic] (hl : s.Lawful) (ha : s.Acyclic)
    {fresh : ℕ → Id}
    {title issueTitle : String} {p : PeriodicalWithIssue}
    (h : s.createPeriodicalWithIssue now fresh title issueTitle = .ok (p, s')) :
    (Reply.periodical p).StoredIn s' := by
  simp only [createPeriodicalWithIssue, bind_eq_ok, Prod.exists, pure_eq_ok, Prod.mk.injEq] at h
  obtain ⟨_, -, t, hput, placed, _, hplace, rfl, rfl⟩ := h
  have hnew : s.hasCollection (fresh 0) = false := (putCollection_eq_ok.1 hput).2.1
  have hempty : ∀ x ∈ t.slots.rows, x.owner ≠ fresh 0 := by
    obtain ⟨-, -, table, -, rfl⟩ := putCollection_eq_ok.1 hput
    intro x hx howner
    have hthere := hl.owner x hx
    rw [howner, hnew] at hthere
    contradiction
  have hacyclic : t.Acyclic := Writes.acyclic (.single (.putCollection hput)) ha
  obtain ⟨⟨hissue, hslot⟩, hparent⟩ := (hl.putCollection hput).place_stored hacyclic rfl hplace
  exact ⟨hparent _ (collection?_putCollection hput) rfl hempty, hissue, hslot⟩

/-! ### One operation -/

theorem addItem_stored [Arithmetic] {r : ItemRef} {a : SlotAttrs}
    (h : s.addItem now id c r a = .ok (x, s')) :
    s'.slot? x.id = some x := by
  obtain ⟨-, -, -, -, -, -, t, hput, rfl⟩ := addItem_eq_ok h
  rw [recount_slot?, slot?_putSlot hput]

theorem appendMany_stored [Arithmetic] {fresh : ℕ → Id} {rs : List ItemRef}
    (h : s.appendMany now fresh c rs = .ok (xs, s')) : (Reply.slots xs).StoredIn s' := by
  obtain ⟨-, t, happend, rfl⟩ := appendMany_eq_ok h
  obtain ⟨-, ⟨table, hrows, rfl⟩, -⟩ := appendRefs_eq_ok happend
  intro x hx
  exact slot?_of_mem (hrows ▸ List.mem_append_right _ hx)

theorem updateItem_stored {a : SlotAttrs} (h : s.updateItem now id a = .ok (x, s')) :
    s'.slot? x.id = some x := by
  simp only [updateItem, bind_eq_ok, requireSlot_eq_ok, pure_eq_ok, Prod.mk.injEq] at h
  obtain ⟨old, ⟨hold, -⟩, _, -, rfl, rfl⟩ := h
  obtain ⟨-, rfl⟩ := slot?_eq_some.1 hold
  exact slot?_editSlot_self _ _ hold

theorem retargetItem_stored {r : ItemRef} (h : s.retargetItem now id r = .ok (x, s')) :
    s'.slot? x.id = some x := by
  obtain ⟨old, t, hold, -, -, rfl, rfl, rfl⟩ := retargetItem_eq_ok h
  obtain ⟨-, rfl⟩ := slot?_eq_some.1 hold
  rw [recount_slot?]
  exact slot?_editSlot_self (pointed now r) (fun _ => rfl) hold

/-- The slot that is moved is not among those that make room for it. -/
theorem transplant_stored [Arithmetic] {dest : Id} {rank : Int}
    (h : s.transplant now id dest rank = .ok (x, s')) : s'.slot? x.id = some x := by
  obtain ⟨old, seqno, t, hold, -, -, -, rfl, rfl, rfl⟩ := transplant_eq_ok h
  obtain ⟨hmem, rfl⟩ := slot?_eq_some.1 hold
  have hshifted : (s.shiftFrom now dest seqno old.id).slot? old.id = some old :=
    slot?_of_mem (List.mem_map.2 ⟨old, hmem, if_neg fun h => h.2.2 rfl⟩)
  rw [recount_slot?]
  exact slot?_editSlot_self (moved now dest seqno) (fun _ => rfl) hshifted

theorem putManifestation_stored {m : Manifestation} (h : s.putManifestation m = .ok t) :
    t.manifestation? m.id = some m := by
  obtain ⟨-, -, table, hrows, rfl⟩ := putManifestation_eq_ok.1 h
  exact Table.find?_eq_some_iff.2 ⟨hrows ▸ List.mem_append_right _ List.mem_cons_self, rfl⟩

/-- The row of a new authority starts without locks, whatever the caller says. -/
theorem putAuthority_stored_iff {a : Authority} (h : s.putAuthority a = .ok t) :
    t.authority? a.id = some a ↔ a.lockVersion = 0 := by
  obtain ⟨-, -, -, table, hrows, rfl⟩ := putAuthority_eq_ok.1 h
  have hstored : Store.authority? { s with authorities := table } a.id =
      some { a with lockVersion := 0 } :=
    authority?_eq_some.2 ⟨hrows ▸ List.mem_append_right _ List.mem_cons_self, rfl⟩
  rw [hstored, Option.some_inj]
  constructor
  · intro heq
    exact (congrArg Authority.lockVersion heq).symm
  · intro hlocks
    rw [← hlocks]

/-- **An operation returns what is stored**, but for the two exceptions. -/
theorem Returns.stored_iff [Arithmetic] {op : Operation} {reply : Reply}
    (hret : s.Returns op reply t)
    (h : s.Reachable) : reply.StoredIn t ∧ op.Shown t reply ↔ ¬ op.Outdates s t := by
  cases hret with
  | createCollection run =>
      refine iff_of_true ⟨?_, trivial⟩ not_false
      exact collection?_putCollection (createCollection_eq_ok.1 run).2
  | addItem run => exact iff_of_true ⟨addItem_stored run, trivial⟩ not_false
  | appendItem run => exact iff_of_true ⟨addItem_stored run, trivial⟩ not_false
  | appendMany run => exact iff_of_true ⟨appendMany_stored run, trivial⟩ not_false
  | updateItem run => exact iff_of_true ⟨updateItem_stored run, trivial⟩ not_false
  | retargetItem run => exact iff_of_true ⟨retargetItem_stored run, trivial⟩ not_false
  | reorder run => exact (arranged_reorder run).storedIn_iff
  | moveItem run => exact (arranged_moveItem run).storedIn_iff
  | transplant run => exact iff_of_true ⟨transplant_stored run, trivial⟩ not_false
  | addPeriodicalIssue run =>
      have hplace := addPeriodicalIssue_eq_ok run
      exact iff_of_true ⟨(h.lawful.place_stored h.acyclic rfl hplace).1, trivial⟩ not_false
  | createPeriodicalWithIssue run =>
      have hstored := h.lawful.createPeriodicalWithIssue_stored h.acyclic run
      exact iff_of_true ⟨hstored, trivial⟩ not_false
  | createSubCollection run =>
      have hplace := (createSubCollection_eq_ok run).2
      exact iff_of_true ⟨(h.lawful.place_stored h.acyclic rfl hplace).1, trivial⟩ not_false
  | createManifestation run => exact iff_of_true ⟨putManifestation_stored run, trivial⟩ not_false
  | createAuthority run =>
      refine (and_iff_left trivial).trans ((putAuthority_stored_iff run).trans ?_)
      exact not_not.symm

end Store

/-! ### Sessions -/

namespace Session

variable {n m : Session} {reply : Reply}

/-- The operation that a request stands for, if it returns records that it makes or changes. -/
def operation? (n : Session) : Request → Option Operation
  | .createCollection d => some (.createCollection (d.complete (n.ids.id 0) n.now))
  | .addItem c r attrs => some (.addItem n.now (n.ids.id 0) c r attrs)
  | .appendMany c rs => some (.appendMany n.now n.ids.id c rs)
  | .updateItem id attrs => some (.updateItem n.now id attrs)
  | .retargetItem id r => some (.retargetItem n.now id r)
  | .reorder c id old new => some (.reorder n.now c id old new)
  | .moveItem direction c id => some (.moveItem n.now direction c id)
  | .transplant id dest rank => some (.transplant n.now id dest rank)
  | .addPeriodicalIssue c title => some (.addPeriodicalIssue n.now n.ids.id c title)
  | .createPeriodicalWithIssue title issueTitle =>
    some (.createPeriodicalWithIssue n.now n.ids.id title issueTitle)
  | .createSubCollection parent title kind =>
    some (.createSubCollection n.now n.ids.id parent title kind)
  | .createManifestation d => some (.createManifestation (d.complete (n.ids.id 0) n.now))
  | .createAuthority d => some (.createAuthority (d.complete (n.ids.id 0) n.now))
  | _ => none

/-- **A session answers with what the operation returns.** -/
theorem answer_returns [Arithmetic] {r : Request} {op : Operation} (hop : n.operation? r = some op)
    (h : n.answer r = (.ok reply, m)) : n.store.Returns op reply m.store := by
  cases r
  case createCollection d =>
      cases hop
      have hrun := settle_eq_ok.1 h
      simp only [createCollection, bind_eq_ok, Prod.exists, pure_eq_ok, Prod.mk.injEq] at hrun
      obtain ⟨_, -, _, -, _, k, hedit, rfl, rfl⟩ := hrun
      exact .createCollection (edit_run_unit hedit)
  case addItem c r attrs =>
      cases hop
      obtain ⟨x, rfl, hrun⟩ := editSlot_run (settle_eq_ok.1 h)
      exact .addItem hrun
  case appendMany c rs =>
      cases hop
      have hrun := settle_eq_ok.1 h
      simp only [bind_eq_ok, Prod.exists, pure_eq_ok, Prod.mk.injEq] at hrun
      obtain ⟨xs, k, hedit, rfl, rfl⟩ := hrun
      exact .appendMany (edit_run hedit)
  case updateItem id attrs =>
      cases hop
      obtain ⟨x, rfl, hrun⟩ := editSlot_run (settle_eq_ok.1 h)
      exact .updateItem hrun
  case retargetItem id r =>
      cases hop
      obtain ⟨x, rfl, hrun⟩ := editSlot_run (settle_eq_ok.1 h)
      exact .retargetItem hrun
  case reorder c id old new =>
      cases hop
      obtain ⟨xs, rfl, hrun⟩ := editOrder_run (settle_eq_ok.1 h)
      exact .reorder hrun
  case moveItem direction c id =>
      cases hop
      obtain ⟨xs, rfl, hrun⟩ := editOrder_run (settle_eq_ok.1 h)
      exact .moveItem hrun
  case transplant id dest rank =>
      cases hop
      have hrun := settle_eq_ok.1 h
      simp only [transplant, bind_eq_ok, Prod.exists, pure_eq_ok, Prod.mk.injEq] at hrun
      obtain ⟨_, -, x, k, hedit, rfl, rfl⟩ := hrun
      exact .transplant (edit_run hedit)
  case addPeriodicalIssue c title =>
      cases hop
      obtain ⟨p, rfl, hrun⟩ := editPlaced_run (settle_eq_ok.1 h)
      exact .addPeriodicalIssue hrun
  case createPeriodicalWithIssue title issueTitle =>
      cases hop
      have hrun := settle_eq_ok.1 h
      simp only [createPeriodicalWithIssue, bind_eq_ok, Prod.exists, pure_eq_ok,
        Prod.mk.injEq] at hrun
      obtain ⟨_, -, p, k, hedit, rfl, rfl⟩ := hrun
      rw [announceAll_store]
      exact .createPeriodicalWithIssue (edit_run hedit)
  case createSubCollection parent title kind =>
      cases hop
      obtain ⟨_, -, hedit⟩ := bind_eq_ok.1 (settle_eq_ok.1 h)
      obtain ⟨p, rfl, hrun⟩ := editPlaced_run hedit
      exact .createSubCollection hrun
  case createManifestation d =>
      cases hop
      have hrun := settle_eq_ok.1 h
      simp only [createManifestation, bind_eq_ok, Prod.exists, pure_eq_ok, Prod.mk.injEq] at hrun
      obtain ⟨_, -, _, k, hedit, rfl, rfl⟩ := hrun
      exact .createManifestation (edit_run_unit hedit)
  case createAuthority d =>
      cases hop
      have hrun := settle_eq_ok.1 h
      simp only [createAuthority, bind_eq_ok, Prod.exists, pure_eq_ok, Prod.mk.injEq] at hrun
      obtain ⟨_, -, _, k, hedit, rfl, rfl⟩ := hrun
      exact .createAuthority (edit_run_unit hedit)
  all_goals cases hop

end Session

/-! ### All operations -/

/-- A slot alone in its collection with a number above one, for examples. -/
def Operation.alone : List Operation := [
  .createCollection (.create "shelf" 0 "Shelf" .other),
  .addItem 1 "slot" "shelf" .empty ⟨some 5, none, none⟩]

namespace Store

variable {s : Store}

/-- **What is returned is what is stored, but for the two exceptions.**  Whatever operation returns
records that it makes or changes, each of them is what a read of its id gives afterwards, and slots
that were put into order are what the collection shows, exactly where no slot was numbered anew at
another time than that of its last change and no authority came in with locks.  A session answers
with what the operation returns. -/
theorem Reachable.returned_iff [Arithmetic] (h : s.Reachable) :
    (∀ (op : Operation) (reply : Reply) (t : Store), s.Returns op reply t →
      (reply.StoredIn t ∧ op.Shown t reply ↔ ¬ op.Outdates s t)) ∧
    ∀ (n m : Session) (r : Request) (op : Operation) (reply : Reply), n.store = s →
      n.operation? r = some op → n.answer r = (.ok reply, m) → s.Returns op reply m.store := by
  refine ⟨fun op reply t hret => hret.stored_iff h, ?_⟩
  rintro n m r op reply rfl hop hanswer
  exact n.answer_returns hop hanswer

/-- The slot is numbered anew at the time of its last change. -/
theorem returned_iff_alone : ∃ s xs t, Operation.runAll .empty Operation.alone = .ok s ∧
    s.reorder 1 "shelf" "slot" 0 1 = .ok (xs, t) ∧ xs.map Slot.seqno = [1] ∧
    (∀ x ∈ xs, t.slot? x.id = some x) ∧ t.orderedSlots "shelf" = xs := by
  obtain ⟨s, hs, htime, hreorder⟩ : ∃ s, Operation.runAll .empty Operation.alone = .ok s ∧
      (∀ x ∈ s.slots.rows, x.updatedAt = 1) ∧
        (s.reorder 1 "shelf" "slot" 0 1).toOption.any (fun r =>
          decide (r.1.map Slot.seqno = [1])) = true := exists_eq_ok_of_any (by decide +kernel)
  obtain ⟨⟨xs, t⟩, hrun, hseqno⟩ := exists_eq_ok_of_any hreorder
  have hcurrent : ¬ (Operation.reorder 1 "shelf" "slot" 0 1).Outdates s t := by
    rintro ⟨x, y, hx, -, -, hlater⟩
    exact hlater (htime x (slot?_eq_some.1 hx).1)
  obtain ⟨hstored, hshown⟩ :=
    ((Reachable.returned_iff (.runAll .empty hs)).1 _ _ t (.reorder hrun)).2 hcurrent
  exact ⟨s, xs, t, hs, hrun, hseqno, hstored, hshown⟩

/-- A slot that is numbered anew later is returned with the time of its last change, and an
authority that comes in with locks is returned with them. -/
theorem returned_outdated :
    (∃ s xs t, Operation.runAll .empty Operation.alone = .ok s ∧ s.Reachable ∧
      s.Returns (.reorder 2 "shelf" "slot" 0 1) (.slots xs) t ∧
        ¬ (Reply.slots xs).StoredIn t) ∧
    ∃ t, Store.empty.Returns
        (.createAuthority { Authority.create "author" 0 "Author" with lockVersion := 5 })
        (.authority { Authority.create "author" 0 "Author" with lockVersion := 5 }) t ∧
      ¬ (Reply.authority { Authority.create "author" 0 "Author" with lockVersion := 5 }).StoredIn
        t := by
  constructor
  · obtain ⟨s, hs, hreorder⟩ : ∃ s, Operation.runAll .empty Operation.alone = .ok s ∧
        (s.reorder 2 "shelf" "slot" 0 1).toOption.any (fun r =>
          decide (∃ x ∈ r.1, r.2.slot? x.id ≠ some x)) = true :=
      exists_eq_ok_of_any (by decide +kernel)
    obtain ⟨⟨xs, t⟩, hrun, x, hx, hdiffers⟩ := exists_eq_ok_of_any hreorder
    exact ⟨s, xs, t, hs, .runAll .empty hs, .reorder hrun, fun hstored => hdiffers (hstored x hx)⟩
  · obtain ⟨t, hrun, hdiffers⟩ : ∃ t, Store.empty.putAuthority
        { Authority.create "author" 0 "Author" with lockVersion := 5 } = .ok t ∧
          t.authority? "author" ≠
            some { Authority.create "author" 0 "Author" with lockVersion := 5 } :=
      exists_eq_ok_of_any (by decide +kernel)
    exact ⟨t, .createAuthority hrun, hdiffers⟩

end Store

end Anthology
