/-
**What the operations do.**

One lemma for each operation says what it has done where it succeeded: which checks held before it,
which rows it wrote, and that the recount at its end is the last thing that happened.  Everything
else about the operations is read off these lemmas, so that no later proof opens an operation.

Main definitions:

* `Anthology.Store.appended` — the slots that are added for a list of references;
* `Anthology.Store.numberAt` — the number that puts a slot at a rank;
* `Anthology.Store.Relabelled` — slots were labelled or numbered anew, and nothing else.

Main results:

* `Anthology.Store.addItem_eq_ok`, `Anthology.Store.retargetItem_eq_ok`,
  `Anthology.Store.transplant_eq_ok` and others — slots;
* `Anthology.Store.deleteCollection_eq_ok`, `Anthology.Store.place_eq_ok` and others —
  collections;
* `Anthology.Store.refresh_eq_ok` — the upkeep.
-/

import Anthology.Proofs.Recount
import Anthology.Store.Compose

set_option relaxedAutoImplicit false
set_option autoImplicit false

namespace Anthology

theorem ItemRef.affectsCount_iff {r : ItemRef} : r.affectsCount = true ↔ r ≠ .empty := by
  cases r <;> simp [affectsCount, isEmpty]

namespace Store

variable {s s' : Store} {now : Time} {id c : Id} {r : ItemRef}

/-! ### Collections -/

theorem editable_eq_ok {kind : CollectionKind} {u : Unit} :
    editable kind = .ok u ↔ kind.isUncollected = false := by
  simp [editable, ensure_eq_ok]

theorem createCollection_eq_ok {row : Collection} :
    s.createCollection row = .ok s' ↔ row.isUncollected = false ∧ s.putCollection row = .ok s' := by
  simp only [createCollection, bind_eq_ok, editable_eq_ok]
  exact ⟨fun ⟨_, h⟩ => h, fun h => ⟨(), h⟩⟩

/-- An edit replaces what it says, and neither makes a collection uncollected nor ends that. -/
theorem updateCollection_eq_ok {row : Collection} (h : s.updateCollection now row = .ok s') :
    ∃ old, s.collection? row.id = some old ∧ old.isUncollected = row.isUncollected ∧
      s' = s.editCollection row.id
        (fun x => { x with
          title := row.title
          subtitle := row.subtitle
          description := row.description
          kind := row.kind
          updatedAt := now })
        fun _ => rfl := by
  simp only [updateCollection, bind_eq_ok, requireCollection_eq_ok, ensure_eq_ok, pure_eq_ok] at h
  obtain ⟨_, _, old, hold, _, hkind, rfl⟩ := h
  refine ⟨old, hold, ?_, rfl⟩
  simp only [Bool.or_eq_true, beq_iff_eq, Bool.not_eq_true', Bool.or_eq_false_iff] at hkind
  rcases hkind with hkind | ⟨hold, hrow⟩
  · rw [Collection.isUncollected, Collection.isUncollected, hkind]
  · rw [Collection.isUncollected, Collection.isUncollected, hold, hrow]

/-- The store without a collection, its slots and the slots that referred to it. -/
def without (s : Store) (id : Id) : Store :=
  (s.dropSlots fun x => x.item == .collection id).dropCollection id

theorem deleteCollection_eq_ok {deleted : Bool}
    (h : s.deleteCollection now id = .ok (deleted, s')) :
    (s.hasCollection id = false ∧ deleted = false ∧ s' = s) ∨
      (s.hasCollection id = true ∧ deleted = true ∧
        s' = (s.without id).recount now ((s.parentsOf id).flatMap (s.without id).upward)) := by
  unfold deleteCollection at h
  split at h
  · rename_i hid
    simp only [bind_eq_ok, propagateAll_eq_ok, pure_eq_ok, Prod.mk.injEq] at h
    obtain ⟨_, ⟨-, rfl⟩, rfl, rfl⟩ := h
    exact .inr ⟨hid, rfl, rfl⟩
  · rename_i hid
    cases h
    exact .inl ⟨Bool.eq_false_iff.2 hid, rfl, rfl⟩

/-! ### Works and authorities -/

theorem updateManifestation_eq_ok {m : Manifestation} (h : s.updateManifestation now m = .ok s') :
    s' = s.editManifestation m.id
      (fun x => { x with title := m.title, status := m.status, updatedAt := now })
      fun _ => rfl := by
  simp only [updateManifestation, bind_eq_ok, pure_eq_ok] at h
  obtain ⟨_, _, _, _, rfl⟩ := h
  rfl

theorem deleteManifestation_eq_ok {deleted : Bool}
    (h : s.deleteManifestation now id = .ok (deleted, s')) :
    (s.hasManifestation id = false ∧ deleted = false ∧ s' = s) ∨
      (s.hasManifestation id = true ∧ deleted = true ∧
        s' = (s.dropManifestation id).recount now
          ((s.holdersOf (.manifestation id)).flatMap (s.dropManifestation id).upward)) := by
  unfold deleteManifestation at h
  split at h
  · rename_i hid
    simp only [bind_eq_ok, propagateAll_eq_ok, pure_eq_ok, Prod.mk.injEq] at h
    obtain ⟨_, ⟨-, rfl⟩, rfl, rfl⟩ := h
    exact .inr ⟨hid, rfl, rfl⟩
  · rename_i hid
    cases h
    exact .inl ⟨Bool.eq_false_iff.2 hid, rfl, rfl⟩

theorem updateAuthority_eq_ok {a : Authority} (h : s.updateAuthority now a = .ok s') :
    s' = s.editAuthority a.id (fun x => { x with name := a.name, updatedAt := now })
      fun _ => rfl := by
  simp only [updateAuthority, bind_eq_ok, pure_eq_ok] at h
  obtain ⟨_, _, _, _, rfl⟩ := h
  rfl

/-! ### New slots -/

/-- A new slot refers to something that exists, and closes no cycle. -/
theorem addItem_eq_ok [Arithmetic] {a : SlotAttrs} {x : Slot}
    (h : s.addItem now id c r a = .ok (x, s')) :
    s.hasCollection c = true ∧ s.requireTarget r = .ok () ∧ s.guard c r = .ok () ∧
      x.id = id ∧ x.owner = c ∧ x.item = r ∧
        ∃ t, s.putSlot x = .ok t ∧
          s' = t.recount now (if r.affectsCount then t.upward c else []) := by
  simp only [addItem, bind_eq_ok, requireCollection_eq_ok, insertSlot_eq_ok, propagateIf_eq_ok,
    pure_eq_ok, Prod.mk.injEq] at h
  obtain ⟨row, hrow, _, htarget, _, hguard, n, hn, t, ⟨-, hput⟩, _, ⟨-, rfl⟩, rfl, rfl⟩ := h
  exact ⟨hasCollection_of_collection? hrow, htarget, hguard, rfl, rfl, rfl, t, hput, rfl⟩

theorem nextPlace_eq_ok [Arithmetic] {n : Int} : s.nextPlace c = .ok n ↔
    s.maxSeqno c ≤ Word.last ∧ Word.next (s.maxSeqno c) = .ok n := by
  simp only [nextPlace, bind_eq_ok, readMax_eq_ok]
  constructor
  · rintro ⟨_, ⟨hle, rfl⟩, hnext⟩
    exact ⟨hle, hnext⟩
  · rintro ⟨hle, hnext⟩
    exact ⟨_, ⟨hle, rfl⟩, hnext⟩

/-- A slot is stored only where there is a word behind the last number. -/
theorem nextPlace_of_pos [Arithmetic] {n : Int} (h : s.nextPlace c = .ok n) (hn : 0 < n) :
    s.maxSeqno c < Word.last ∧ n = s.maxSeqno c + 1 :=
  Word.next_of_pos (nextPlace_eq_ok.1 h).2 hn

/-- What is left to do once the collection is found. -/
theorem appendItem_eq [Arithmetic] {row : Collection} (hrow : s.requireCollection c = .ok row) :
    s.appendItem now id c r = s.requireTarget r >>= fun _ => s.guard c r >>= fun _ =>
      s.nextPlace c >>= fun n => s.insertSlot (.create id now c r n) >>= fun t =>
        t.propagateIf now r.affectsCount c >>= fun u => pure (.create id now c r n, u) := by
  rw [appendItem, addItem, hrow]
  rfl

/-- The slot that is appended has the next number, and no other slot is written. -/
theorem appendItem_eq_ok [Arithmetic] {x : Slot} (h : s.appendItem now id c r = .ok (x, s')) :
    x = .create id now c r (s.maxSeqno c + 1) ∧ s'.slots.rows = s.slots.rows ++ [x] := by
  obtain ⟨row, hrow, -⟩ := bind_eq_ok.1 h
  simp only [appendItem_eq hrow, bind_eq_ok, insertSlot_eq_ok, propagateIf_eq_ok, pure_eq_ok,
    Prod.mk.injEq] at h
  obtain ⟨_, -, _, -, n, hn, t, ⟨-, hput⟩, _, ⟨-, rfl⟩, rfl, rfl⟩ := h
  obtain ⟨hpos, -, -, slots, hrows, rfl⟩ := putSlot_eq_ok.1 hput
  obtain ⟨-, rfl⟩ := nextPlace_of_pos hn hpos
  exact ⟨rfl, hrows⟩

/-- The slots that are added for the references, numbered from `seqno` on and under the ids
`fresh k`, `fresh (k + 1)`, …. -/
def appended (now : Time) (fresh : ℕ → Id) (c : Id) (seqno : Int) (k : ℕ) (rs : List ItemRef) :
    List Slot :=
  rs.mapIdx fun i r => .create (fresh (k + i)) now c r (seqno + i)

theorem appended_cons (now : Time) (fresh : ℕ → Id) (c : Id) (seqno : Int) (k : ℕ) (r : ItemRef)
    (rs : List ItemRef) :
    appended now fresh c seqno k (r :: rs) =
      .create (fresh k) now c r seqno :: appended now fresh c (seqno + 1) (k + 1) rs := by
  have hnext : ∀ (i : ℕ) (r : ItemRef), Slot.create (fresh (k + (i + 1))) now c r
      (seqno + (i + 1 : ℕ)) = .create (fresh (k + 1 + i)) now c r (seqno + 1 + i) := by
    intro i r
    rw [show k + (i + 1) = k + 1 + i by omega,
      show seqno + (i + 1 : ℕ) = seqno + 1 + (i : ℕ) by omega]
  simp only [appended, List.mapIdx_cons, hnext]
  simp

theorem appended_items (now : Time) (fresh : ℕ → Id) (c : Id) (seqno : Int) (k : ℕ)
    (rs : List ItemRef) : (appended now fresh c seqno k rs).map Slot.item = rs := by
  induction rs generalizing seqno k with
  | nil => rfl
  | cons r rs ih => rw [appended_cons, List.map_cons, ih]; rfl

theorem appended_owner {fresh : ℕ → Id} {seqno : Int} {k : ℕ} {rs : List ItemRef} {x : Slot}
    (hx : x ∈ appended now fresh c seqno k rs) : x.owner = c := by
  obtain ⟨i, hi, rfl⟩ := List.mem_mapIdx.1 hx
  rfl

theorem slotsOf_append {slots : Table Slot} {xs : List Slot}
    (hrows : slots.rows = s.slots.rows ++ xs) (hxs : ∀ x ∈ xs, x.owner = c) :
    Store.slotsOf { s with slots } c = s.slotsOf c ++ xs := by
  have hall : xs.filter (fun x => x.owner == c) = xs :=
    List.filter_eq_self.2 fun x hx => by simp [hxs x hx]
  rw [slotsOf, hrows, List.filter_append, hall]
  rfl

theorem slotsOf_append_of_ne {slots : Table Slot} {xs : List Slot} {d : Id}
    (hrows : slots.rows = s.slots.rows ++ xs) (hxs : ∀ x ∈ xs, x.owner = c) (hd : d ≠ c) :
    Store.slotsOf { s with slots } d = s.slotsOf d := by
  have hnone : xs.filter (fun x => x.owner == d) = [] :=
    List.filter_eq_nil_iff.2 fun x hx => by simp [hxs x hx, hd.symm]
  rw [slotsOf, hrows, List.filter_append, hnone, List.append_nil]
  rfl

theorem appendFrom_cons [Arithmetic] {fresh : ℕ → Id} {seqno : Int} {k : ℕ} {rs : List ItemRef} :
    appendFrom now fresh c s seqno k (r :: rs) =
      s.requireTarget r >>= fun _ => s.guard c r >>= fun _ =>
        s.insertSlot (.create (fresh k) now c r seqno) >>= fun t =>
          Word.next seqno >>= fun next =>
            appendFrom now fresh c t next (k + 1) rs >>= fun p =>
              pure (.create (fresh k) now c r seqno :: p.1, p.2) := rfl

theorem appendRefs_singleton [Arithmetic] {fresh : ℕ → Id} : s.appendRefs now fresh c [r] =
    s.nextPlace c >>= fun n => s.requireTarget r >>= fun _ => s.guard c r >>= fun _ =>
      s.insertSlot (.create (fresh 0) now c r n) >>= fun t =>
        Word.next n >>= fun _ => pure ([.create (fresh 0) now c r n], t) := rfl

/-- Slots are added under positive numbers only. -/
theorem appendFrom_pos [Arithmetic] {fresh : ℕ → Id} {seqno : Int} {k : ℕ} {rs : List ItemRef}
    {p : List Slot × Store} (h : appendFrom now fresh c s seqno k rs = .ok p) :
    rs = [] ∨ 0 < seqno := by
  cases rs with
  | nil => exact .inl rfl
  | cons r rs =>
      simp only [appendFrom_cons, bind_eq_ok, insertSlot_eq_ok, putSlot_eq_ok] at h
      obtain ⟨_, -, _, -, _, ⟨-, hpos, -⟩, -⟩ := h
      exact .inr hpos

/-- For no references no slots are added, whatever the number. -/
theorem appended_next [Arithmetic] {fresh : ℕ → Id} {seqno next : Int} {k l : ℕ} {rs : List ItemRef}
    {p : List Slot × Store} (hnext : Word.next seqno = .ok next)
    (h : appendFrom now fresh c s next k rs = .ok p) :
    appended now fresh c next l rs = appended now fresh c (seqno + 1) l rs := by
  rcases appendFrom_pos h with rfl | hpos
  · rfl
  · rw [(Word.next_of_pos hnext hpos).2]

/-- Slots are added one by one, each under the guard of the store as it is then. -/
theorem appendFrom_eq_ok [Arithmetic] {fresh : ℕ → Id} {seqno : Int} {k : ℕ} {rs : List ItemRef}
    {slots : List Slot} (h : appendFrom now fresh c s seqno k rs = .ok (slots, s')) :
    slots = appended now fresh c seqno k rs ∧
      (∃ t : Table Slot, t.rows = s.slots.rows ++ slots ∧ s' = { s with slots := t }) ∧
        Writes s s' := by
  induction rs generalizing s seqno k slots with
  | nil =>
      cases h
      exact ⟨rfl, ⟨_, (List.append_nil _).symm, rfl⟩, .refl⟩
  | cons r rs ih =>
      simp only [appendFrom, bind_eq_ok, insertSlot_eq_ok, Prod.exists, pure_eq_ok,
        Prod.mk.injEq] at h
      obtain ⟨_, htarget, _, hguard, t, ⟨-, hput⟩, next, hnext, rest, _, hrest, rfl, rfl⟩ := h
      -- the rest is added to the store that holds the first slot already
      obtain ⟨rfl, ⟨u, hu, rfl⟩, hw⟩ := ih hrest
      rw [appended_next hnext hrest] at hu ⊢
      refine ⟨(appended_cons ..).symm, ?_, .head (.putSlot htarget hguard hput) hw⟩
      obtain ⟨-, -, -, slots, hslots, rfl⟩ := putSlot_eq_ok.1 hput
      exact ⟨u, by rw [hu, hslots, List.append_assoc]; rfl, rfl⟩

/-- Slots are added only where there are numbers for all of them. -/
theorem appendFrom_hasRoom [Arithmetic] {fresh : ℕ → Id} {n seqno : Int} {k : ℕ}
    {rs : List ItemRef} {p : List Slot × Store} (hn : n ≤ Word.last)
    (hnext : Word.next n = .ok seqno) (h : appendFrom now fresh c s seqno k rs = .ok p) :
    Word.HasRoom n rs.length := by
  induction rs generalizing s n seqno k p with
  | nil => exact Word.hasRoom_zero_iff.2 ⟨hn, seqno, hnext⟩
  | cons r rs ih =>
      obtain ⟨hlt, rfl⟩ := Word.next_of_pos hnext
        ((appendFrom_pos h).resolve_left (List.cons_ne_nil r rs))
      simp only [appendFrom_cons, bind_eq_ok] at h
      obtain ⟨_, -, _, -, _, -, _, hnext, _, hrest, -⟩ := h
      exact Word.hasRoom_succ_iff.2 (ih (by omega) hnext hrest)

theorem appendRefs_hasRoom [Arithmetic] {fresh : ℕ → Id} {rs : List ItemRef}
    {p : List Slot × Store} (h : s.appendRefs now fresh c rs = .ok p) :
    Word.HasRoom (s.maxSeqno c) rs.length := by
  obtain ⟨n, hn, h⟩ := bind_eq_ok.1 h
  obtain ⟨hmax, hnext⟩ := nextPlace_eq_ok.1 hn
  exact appendFrom_hasRoom hmax hnext h

/-- The slots behind the last one have the numbers that follow. -/
theorem appendRefs_eq_ok [Arithmetic] {fresh : ℕ → Id} {rs : List ItemRef} {slots : List Slot}
    (h : s.appendRefs now fresh c rs = .ok (slots, s')) :
    slots = appended now fresh c (s.maxSeqno c + 1) 0 rs ∧
      (∃ t : Table Slot, t.rows = s.slots.rows ++ slots ∧ s' = { s with slots := t }) ∧
        Writes s s' := by
  obtain ⟨n, hn, h⟩ := bind_eq_ok.1 h
  obtain ⟨rfl, hrows⟩ := appendFrom_eq_ok h
  rw [appended_next (nextPlace_eq_ok.1 hn).2 h] at hrows ⊢
  exact ⟨rfl, hrows⟩

theorem appendMany_eq_ok [Arithmetic] {fresh : ℕ → Id} {rs : List ItemRef} {slots : List Slot}
    (h : s.appendMany now fresh c rs = .ok (slots, s')) :
    s.hasCollection c = true ∧ ∃ t, s.appendRefs now fresh c rs = .ok (slots, t) ∧
      s' = t.recount now (if rs.any ItemRef.affectsCount then t.upward c else []) := by
  simp only [appendMany, bind_eq_ok, requireCollection_eq_ok, Prod.exists, propagateIf_eq_ok,
    pure_eq_ok, Prod.mk.injEq] at h
  obtain ⟨row, hrow, _, t, happend, _, ⟨-, rfl⟩, rfl, rfl⟩ := h
  exact ⟨hasCollection_of_collection? hrow, t, happend, rfl⟩

/-! ### Slots labelled or numbered anew -/

/-- Slots were labelled or numbered anew, and nothing else was written. -/
def Relabelled (s t : Store) : Prop :=
  ∃ (f : Slot → Slot) (hf : ∀ x, (f x).id = x.id), (∀ x, (f x).owner = x.owner) ∧
    (∀ x, (f x).item = x.item) ∧ (∀ x, 0 < x.seqno → 0 < (f x).seqno) ∧
      t = { s with slots := s.slots.update f hf }

theorem Relabelled.writes {t : Store} (h : s.Relabelled t) : Writes s t := by
  obtain ⟨f, hf, howner, hitem, hnumbered, rfl⟩ := h
  exact .single (.relabel f hf howner hitem hnumbered)

theorem Relabelled.refl (s : Store) : s.Relabelled s :=
  ⟨fun x => x, fun _ => rfl, fun _ => rfl, fun _ => rfl, fun _ h => h, by
    have hrows : s.slots.update (fun x => x) (fun _ => rfl) = s.slots := Table.ext (List.map_id _)
    rw [hrows]⟩

theorem Relabelled.trans {t u : Store} (h : s.Relabelled t) (h' : t.Relabelled u) :
    s.Relabelled u := by
  obtain ⟨f, hf, howner, hitem, hnumbered, rfl⟩ := h
  obtain ⟨g, hg, howner', hitem', hnumbered', rfl⟩ := h'
  refine ⟨g ∘ f, fun x => (hg _).trans (hf x), fun x => (howner' _).trans (howner x),
    fun x => (hitem' _).trans (hitem x), fun x hx => hnumbered' _ (hnumbered x hx), ?_⟩
  have hrows : (s.slots.update f hf).update g hg =
      s.slots.update (g ∘ f) (fun x => (hg _).trans (hf x)) := Table.ext (List.map_map ..)
  rw [← hrows]

/-- Some of the slots were labelled or numbered anew. -/
theorem Relabelled.of_cases {f : Slot → Slot} {hf : ∀ x, (f x).id = x.id}
    (h : ∀ x, f x = x ∨
      (f x).owner = x.owner ∧ (f x).item = x.item ∧ (0 < x.seqno → 0 < (f x).seqno)) :
    s.Relabelled { s with slots := s.slots.update f hf } := by
  refine ⟨f, hf, fun x => ?_, fun x => ?_, fun x => ?_, rfl⟩ <;>
    rcases h x with e | ⟨howner, hitem, hnumbered⟩
  · rw [e]
  · exact howner
  · rw [e]
  · exact hitem
  · rw [e]
    exact fun hx => hx
  · exact hnumbered

theorem updateItem_eq_ok {a : SlotAttrs} {x : Slot} (h : s.updateItem now id a = .ok (x, s')) :
    s.Relabelled s' := by
  simp only [updateItem, bind_eq_ok, ensure_eq_ok, pure_eq_ok, Prod.mk.injEq] at h
  obtain ⟨_, _, _, hpos, -, rfl⟩ := h
  refine .of_cases fun x => ?_
  split
  · refine .inr ⟨rfl, rfl, fun hx => ?_⟩
    show 0 < a.seqno.elim x.seqno Int64.toInt
    cases hn : a.seqno with
    | none => exact hx
    | some n => simpa [hn] using hpos
  · exact .inl rfl

theorem renumberFrom_relabelled (xs : List Slot) (s : Store) {n : Int} (hn : 0 < n) :
    s.Relabelled (renumberFrom now s n xs) := by
  induction xs generalizing s n with
  | nil => exact .refl s
  | cons x xs ih =>
      unfold renumberFrom
      split
      · exact ih s (by omega)
      · refine .trans ?_ (ih (s.setSeqno now x.id n) (by omega))
        refine .of_cases fun y => ?_
        split
        · exact .inr ⟨rfl, rfl, fun _ => hn⟩
        · exact .inl rfl

theorem reorder_eq_ok {old new : ℕ} {items : List Slot}
    (h : s.reorder now c id old new = .ok (items, s')) : s.Relabelled s' := by
  simp only [reorder, bind_eq_ok] at h
  obtain ⟨_, _, _, _, _, _, h⟩ := h
  split at h <;> cases h
  · exact .refl s
  · exact renumberFrom_relabelled _ s Int.one_pos

theorem moveItem_eq_ok {direction : Direction} {items : List Slot}
    (h : s.moveItem now direction c id = .ok (items, s')) : s.Relabelled s' := by
  simp only [moveItem, bind_eq_ok] at h
  obtain ⟨_, _, _, _, _, _, h⟩ := h
  split at h <;> cases h
  · exact .refl s
  · exact renumberFrom_relabelled _ s Int.one_pos

/-! ### Slots pointed elsewhere, removed and moved -/

/-- A slot that refers to something else. -/
def pointed (now : Time) (r : ItemRef) (x : Slot) : Slot := { x with item := r, updatedAt := now }

/-- A slot in another collection, or at another place. -/
def moved (now : Time) (dest : Id) (seqno : Int) (x : Slot) : Slot :=
  { x with owner := dest, seqno, updatedAt := now }

theorem pointed_id (r : ItemRef) (x : Slot) : (pointed now r x).id = x.id := rfl

theorem moved_id (dest : Id) (seqno : Int) (x : Slot) : (moved now dest seqno x).id = x.id := rfl

theorem retargetItem_eq_ok {x : Slot} (h : s.retargetItem now id r = .ok (x, s')) :
    ∃ old t, s.slot? id = some old ∧ s.requireTarget r = .ok () ∧ s.guard old.owner r = .ok () ∧
      x = pointed now r old ∧ t = s.editSlot id (pointed now r) (fun _ => rfl) ∧
        s' = t.recount now
          (if old.item.affectsCount || r.affectsCount then t.upward old.owner else []) := by
  simp only [retargetItem, bind_eq_ok, requireSlot_eq_ok, propagateIf_eq_ok, pure_eq_ok,
    Prod.mk.injEq] at h
  obtain ⟨old, ⟨hold, -⟩, _, htarget, _, hguard, _, ⟨-, rfl⟩, rfl, rfl⟩ := h
  exact ⟨old, _, hold, htarget, hguard, rfl, rfl, rfl⟩

theorem removeItem_eq_ok {removed : Bool} (h : s.removeItem now id = .ok (removed, s')) :
    (s.slot? id = none ∧ removed = false ∧ s' = s) ∨
      ∃ old t, s.slot? id = some old ∧ removed = true ∧ t = s.dropSlots (fun x => x.id == id) ∧
        s' = t.recount now (if old.item.affectsCount then t.upward old.owner else []) := by
  obtain ⟨found, hfound, h⟩ := bind_eq_ok.1 h
  obtain ⟨hold, -⟩ := fetchSlot_eq_ok.1 hfound
  cases found with
  | none =>
      cases h
      exact .inl ⟨hold, rfl, rfl⟩
  | some old =>
      simp only [bind_eq_ok, propagateIf_eq_ok, pure_eq_ok, Prod.mk.injEq] at h
      obtain ⟨_, ⟨-, rfl⟩, rfl, rfl⟩ := h
      exact .inr ⟨old, _, hold, rfl, rfl, rfl⟩

theorem shiftFrom_relabelled (s : Store) (dest : Id) (seqno : Int) (id : Id) :
    s.Relabelled (s.shiftFrom now dest seqno id) := by
  refine .of_cases fun x => ?_
  split
  · refine .inr ⟨rfl, rfl, fun hx => ?_⟩
    show 0 < x.seqno + 1
    omega
  · exact .inl rfl

/-- The number that puts a slot at the given rank, as if every number had a next one. -/
def numberAt (items : List Slot) (rank : Int) : Int :=
  if rank ≤ 1 then 1
  else
    match items[rank.toNat - 1]? with
    | some x => x.seqno
    | none => (items.getLast?.elim 0 Slot.seqno) + 1

theorem seqnoAt_of_pos [Arithmetic] {items : List Slot} {rank n : Int}
    (h : seqnoAt items rank = .ok n) (hn : 0 < n) : n = numberAt items rank := by
  unfold seqnoAt at h
  unfold numberAt
  by_cases hrank : rank ≤ 1
  · rw [if_pos hrank] at h ⊢
    exact (Except.ok.inj h).symm
  · rw [if_neg hrank] at h ⊢
    cases hthere : items[rank.toNat - 1]? <;> rw [hthere] at h
    · exact (Word.next_of_pos h hn).2
    · exact (Except.ok.inj h).symm

/-- The number is one, that of a slot, or one more than that of the last slot. -/
theorem numberAt_pos {items : List Slot} (hpos : ∀ y ∈ items, 0 < y.seqno) (rank : Int) :
    0 < numberAt items rank := by
  unfold numberAt
  split
  · exact Int.one_pos
  · split
    · rename_i y hy
      exact hpos y (List.mem_of_getElem? hy)
    · cases hlast : items.getLast? with
      | none => exact Int.one_pos
      | some y =>
          have := hpos y (List.mem_of_getLast? hlast)
          simp only [Option.elim_some]
          omega

/-- Where no slot has the last word the number is a word. -/
theorem numberAt_le_last {items : List Slot} (h : ∀ y ∈ items, y.seqno < Word.last) (rank : Int) :
    numberAt items rank ≤ Word.last := by
  unfold numberAt
  split
  · exact Word.last_pos
  · split
    · rename_i y hy
      exact Int.le_of_lt (h y (List.mem_of_getElem? hy))
    · cases hlast : items.getLast? with
      | none => exact Word.last_pos
      | some y => exact h y (List.mem_of_getLast? hlast)

/-- The number can be made exactly where it is a word. -/
theorem exists_seqnoAt_iff [Arithmetic] {items : List Slot}
    (hpos : ∀ y ∈ items, 0 < y.seqno) (hread : ∀ y ∈ items, y.seqno ≤ Word.last) (rank : Int) :
    (∃ n, seqnoAt items rank = .ok n ∧ 0 < n) ↔ numberAt items rank ≤ Word.last := by
  by_cases hone : rank ≤ 1
  · rw [seqnoAt, if_pos hone, numberAt, if_pos hone]
    exact iff_of_true ⟨1, rfl, Int.one_pos⟩ Word.last_pos
  cases hthere : items[rank.toNat - 1]? with
  | some y =>
      have hy := List.mem_of_getElem? hthere
      rw [seqnoAt, if_neg hone, numberAt, if_neg hone, hthere]
      exact iff_of_true ⟨y.seqno, rfl, hpos y hy⟩ (hread y hy)
  | none =>
      rw [seqnoAt, if_neg hone, numberAt, if_neg hone, hthere]
      constructor
      · rintro ⟨n, hn, hnpos⟩
        exact (Word.next_of_pos hn hnpos).1
      · intro hfits
        refine ⟨_, Word.next_of_lt hfits, ?_⟩
        have := numberAt_pos hpos rank
        rwa [numberAt, if_neg hone, hthere] at this

/-- Where the owner of a slot changes, both collections are counted anew. -/
theorem transplant_eq_ok [Arithmetic] {dest : Id} {rank : Int} {x : Slot}
    (h : s.transplant now id dest rank = .ok (x, s')) :
    ∃ old seqno t, s.slot? id = some old ∧ s.hasCollection dest = true ∧
      s.guard dest old.item = .ok () ∧ seqno = numberAt (s.orderedSlots dest) rank ∧
        x = moved now dest seqno old ∧
          t = (s.shiftFrom now dest seqno id).editSlot id (moved now dest seqno) (fun _ => rfl) ∧
            s' = t.recount now (if old.item.affectsCount && old.owner != dest
              then t.upward old.owner ++ t.upward dest else []) := by
  simp only [transplant, bind_eq_ok, requireSlot_eq_ok, requireCollection_eq_ok, readSlots_eq_ok,
    ensure_eq_ok, decide_eq_true_eq, propagateIf_eq_ok, pure_eq_ok, Prod.mk.injEq] at h
  obtain ⟨old, ⟨hold, -⟩, row, hrow, _, hguard, items, ⟨-, rfl⟩, n, hn, _, hpos, _, ⟨-, rfl⟩, _,
    ⟨-, rfl⟩, rfl, rfl⟩ := h
  refine ⟨old, n, _, hold, hasCollection_of_collection? hrow, hguard, seqnoAt_of_pos hn hpos, rfl,
    rfl, ?_⟩
  -- the recount above the old place does not change what is above the new one
  rw [recount_recount, recount_upward]
  cases old.item.affectsCount && old.owner != dest <;> rfl

/-! ### Collections made in place -/

/-- A collection is put in, a slot that refers to it is added, and everything above is counted. -/
theorem place_eq_ok [Arithmetic] {slotId parent : Id} {row : Collection} {p : Placed}
    (h : s.place now slotId parent row = .ok (p, s')) :
    ∃ t slots u, s.putCollection row = .ok t ∧
      t.appendRefs now (fun _ => slotId) parent [.collection row.id] = .ok (slots, u) ∧
        s' = u.recount now (u.upward parent) := by
  simp only [place, bind_eq_ok, Prod.exists, propagate_eq_ok, pure_eq_ok, Prod.mk.injEq] at h
  obtain ⟨t, hput, slots, u, happend, _, _, _, ⟨-, rfl⟩, -, rfl⟩ := h
  exact ⟨t, slots, u, hput, happend, rfl⟩

theorem addPeriodicalIssue_eq_ok [Arithmetic] {fresh : ℕ → Id} {title : String} {p : Placed}
    (h : s.addPeriodicalIssue now fresh c title = .ok (p, s')) :
    s.place now (fresh 1) c (.create (fresh 0) now title .periodicalIssue) = .ok (p, s') := by
  simp only [addPeriodicalIssue, bind_eq_ok] at h
  obtain ⟨_, _, h⟩ := h
  exact h

theorem createSubCollection_eq_ok [Arithmetic] {fresh : ℕ → Id} {title : String}
    {kind : CollectionKind} {p : Placed}
    (h : s.createSubCollection now fresh c title kind = .ok (p, s')) :
    kind.isUncollected = false ∧
      s.place now (fresh 1) c (.create (fresh 0) now title kind) = .ok (p, s') := by
  simp only [createSubCollection, bind_eq_ok, editable_eq_ok] at h
  obtain ⟨_, hkind, _, _, h⟩ := h
  exact ⟨hkind, h⟩

theorem createPeriodicalWithIssue_eq_ok [Arithmetic] {fresh : ℕ → Id} {title issueTitle : String}
    {p : PeriodicalWithIssue}
    (h : s.createPeriodicalWithIssue now fresh title issueTitle = .ok (p, s')) :
    ∃ t placed, s.putCollection (.create (fresh 0) now title .periodical) = .ok t ∧
      t.place now (fresh 2) (fresh 0) (.create (fresh 1) now issueTitle .periodicalIssue) =
        .ok (placed, s') := by
  simp only [createPeriodicalWithIssue, bind_eq_ok, Prod.exists, pure_eq_ok, Prod.mk.injEq] at h
  obtain ⟨_, _, t, hput, placed, _, hplace, -, rfl⟩ := h
  exact ⟨t, placed, hput, hplace⟩

/-! ### Upkeep -/

/-- The authority with the lock written down in its row. -/
def lockedRow (now : Time) (a : Authority) : Authority :=
  { a with lockVersion := a.lockVersion + 1, updatedAt := now }

theorem lockAuthority_eq_ok {a : Id} {row : Authority}
    (h : s.lockAuthority now a = .ok (row, s')) :
    s.authority? a = some row ∧ s' = s.editAuthority a (lockedRow now) (fun _ => rfl) := by
  simp only [lockAuthority, bind_eq_ok, require_eq_ok, pure_eq_ok, Prod.mk.injEq] at h
  obtain ⟨_, hrow, rfl, rfl⟩ := h
  exact ⟨hrow, rfl⟩

theorem link_eq_ok {a : Id} (h : s.link now a c = .ok s') :
    ∃ t, s.setLink a (some c) = .ok t ∧
      s' = t.editAuthority a (fun x => { x with updatedAt := now }) (fun _ => rfl) := by
  simp only [link, bind_eq_ok, pure_eq_ok] at h
  obtain ⟨t, hset, rfl⟩ := h
  exact ⟨t, hset, rfl⟩

/-- The collection that the link leads to, or a new one to which the authority is linked. -/
theorem bucketOf_eq_ok {fresh : Id} {a : Authority} {created : Bool}
    (h : s.bucketOf now fresh a = .ok ((c, created), s')) :
    (∃ row, a.uncollected.bind s.collection? = some row ∧ row.isUncollected = true ∧
      c = row.id ∧ created = false ∧ s' = s) ∨
    (a.uncollected.bind s.collection? = none ∧ c = fresh ∧ created = true ∧
      ∃ t, s.putCollection (.create fresh now uncollectedTitle .uncollected) = .ok t ∧
        t.link now a.id fresh = .ok s') := by
  unfold bucketOf at h
  split at h
  · rename_i row hrow
    split at h <;> cases h
    rename_i hkind
    exact .inl ⟨row, hrow, hkind, rfl, rfl, rfl⟩
  · rename_i hnone
    simp only [bind_eq_ok, pure_eq_ok, Prod.mk.injEq] at h
    obtain ⟨t, hput, u, hlink, ⟨rfl, rfl⟩, rfl⟩ := h
    exact .inr ⟨hnone, rfl, rfl, t, hput, hlink⟩

/-- The authority is locked, and its collection pruned unless it is new. -/
theorem prepare_eq_ok {fresh a : Id} {p : Prepared} (h : s.prepare now fresh a = .ok (p, s')) :
    ∃ row t u, s.lockAuthority now a = .ok (row, t) ∧
      t.bucketOf now fresh row = .ok ((p.collection, p.created), u) ∧
        (p.created = true ∧ p.removed = 0 ∧ s' = u ∨
          p.created = false ∧ u.prune p.collection = (p.removed, s')) := by
  simp only [prepare, bind_eq_ok, Prod.exists, pure_eq_ok, Prod.mk.injEq] at h
  obtain ⟨row, t, hlock, c, created, u, hbucket, rfl, rfl⟩ := h
  refine ⟨row, t, u, hlock, hbucket, ?_⟩
  cases created
  · exact .inr ⟨rfl, rfl⟩
  · exact .inl ⟨rfl, rfl, rfl⟩

/-- A refresh prepares the collection, adds the works that lack and counts anew from there. -/
theorem refresh_eq_ok [Arithmetic] {fresh : ℕ → Id} {a : Id} {o : RefreshOutcome}
    (h : s.refresh now fresh a = .ok (o, s')) :
    ∃ p t slots u bucket, s.prepare now (fresh 0) a = .ok (p, t) ∧
      t.appendRefs now (p.slotIds fresh) p.collection
        ((t.candidates a p.collection).map .manifestation) = .ok (slots, u) ∧
      s' = u.recount now (u.upward p.collection) ∧
      s'.collection? p.collection = some bucket ∧
      o = ⟨a, p.collection, p.created, p.removed, slots.length, bucket.count⟩ := by
  simp only [refresh, bind_eq_ok, Prod.exists, propagate_eq_ok] at h
  obtain ⟨p, t, hprepare, slots, u, happend, _, ⟨-, rfl⟩, h⟩ := h
  split at h
  · rename_i bucket hbucket
    cases h
    exact ⟨p, t, slots, u, bucket, hprepare, happend, rfl, hbucket, rfl⟩
  · cases h

end Store

end Anthology
