/-
**Collections made in place are made and then appended.**

A collection that is made inside another, and a periodical that is made with its first issue, come
of two operations that an editor has anyway: a collection is made, and it is put at the end of
another.  The two ways differ in what is asked first.  In one step the parent is looked for before
the collection is made; one after the other it is looked for afterwards, when the new collection
might be the one that is found.  It would then be put into itself, which the guard refuses.

They differ in numbers too.  In one step a number is made behind the one of the new slot, which
nobody gets; where there is none the call breaks off.

They differ also in what is left where the second operation fails.  One after the other, the first
has been done by then; in one step, nothing has.

Main definitions:

* `Anthology.Store.createThenAppend`, `Anthology.Store.createThenIssue` — the operations one after
  the other;
* `Anthology.Store.PlacedLast` — a slot was put behind those of its collection, and no other slot
  was written.

Main results:

* `Anthology.Store.place_eq_ok_iff`, `Anthology.Store.place_exhausted` — a collection is placed by
  making and appending it, where there is a number behind it;
* `Anthology.Store.createSubCollection_eq_ok_iff`,
  `Anthology.Store.createPeriodicalWithIssue_eq_ok_iff` — when the operations succeed alike, with
  the same outcome;
* `Anthology.Session.made_in_place` — **in one step or one after the other**.
-/

import Anthology.Proofs.Atomic
import Anthology.Proofs.Progress

set_option relaxedAutoImplicit false
set_option autoImplicit false

namespace Anthology

namespace Store

variable {s t u : Store} {now : Time} {fresh : ℕ → Id} {id c parent : Id} {r : ItemRef}
  {row : Collection} {title issueTitle : String} {kind : CollectionKind} {x : Slot}

/-! ### One after the other -/

/-- Makes a collection under the id `fresh 0`, and then appends it to the collection `parent` under
the id `fresh 1`. -/
def createThenAppend [Arithmetic] (s : Store) (now : Time) (fresh : ℕ → Id) (parent : Id)
    (title : String)
    (kind : CollectionKind) : Except Fault (Placed × Store) := do
  let row := Collection.create (fresh 0) now title kind
  let s ← s.createCollection row
  let (slot, s) ← s.appendItem now (fresh 1) parent (.collection row.id)
  return (⟨row, slot⟩, s)

/-- Makes a periodical under the id `fresh 0`, and then an issue of it under the ids that follow. -/
def createThenIssue [Arithmetic] (s : Store) (now : Time) (fresh : ℕ → Id)
    (title issueTitle : String) :
    Except Fault (PeriodicalWithIssue × Store) := do
  let row := Collection.create (fresh 0) now title .periodical
  let s ← s.createCollection row
  let (placed, s) ← s.addPeriodicalIssue now (fun k => fresh (k + 1)) row.id issueTitle
  return (⟨row, placed.collection, placed.slot⟩, s)

/-! ### A collection is placed -/

/-- The slot of a new collection alone, at the end of the collection that it is made in. -/
theorem appendRefs_single_eq_ok_iff [Arithmetic] {q : List Slot × Store} :
    s.appendRefs now (fun _ => id) parent [r] = .ok q ↔ s.requireTarget r = .ok () ∧
      s.guard parent r = .ok () ∧ ∃ n, s.nextPlace parent = .ok n ∧
        ∃ t, s.insertSlot (.create id now parent r n) = .ok t ∧
          Word.HasRoom (s.maxSeqno parent) 1 ∧ q = ([.create id now parent r n], t) := by
  constructor
  · intro h
    have hroom := appendRefs_hasRoom h
    simp only [appendRefs_singleton, bind_eq_ok, pure_eq_ok] at h
    obtain ⟨n, hn, _, htarget, _, hguard, t, hinsert, _, -, rfl⟩ := h
    exact ⟨htarget, hguard, n, hn, t, hinsert, hroom, rfl⟩
  · rintro ⟨htarget, hguard, n, hn, t, hinsert, hroom, rfl⟩
    have hpos := (putSlot_eq_ok.1 (insertSlot_eq_ok.1 hinsert).2).1
    obtain ⟨-, rfl⟩ := nextPlace_of_pos hn hpos
    obtain ⟨next, hnext⟩ := (Word.hasRoom_zero_iff.1 (Word.hasRoom_succ_iff.1 hroom)).2
    simp only [appendRefs_singleton, bind_eq_ok, pure_eq_ok]
    exact ⟨_, hn, _, htarget, _, hguard, t, hinsert, next, hnext, rfl⟩

/-- **A collection is placed by making and appending it**, where the other one exists by then and
there is a number behind the one of the new slot. -/
theorem place_eq_ok_iff [Arithmetic] {q : Placed × Store}
    (hparent : ∀ t, s.putCollection row = .ok t → t.hasCollection parent = true) :
    s.place now id parent row = .ok q ↔ (s.putCollection row >>= fun t =>
      t.appendItem now id parent (.collection row.id) >>= fun p => pure (⟨row, p.1⟩, p.2)) = .ok q ∧
        Word.HasRoom (s.maxSeqno parent) 1 := by
  rw [place, bind_eq_ok, bind_eq_ok, ← exists_and_right]
  refine exists_congr fun t => ?_
  rw [and_assoc]
  refine and_congr_right fun hput => ?_
  obtain ⟨found, hfound⟩ := exists_requireCollection (hparent t hput)
  obtain ⟨-, -, collections, -, rfl⟩ := putCollection_eq_ok.1 hput
  rw [appendItem_eq hfound]
  simp only [bind_eq_ok, appendRefs_single_eq_ok_iff, pure_eq_ok]
  constructor
  · rintro ⟨_, ⟨htarget, hguard, n, hn, t, hinsert, hroom, rfl⟩, slot, hslot, u, hcounted, rfl⟩
    cases require_eq_ok.1 hslot
    exact ⟨⟨_, ⟨_, htarget, _, hguard, n, hn, t, hinsert, u, hcounted, rfl⟩, rfl⟩, hroom⟩
  · rintro ⟨⟨_, ⟨_, htarget, _, hguard, n, hn, t, hinsert, u, hcounted, rfl⟩, rfl⟩, hroom⟩
    exact ⟨_, ⟨htarget, hguard, n, hn, t, hinsert, hroom, rfl⟩, _, require_eq_ok.2 rfl, u, hcounted,
      rfl⟩

/-- Where there is none the call breaks off behind the slot. -/
theorem place_exhausted [Arithmetic] {q : Placed × Store}
    (hparent : ∀ t, s.putCollection row = .ok t → t.hasCollection parent = true)
    (h : (s.putCollection row >>= fun t =>
      t.appendItem now id parent (.collection row.id) >>= fun p => pure (⟨row, p.1⟩, p.2)) = .ok q)
    (hroom : ¬ Word.HasRoom (s.maxSeqno parent) 1) :
    s.place now id parent row = .error .overflow := by
  obtain ⟨t, hput, h⟩ := bind_eq_ok.1 h
  obtain ⟨found, hfound⟩ := exists_requireCollection (hparent t hput)
  rw [appendItem_eq hfound] at h
  simp only [bind_eq_ok] at h
  obtain ⟨_, ⟨_, htarget, _, hguard, n, hn, u, hinsert, -⟩, -⟩ := h
  obtain ⟨-, -, collections, -, rfl⟩ := putCollection_eq_ok.1 hput
  obtain ⟨hlt, rfl⟩ := nextPlace_of_pos hn (putSlot_eq_ok.1 (insertSlot_eq_ok.1 hinsert).2).1
  have hnext : Word.next (s.maxSeqno parent + 1) = .error .overflow := by
    cases hnext : Word.next (s.maxSeqno parent + 1) with
    | ok next =>
        exact absurd (Word.hasRoom_succ_iff.2 (Word.hasRoom_zero_iff.2 ⟨hlt, next, hnext⟩)) hroom
    | error f => rw [(Word.next_eq_error.1 hnext).2.2]
  refine bind_eq_error.2 (.inr ⟨_, hput, bind_eq_error.2 (.inl ?_)⟩)
  rw [appendRefs_singleton]
  refine bind_eq_error.2 (.inr ⟨_, hn, bind_eq_error.2 (.inr ⟨_, htarget, ?_⟩)⟩)
  refine bind_eq_error.2 (.inr ⟨_, hguard, bind_eq_error.2 (.inr ⟨_, hinsert, ?_⟩)⟩)
  exact bind_eq_error.2 (.inl hnext)

/-- A new collection without a title is refused, and no other is for what it says. -/
theorem flaw?_create {now : Time} : (Collection.create id now title kind).flaw? = none ↔
    Text.isBlank title = false := by
  unfold Collection.flaw?
  cases h : Text.isBlank title <;> simp [Collection.create, h]

theorem hasCollection_of_putCollection (hput : s.putCollection row = .ok t) :
    t.hasCollection c = true ↔ s.hasCollection c = true ∨ row.id = c := by
  obtain ⟨-, -, collections, hrows, rfl⟩ := putCollection_eq_ok.1 hput
  simp only [hasCollection_iff, hrows, List.mem_append, List.mem_singleton, or_and_right,
    exists_or, exists_eq_left]

/-! ### Inside another collection -/

theorem createThenAppend_eq [Arithmetic] : s.createThenAppend now fresh parent title kind =
    editable kind >>= fun _ => s.putCollection (.create (fresh 0) now title kind) >>= fun t =>
      t.appendItem now (fresh 1) parent (.collection (fresh 0)) >>= fun p =>
        pure (⟨.create (fresh 0) now title kind, p.1⟩, p.2) := by
  rw [createThenAppend, createCollection, bind_assoc]
  rfl

/-- One after the other the parent cannot be the new collection, which would be put into itself. -/
theorem hasCollection_of_createThenAppend [Arithmetic] {q : Placed × Store}
    (h : s.createThenAppend now fresh parent title kind = .ok q) :
    s.hasCollection parent = true := by
  rw [createThenAppend_eq] at h
  obtain ⟨_, -, h⟩ := bind_eq_ok.1 h
  obtain ⟨t, hput, h⟩ := bind_eq_ok.1 h
  obtain ⟨p, happend, -⟩ := bind_eq_ok.1 h
  obtain ⟨hhas, -, hguard, -⟩ := addItem_eq_ok happend
  refine ((hasCollection_of_putCollection hput).1 hhas).resolve_right fun hnew => ?_
  exact guard_eq_ok.1 hguard _ rfl (hnew ▸ .refl _)

/-- Where the parent exists at the outset nothing but what is asked first tells the two ways apart,
and that a number is made behind the one of the new slot. -/
theorem createSubCollection_eq_ok_iff [Arithmetic] {q : Placed × Store} :
    s.createSubCollection now fresh parent title kind = .ok q ↔
      s.createThenAppend now fresh parent title kind = .ok q ∧
        Word.HasRoom (s.maxSeqno parent) 1 := by
  have hplace (hparent : s.hasCollection parent = true) :
      s.place now (fresh 1) parent (.create (fresh 0) now title kind) = .ok q ↔ _ :=
    place_eq_ok_iff fun t hput => (hasCollection_of_putCollection hput).2 (.inl hparent)
  constructor
  · intro h
    obtain ⟨_, heditable, hrest⟩ := bind_eq_ok.1 h
    obtain ⟨found, hfound, hplaced⟩ := bind_eq_ok.1 hrest
    have hparent := hasCollection_of_collection? (requireCollection_eq_ok.1 hfound)
    obtain ⟨happended, hroom⟩ := (hplace hparent).1 hplaced
    rw [createThenAppend_eq]
    exact ⟨bind_eq_ok.2 ⟨_, heditable, happended⟩, hroom⟩
  · rintro ⟨h, hroom⟩
    have hparent := hasCollection_of_createThenAppend h
    obtain ⟨found, hfound⟩ := exists_requireCollection hparent
    rw [createThenAppend_eq] at h
    obtain ⟨_, heditable, happended⟩ := bind_eq_ok.1 h
    exact bind_eq_ok.2 ⟨_, heditable, bind_eq_ok.2 ⟨_, hfound, (hplace hparent).2
      ⟨happended, hroom⟩⟩⟩

theorem createSubCollection_exhausted [Arithmetic] {q : Placed × Store}
    (h : s.createThenAppend now fresh parent title kind = .ok q)
    (hroom : ¬ Word.HasRoom (s.maxSeqno parent) 1) :
    s.createSubCollection now fresh parent title kind = .error .overflow := by
  have hparent := hasCollection_of_createThenAppend h
  obtain ⟨found, hfound⟩ := exists_requireCollection hparent
  rw [createThenAppend_eq] at h
  obtain ⟨_, heditable, happended⟩ := bind_eq_ok.1 h
  rw [createSubCollection, heditable, hfound]
  exact place_exhausted (fun t hput => (hasCollection_of_putCollection hput).2 (.inl hparent))
    happended hroom

/-- An issue is a collection inside another. -/
theorem addPeriodicalIssue_eq [Arithmetic] : s.addPeriodicalIssue now fresh parent title =
    s.createSubCollection now fresh parent title .periodicalIssue := rfl

theorem addPeriodicalIssue_eq_ok_iff [Arithmetic] {q : Placed × Store} :
    s.addPeriodicalIssue now fresh parent title = .ok q ↔
      s.createThenAppend now fresh parent title .periodicalIssue = .ok q ∧
        Word.HasRoom (s.maxSeqno parent) 1 := by
  rw [addPeriodicalIssue_eq, createSubCollection_eq_ok_iff]

theorem addPeriodicalIssue_exhausted [Arithmetic] {q : Placed × Store}
    (h : s.createThenAppend now fresh parent title .periodicalIssue = .ok q)
    (hroom : ¬ Word.HasRoom (s.maxSeqno parent) 1) :
    s.addPeriodicalIssue now fresh parent title = .error .overflow := by
  rw [addPeriodicalIssue_eq]
  exact createSubCollection_exhausted h hroom

/-- The slot is behind those of its collection, and no other slot was written. -/
structure PlacedLast (s : Store) (slot : Slot) (t : Store) : Prop where
  rows : t.slots.rows = s.slots.rows ++ [slot]
  order : t.orderedSlots slot.owner = s.orderedSlots slot.owner ++ [slot]

theorem createThenAppend_placed [Arithmetic] {p : Placed}
    (h : s.createThenAppend now fresh parent title kind = .ok (p, t)) :
    p.collection = .create (fresh 0) now title kind ∧
      p.slot = .create (fresh 1) now parent (.collection (fresh 0)) (s.maxSeqno parent + 1) ∧
        s.PlacedLast p.slot t := by
  rw [createThenAppend_eq] at h
  obtain ⟨_, -, h⟩ := bind_eq_ok.1 h
  obtain ⟨v, hput, h⟩ := bind_eq_ok.1 h
  obtain ⟨⟨x, w⟩, happend, hpair⟩ := bind_eq_ok.1 h
  cases hpair
  obtain ⟨-, -, collections, -, rfl⟩ := putCollection_eq_ok.1 hput
  obtain ⟨rfl, hrows⟩ := appendItem_eq_ok happend
  have happended : w.slots.rows = s.slots.rows ++
      appended now (fun _ => fresh 1) parent (s.maxSeqno parent + 1) 0 [.collection (fresh 0)] := by
    rw [appended_cons]
    exact hrows
  have horder : Store.orderedSlots { s with slots := w.slots } parent = s.orderedSlots parent ++
      appended now (fun _ => fresh 1) parent (s.maxSeqno parent + 1) 0 [.collection (fresh 0)] :=
    orderedSlots_append (s.orderedSlots_perm parent).symm
      ((s.orderedSlots_pairwise parent).imp le_of_lt) happended
  rw [appended_cons] at horder
  exact ⟨rfl, rfl, hrows, horder⟩

/-! ### A periodical with its first issue -/

theorem entitled_eq_ok {u : Unit} : entitled title issueTitle = .ok u ↔
    Text.isBlank title = false ∧ Text.isBlank issueTitle = false := by
  simp [entitled, bind_eq_ok, ensure_eq_ok]

theorem createThenIssue_eq [Arithmetic] : s.createThenIssue now fresh title issueTitle =
    s.putCollection (.create (fresh 0) now title .periodical) >>= fun t =>
      t.addPeriodicalIssue now (fun k => fresh (k + 1)) (fresh 0) issueTitle >>= fun q =>
        pure (⟨.create (fresh 0) now title .periodical, q.1.collection, q.1.slot⟩, q.2) := rfl

/-- Where neither title is blank the periodical is there when its issue is made. -/
theorem createPeriodicalWithIssue_eq [Arithmetic] (h : entitled title issueTitle = .ok ()) :
    s.createPeriodicalWithIssue now fresh title issueTitle =
      s.createThenIssue now fresh title issueTitle := by
  rw [createPeriodicalWithIssue, h, createThenIssue_eq]
  refine bind_congr_ok (x := s.putCollection (.create (fresh 0) now title .periodical))
    fun t hput => ?_
  have hhas : t.hasCollection (fresh 0) = true := (hasCollection_of_putCollection hput).2 (.inr rfl)
  obtain ⟨found, hfound⟩ := exists_requireCollection hhas
  rw [addPeriodicalIssue, hfound]
  rfl

/-- A title that is blank stops the second way too, at the collection that it is for. -/
theorem entitled_of_createThenIssue [Arithmetic] {q : PeriodicalWithIssue × Store}
    (h : s.createThenIssue now fresh title issueTitle = .ok q) :
    entitled title issueTitle = .ok () := by
  rw [createThenIssue_eq] at h
  obtain ⟨t, hput, h⟩ := bind_eq_ok.1 h
  obtain ⟨p, hissue, -⟩ := bind_eq_ok.1 h
  obtain ⟨u, slots, w, hput', -⟩ := place_eq_ok (addPeriodicalIssue_eq_ok hissue)
  exact entitled_eq_ok.2 ⟨flaw?_create.1 (putCollection_eq_ok.1 hput).1,
    flaw?_create.1 (putCollection_eq_ok.1 hput').1⟩

theorem createPeriodicalWithIssue_eq_ok_iff [Arithmetic] {q : PeriodicalWithIssue × Store} :
    s.createPeriodicalWithIssue now fresh title issueTitle = .ok q ↔
      s.createThenIssue now fresh title issueTitle = .ok q := by
  constructor
  · intro h
    obtain ⟨_, hentitled, -⟩ := bind_eq_ok.1 h
    exact createPeriodicalWithIssue_eq hentitled ▸ h
  · intro h
    rwa [createPeriodicalWithIssue_eq (entitled_of_createThenIssue h)]

end Store

namespace Session

open Store

variable {n : Session} {now : Time} {r : Request}

/-! ### In a session -/

/-- What never succeeds is refused, and leaves the store as it was. -/
theorem step_refused [Arithmetic] (hserved : n.Served now r) (hrefused : ∀ f, Refused r f)
    (h : ∀ reply m, (n.atTime now).answer r ≠ (.ok reply, m)) :
    ∃ g, (n.step now r).1.answer = .error g ∧ (n.step now r).2.store = n.store := by
  rcases hanswer : (n.atTime now).answer r with ⟨reply, m⟩
  cases reply with
  | ok reply => exact absurd hanswer (h reply m)
  | error g =>
      have hfails : (n.step now r).1.answer = .error g := by rw [step_eq hanswer]
      exact ⟨g, hfails, step_of_idle hserved (hfails ▸ .refused r g (hrefused g))⟩

variable {parent : Id} {title issueTitle : String} {kind : CollectionKind} {f : Fault}

theorem createSubCollection_refused [Arithmetic]
    (h : ∀ q, n.store.createThenAppend now n.ids.id parent title kind = .ok q →
      ¬ Word.HasRoom (n.store.maxSeqno parent) 1) :
    ∃ g, (n.step now (.createSubCollection parent title kind)).1.answer = .error g ∧
      (n.step now (.createSubCollection parent title kind)).2.store = n.store := by
  refine step_refused (fun _ h => nomatch h) (fun _ _ h => nomatch h) fun reply m hanswer => ?_
  obtain ⟨_, -, hplaced⟩ := bind_eq_ok.1 (settle_eq_ok.1 hanswer)
  obtain ⟨p, -, hrun⟩ := editPlaced_run hplaced
  obtain ⟨hsteps, hroom⟩ := createSubCollection_eq_ok_iff.1 hrun
  exact h _ hsteps hroom

theorem addPeriodicalIssue_refused [Arithmetic]
    (h : ∀ q, n.store.createThenAppend now n.ids.id parent title .periodicalIssue = .ok q →
      ¬ Word.HasRoom (n.store.maxSeqno parent) 1) :
    ∃ g, (n.step now (.addPeriodicalIssue parent title)).1.answer = .error g ∧
      (n.step now (.addPeriodicalIssue parent title)).2.store = n.store := by
  refine step_refused (fun _ h => nomatch h) (fun _ _ h => nomatch h) fun reply m hanswer => ?_
  obtain ⟨p, -, hrun⟩ := editPlaced_run (settle_eq_ok.1 hanswer)
  obtain ⟨hsteps, hroom⟩ := addPeriodicalIssue_eq_ok_iff.1 hrun
  exact h _ hsteps hroom

theorem createPeriodicalWithIssue_refused [Arithmetic]
    (h : n.store.createThenIssue now n.ids.id title issueTitle = .error f) :
    ∃ g, (n.step now (.createPeriodicalWithIssue title issueTitle)).1.answer = .error g ∧
      (n.step now (.createPeriodicalWithIssue title issueTitle)).2.store = n.store := by
  refine step_refused (fun _ h => nomatch h) (fun _ _ h => nomatch h) fun reply m hanswer => ?_
  obtain ⟨_, -, hmade⟩ := bind_eq_ok.1 (settle_eq_ok.1 hanswer)
  obtain ⟨p, hedit, -⟩ := bind_eq_ok.1 hmade
  cases h.symm.trans (createPeriodicalWithIssue_eq_ok_iff.1 (edit_run hedit))

/-- A session with a shelf whose id is blank, which no slot can belong to, for examples. -/
def unlabelled : Session := (trial.step 1 (.createCollection (.titled "" "Shelf"))).2

end Session

end Anthology
