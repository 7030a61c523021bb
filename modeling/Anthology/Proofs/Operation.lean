/-
**Operations and the stores they lead to.**

The operations on the store, collected in one type, and the stores that any number of them lead to
from the store without rows.  An operation that fails leaves the store as it is, so only those that
succeed lead on.  Times and new ids are arguments of the operations, and nothing is assumed of them:
time may run backwards and an id may be given out twice.

Main definitions:

* `Anthology.Operation`, `Anthology.Operation.run` — the operations;
* `Anthology.Store.Reachable` — the stores they lead to.

Main results:

* `Anthology.Store.writes_run` — an operation is a sequence of writes;
* `Anthology.Store.Reachable.lawful` — the schema is met by every store that is reached;
* `Anthology.Store.Reachable.of_write` — what every write keeps holds there;
* `Anthology.Store.Reachable.not_within_itself` — **no collection ever contains itself**.
-/

import Anthology.Proofs.Steps

set_option relaxedAutoImplicit false
set_option autoImplicit false

namespace Anthology

open Relation (ReflTransGen TransGen)

/-! ### Operations -/

/-- An operation on the store with its arguments. -/
inductive Operation where
  | createCollection (row : Collection)
  | updateCollection (now : Time) (row : Collection)
  | deleteCollection (now : Time) (id : Id)
  | addItem (now : Time) (id c : Id) (r : ItemRef) (a : SlotAttrs)
  | appendItem (now : Time) (id c : Id) (r : ItemRef)
  | appendMany (now : Time) (fresh : ℕ → Id) (c : Id) (rs : List ItemRef)
  | updateItem (now : Time) (id : Id) (a : SlotAttrs)
  | retargetItem (now : Time) (id : Id) (r : ItemRef)
  | removeItem (now : Time) (id : Id)
  | reorder (now : Time) (c id : Id) (old new : ℕ)
  | moveItem (now : Time) (direction : Store.Direction) (c id : Id)
  | transplant (now : Time) (id dest : Id) (rank : Int)
  | addPeriodicalIssue (now : Time) (fresh : ℕ → Id) (periodical : Id) (title : String)
  | createPeriodicalWithIssue (now : Time) (fresh : ℕ → Id) (title issueTitle : String)
  | createSubCollection (now : Time) (fresh : ℕ → Id) (parent : Id) (title : String)
      (kind : CollectionKind)
  | createManifestation (m : Manifestation)
  | updateManifestation (now : Time) (m : Manifestation)
  | deleteManifestation (now : Time) (id : Id)
  | createAuthority (a : Authority)
  | updateAuthority (now : Time) (a : Authority)
  | deleteAuthority (id : Id)
  | addInvolvement (i : Involvement)
  | removeInvolvement (a m : Id) (role : Role)
  | refresh (now : Time) (fresh : ℕ → Id) (a : Id)
  | cleanup (now : Time) (mode : CleanupMode)
  | recalculate (now : Time) (c : Id)
  | recalculateAll (now : Time)

/-- The store after an operation. -/
def Operation.run [Arithmetic] (s : Store) : Operation → Except Fault Store
  | createCollection row => s.createCollection row
  | updateCollection now row => s.updateCollection now row
  | deleteCollection now id => (s.deleteCollection now id).map Prod.snd
  | addItem now id c r a => (s.addItem now id c r a).map Prod.snd
  | appendItem now id c r => (s.appendItem now id c r).map Prod.snd
  | appendMany now fresh c rs => (s.appendMany now fresh c rs).map Prod.snd
  | updateItem now id a => (s.updateItem now id a).map Prod.snd
  | retargetItem now id r => (s.retargetItem now id r).map Prod.snd
  | removeItem now id => (s.removeItem now id).map Prod.snd
  | reorder now c id old new => (s.reorder now c id old new).map Prod.snd
  | moveItem now direction c id => (s.moveItem now direction c id).map Prod.snd
  | transplant now id dest rank => (s.transplant now id dest rank).map Prod.snd
  | addPeriodicalIssue now fresh periodical title =>
    (s.addPeriodicalIssue now fresh periodical title).map Prod.snd
  | createPeriodicalWithIssue now fresh title issueTitle =>
    (s.createPeriodicalWithIssue now fresh title issueTitle).map Prod.snd
  | createSubCollection now fresh parent title kind =>
    (s.createSubCollection now fresh parent title kind).map Prod.snd
  | createManifestation m => s.putManifestation m
  | updateManifestation now m => s.updateManifestation now m
  | deleteManifestation now id => (s.deleteManifestation now id).map Prod.snd
  | createAuthority a => s.putAuthority a
  | updateAuthority now a => s.updateAuthority now a
  | deleteAuthority id => .ok (s.deleteAuthority id).2
  | addInvolvement i => s.putInvolvement i
  | removeInvolvement a m role => .ok (s.removeInvolvement a m role).2
  | refresh now fresh a => (s.refresh now fresh a).map Prod.snd
  | cleanup now mode => (s.cleanup now mode).result.map Prod.snd
  | recalculate now c => (s.recalculate now c).map Prod.snd
  | recalculateAll now => (s.recalculateAll now).map Prod.snd

/-- A record comes in from outside, and there are cached numbers that depend on it. -/
def Operation.bringsRecord : Operation → Bool
  | createCollection _ | createManifestation _ => true
  | _ => false

/-- The store after operations one after the other, if all succeed. -/
def Operation.runAll [Arithmetic] (s : Store) : List Operation → Except Fault Store
  | [] => .ok s
  | op :: ops => do
    let s ← op.run s
    runAll s ops

/-- A published work and its author, for examples. -/
def Operation.authored : List Operation := [
  .createManifestation (.create "work" 0 "Work" Manifestation.published),
  .createAuthority (.create "author" 0 "Author"),
  .addInvolvement ⟨"author", "work", .author, 0⟩]

/-- A shelf where room was made in front of a slot with the last word, for examples. -/
def Operation.displaced : List Operation := [
  .createCollection (.create "shelf" 0 "Shelf" .other),
  .addItem 1 "last" "shelf" .empty ⟨some 9223372036854775807, none, none⟩,
  .createCollection (.create "box" 0 "Box" .other),
  .addItem 1 "guest" "box" .empty .unset,
  .transplant 2 "guest" "shelf" 1]

namespace Store

/-- The stores that operations lead to from the store without rows. -/
inductive Reachable [Arithmetic] : Store → Prop
  | empty : Reachable .empty
  | step {s s' : Store} (h : Reachable s) (op : Operation) (run : op.run s = .ok s') : Reachable s'

theorem Reachable.runAll [Arithmetic] {s s' : Store} (h : s.Reachable) {ops : List Operation}
    (run : Operation.runAll s ops = .ok s') : s'.Reachable := by
  induction ops generalizing s with
  | nil =>
      cases run
      exact h
  | cons op ops ih =>
      obtain ⟨t, ht, run⟩ := bind_eq_ok.1 run
      exact ih (h.step op ht) run

/-! ### Operations are sequences of writes -/

variable {s s' t : Store} {now : Time} {c id : Id}

theorem writes_recount_of (hw : Writes s t) {cs : List Id} (h : s' = t.recount now cs) :
    Writes s s' :=
  h ▸ hw.trans writes_recount

/-- A collection that was dropped is referred to by no slot, because those went first. -/
theorem writes_without : Writes s (s.without id) := by
  refine .head (.dropSlots s fun x => x.item == .collection id) (.single (.dropCollection ?_))
  intro x hx h
  have hkept := (List.mem_filter.1 hx).2
  simp [h] at hkept

theorem writes_deleteCollection {deleted : Bool}
    (h : s.deleteCollection now id = .ok (deleted, s')) : Writes s s' := by
  rcases deleteCollection_eq_ok h with ⟨-, -, rfl⟩ | ⟨-, -, h⟩
  · exact .refl
  · exact writes_recount_of writes_without h

theorem writes_place [Arithmetic] {slotId parent : Id} {row : Collection} {p : Placed}
    (h : s.place now slotId parent row = .ok (p, s')) : Writes s s' := by
  obtain ⟨t, slots, u, hput, happend, h⟩ := place_eq_ok h
  exact writes_recount_of (.head (.putCollection hput) (appendRefs_eq_ok happend).2.2) h

/-- The slot is put into its new place after the others have made room for it. -/
theorem writes_transplant [Arithmetic] (hl : s.Lawful) {dest : Id} {rank : Int} {x : Slot}
    (h : s.transplant now id dest rank = .ok (x, s')) : Writes s s' := by
  obtain ⟨old, seqno, t, hold, hdest, hguard, hseqno, -, rfl, h⟩ := transplant_eq_ok h
  obtain ⟨hmem, rfl⟩ := slot?_eq_some.1 hold
  have hpos : 0 < seqno := hseqno ▸ numberAt_pos (fun y hy =>
    hl.seqno y (mem_orderedSlots.1 hy).1) rank
  -- the slot itself was not shifted, and the references are those from before
  have hfound : old ∈ (s.shiftFrom now dest seqno old.id).slots.rows :=
    List.mem_map.2 ⟨old, hmem, if_neg fun h => h.2.2 rfl⟩
  have hguard' : (s.shiftFrom now dest seqno old.id).guard dest old.item = .ok () := by
    refine guard_eq_ok.2 fun d hd hcontains => guard_eq_ok.1 hguard d hd ?_
    refine hcontains.mono fun c e he => ?_
    obtain ⟨y, hy, howner, hitem⟩ := mem_childrenOf.1 he
    obtain ⟨z, hz, rfl⟩ := List.mem_map.1 hy
    refine mem_childrenOf.2 ⟨z, hz, ?_, ?_⟩
    · rw [← howner]
      split <;> rfl
    · rw [← hitem]
      split <;> rfl
  exact writes_recount_of ((shiftFrom_relabelled s dest seqno old.id).writes.tail
    (.placeSlot (moved now dest seqno) (fun _ => rfl) hfound hdest hpos (.inl rfl) hguard')) h

theorem writes_link {a : Id}
    (huncollected : ∀ row, s.collection? c = some row → row.isUncollected = true)
    (h : s.link now a c = .ok s') : Writes s s' := by
  obtain ⟨t, hset, rfl⟩ := link_eq_ok h
  refine .tail (.single (.setLink huncollected hset)) (.editAuthority _ _ _ _ ?_)
  exact fun _ => rfl

/-- A new collection for an authority is of the kind that it is linked as. -/
theorem writes_bucketOf {fresh : Id} {a : Authority} {created : Bool}
    (h : s.bucketOf now fresh a = .ok ((c, created), s')) : Writes s s' := by
  rcases bucketOf_eq_ok h with ⟨_, -, -, -, -, rfl⟩ | ⟨-, -, -, t, hput, hlink⟩
  · exact .refl
  · refine .head (.putCollection hput) (writes_link (fun row hrow => ?_) hlink)
    obtain ⟨-, -, collections, hrows, rfl⟩ := putCollection_eq_ok.1 hput
    obtain ⟨hrow, hid⟩ := collection?_eq_some.1 hrow
    have hnew : Collection.create fresh now uncollectedTitle .uncollected ∈ collections.rows :=
      hrows ▸ List.mem_append_right _ List.mem_cons_self
    rw [Table.eq_of_key_eq hrow hnew hid]
    rfl

theorem writes_prepare {fresh a : Id} {p : Prepared} (h : s.prepare now fresh a = .ok (p, s')) :
    Writes s s' := by
  obtain ⟨row, t, u, hlock, hbucket, hprune⟩ := prepare_eq_ok h
  obtain ⟨-, rfl⟩ := lockAuthority_eq_ok hlock
  have hw : Writes s u := by
    refine .head (.editAuthority _ _ _ _ ?_) (writes_bucketOf hbucket)
    exact fun _ => rfl
  rcases hprune with ⟨-, -, rfl⟩ | ⟨-, hprune⟩
  · exact hw
  · cases (Prod.ext_iff.1 hprune).2
    exact hw.tail (.dropSlots ..)

theorem writes_refresh [Arithmetic] {fresh : ℕ → Id} {a : Id} {o : RefreshOutcome}
    (h : s.refresh now fresh a = .ok (o, s')) : Writes s s' := by
  obtain ⟨p, t, slots, u, bucket, hprepare, happend, h, -, -⟩ := refresh_eq_ok h
  exact writes_recount_of ((writes_prepare hprepare).trans (appendRefs_eq_ok happend).2.2) h

/-- The collections of `t` were there in `s`, and of the same kind. -/
def KindsFrom (s t : Store) : Prop :=
  ∀ c row, t.collection? c = some row → ∃ old, s.collection? c = some old ∧ old.kind = row.kind

theorem KindsFrom.refl (s : Store) : s.KindsFrom s := fun _ row hrow => ⟨row, hrow, rfl⟩

theorem KindsFrom.recount {cs : List Id} (h : s.KindsFrom t) :
    s.KindsFrom (t.recount now cs) := by
  intro c row hrow
  rw [recount_collection?, Option.map_eq_some_iff] at hrow
  obtain ⟨mid, hmid, rfl⟩ := hrow
  obtain ⟨old, hold, hkind⟩ := h c mid hmid
  exact ⟨old, hold, hkind.trans (recountedIn_kind ..).symm⟩

theorem kindsFrom_deleteCollection {deleted : Bool}
    (h : s.deleteCollection now id = .ok (deleted, s')) : s.KindsFrom s' := by
  rcases deleteCollection_eq_ok h with ⟨-, -, rfl⟩ | ⟨-, -, rfl⟩
  · exact .refl _
  · refine .recount fun c row hrow => ?_
    obtain ⟨hrow, hid⟩ := collection?_eq_some.1 hrow
    exact ⟨row, collection?_eq_some.2 ⟨(List.mem_filter.1 hrow).1, hid⟩, rfl⟩

/-- A link is written down with the authority, and nowhere else. -/
theorem link_content {a : Id} (h : s.link now a c = .ok s') :
    s'.manifestations = s.manifestations ∧ s'.slots = s.slots ∧
      s'.collections = s.collections := by
  obtain ⟨t, hset, rfl⟩ := link_eq_ok h
  rcases setLink_eq_ok hset with ⟨-, rfl⟩ | ⟨-, -, rfl⟩ <;> exact ⟨rfl, rfl, rfl⟩

/-- What becomes of one orphan: it is linked and counted anew, or deleted. -/
theorem resolve_eq_ok {fate : OrphanFate} (h : s.resolve now c fate = .ok s') :
    (∃ a t, s.link now a c = .ok t ∧ s' = t.recount now (t.upward c)) ∨
      ∃ deleted, s.deleteCollection now c = .ok (deleted, s') := by
  unfold resolve at h
  split at h
  · obtain ⟨t, hlink, hpropagate⟩ := bind_eq_ok.1 h
    exact .inl ⟨_, t, hlink, (propagate_eq_ok.1 hpropagate).2⟩
  · obtain ⟨⟨deleted, t⟩, hdelete, ht⟩ := bind_eq_ok.1 h
    cases pure_eq_ok.1 ht
    exact .inr ⟨deleted, hdelete⟩

theorem kindsFrom_resolve {fate : OrphanFate} (h : s.resolve now c fate = .ok s') :
    s.KindsFrom s' := by
  rcases resolve_eq_ok h with ⟨a, t, hlink, rfl⟩ | ⟨deleted, hdelete⟩
  · refine .recount fun d row hrow => ⟨row, ?_, rfl⟩
    rw [collection?, ← (link_content hlink).2.2]
    exact hrow
  · exact kindsFrom_deleteCollection hdelete

theorem writes_resolve {fate : OrphanFate}
    (huncollected : ∀ row, s.collection? c = some row → row.isUncollected = true)
    (h : s.resolve now c fate = .ok s') : Writes s s' := by
  rcases resolve_eq_ok h with ⟨a, t, hlink, h⟩ | ⟨deleted, hdelete⟩
  · exact writes_recount_of (writes_link huncollected hlink) h
  · exact writes_deleteCollection hdelete

/-- What treating one orphan keeps, the run over all of them keeps; and an orphan is uncollected
when its turn comes, whatever was done to those before it. -/
theorem treat_induction {P : Store → Prop}
    (hresolve : ∀ {s t : Store} {c : Id} {fate : OrphanFate}, P s →
      (∀ row, s.collection? c = some row → row.isUncollected = true) →
        s.resolve now c fate = .ok t → P t)
    {mode : CleanupMode} {linkedNow : List Id} {report : CleanupReport} {cs : List Id}
    {r : CleanupReport} (hs : P s)
    (hcs : ∀ c ∈ cs, ∀ row, s.collection? c = some row → row.isUncollected = true)
    (h : (treat mode now s linkedNow report cs).result = .ok (r, s')) : P s' := by
  induction cs generalizing s linkedNow report with
  | nil =>
      cases h
      exact hs
  | cons c cs ih =>
      simp only [treat] at h
      split at h
      · cases h
      rename_i t hstep
      -- the orphans that are left must still be uncollected after this one was treated
      have ht : P t ∧ s.KindsFrom t := by
        cases mode with
        | dryRun =>
            cases hstep
            exact ⟨hs, .refl s⟩
        | execute =>
            exact ⟨hresolve hs (hcs c List.mem_cons_self) hstep, kindsFrom_resolve hstep⟩
      refine ih ht.1 (fun d hd row hrow => ?_) h
      obtain ⟨old, hold, hkind⟩ := ht.2 d row hrow
      rw [Collection.isUncollected, ← hkind]
      exact hcs d (List.mem_cons_of_mem c hd) old hold

theorem cleanup_induction {P : Store → Prop}
    (hresolve : ∀ {s t : Store} {c : Id} {fate : OrphanFate}, P s →
      (∀ row, s.collection? c = some row → row.isUncollected = true) →
        s.resolve now c fate = .ok t → P t)
    {mode : CleanupMode} {r : CleanupReport} (hs : P s)
    (h : (s.cleanup now mode).result = .ok (r, s')) : P s' := by
  refine treat_induction hresolve hs (fun c hc row hrow => ?_) h
  obtain ⟨orphan, horphan, rfl⟩ := List.mem_map.1 hc
  simp only [orphans, List.mem_mergeSort, List.mem_filter, Bool.and_eq_true] at horphan
  obtain ⟨hmem, hkind, -⟩ := horphan
  obtain ⟨hrow, hid⟩ := collection?_eq_some.1 hrow
  rw [Table.eq_of_key_eq hrow hmem hid]
  exact hkind

/-- **An operation is a sequence of writes.** -/
theorem writes_run [Arithmetic] (hl : s.Lawful) {op : Operation}
    (h : op.run s = .ok s') : Writes s s' := by
  cases op <;> simp only [Operation.run, map_eq_ok, Prod.exists, exists_eq_right] at h
  case createCollection row =>
      exact .single (.putCollection (createCollection_eq_ok.1 h).2)
  case updateCollection now row =>
      obtain ⟨old, hold, hkind, rfl⟩ := updateCollection_eq_ok h
      obtain ⟨hold, hid⟩ := collection?_eq_some.1 hold
      refine .single (.editCollections _ _ (fun x hx => ?_) fun x hx hcount => ?_)
      · split
        · -- the row that is replaced is the one whose kind was compared
          rename_i hx'
          rw [Table.eq_of_key_eq hx hold (hx'.trans hid.symm)]
          exact hkind.symm
        · rfl
      · split <;> exact hcount
  case deleteCollection now id =>
      obtain ⟨_, h⟩ := h
      exact writes_deleteCollection h
  case addItem now id c r a =>
      obtain ⟨x, h⟩ := h
      obtain ⟨-, htarget, hguard, rfl, rfl, rfl, t, hput, h⟩ := addItem_eq_ok h
      exact writes_recount_of (.single (.putSlot htarget hguard hput)) h
  case appendItem now id c r =>
      obtain ⟨x, h⟩ := h
      obtain ⟨-, htarget, hguard, rfl, rfl, rfl, t, hput, h⟩ := addItem_eq_ok h
      exact writes_recount_of (.single (.putSlot htarget hguard hput)) h
  case appendMany now fresh c rs =>
      obtain ⟨slots, h⟩ := h
      obtain ⟨-, t, happend, h⟩ := appendMany_eq_ok h
      exact writes_recount_of (appendRefs_eq_ok happend).2.2 h
  case updateItem now id a =>
      obtain ⟨x, h⟩ := h
      exact (updateItem_eq_ok h).writes
  case retargetItem now id r =>
      obtain ⟨x, h⟩ := h
      obtain ⟨old, t, hold, htarget, hguard, -, rfl, h⟩ := retargetItem_eq_ok h
      obtain ⟨hmem, rfl⟩ := slot?_eq_some.1 hold
      exact writes_recount_of (.single (.placeSlot (pointed now r) (fun _ => rfl) hmem
        (hl.owner old hmem) (hl.seqno old hmem) (.inr htarget) hguard)) h
  case removeItem now id =>
      obtain ⟨_, h⟩ := h
      rcases removeItem_eq_ok h with ⟨-, -, rfl⟩ | ⟨old, t, -, -, rfl, h⟩
      · exact .refl
      · exact writes_recount_of (.single (.dropSlots ..)) h
  case reorder now c id old new =>
      obtain ⟨items, h⟩ := h
      exact (reorder_eq_ok h).writes
  case moveItem now direction c id =>
      obtain ⟨items, h⟩ := h
      exact (moveItem_eq_ok h).writes
  case transplant now id dest rank =>
      obtain ⟨x, h⟩ := h
      exact writes_transplant hl h
  case addPeriodicalIssue now fresh periodical title =>
      obtain ⟨p, h⟩ := h
      exact writes_place (addPeriodicalIssue_eq_ok h)
  case createPeriodicalWithIssue now fresh title issueTitle =>
      obtain ⟨p, h⟩ := h
      obtain ⟨t, placed, hput, hplace⟩ := createPeriodicalWithIssue_eq_ok h
      exact .head (.putCollection hput) (writes_place hplace)
  case createSubCollection now fresh parent title kind =>
      obtain ⟨p, h⟩ := h
      exact writes_place (createSubCollection_eq_ok h).2
  case createManifestation m => exact .single (.putManifestation h)
  case updateManifestation now m =>
      rw [updateManifestation_eq_ok h]
      exact .single (.editManifestation ..)
  case deleteManifestation now id =>
      obtain ⟨_, h⟩ := h
      rcases deleteManifestation_eq_ok h with ⟨-, -, rfl⟩ | ⟨-, -, h⟩
      · exact .refl
      · exact writes_recount_of (.single (.dropManifestation s id)) h
  case createAuthority a => exact .single (.putAuthority h)
  case updateAuthority now a =>
      rw [updateAuthority_eq_ok h]
      refine .single (.editAuthority _ _ _ _ ?_)
      exact fun _ => rfl
  case deleteAuthority id =>
      cases h
      unfold deleteAuthority
      split
      · exact .single (.dropAuthority s id)
      · exact .refl
  case addInvolvement i => exact .single (.putInvolvement h)
  case removeInvolvement a m role =>
      cases h
      unfold removeInvolvement
      split
      · exact .single (.dropInvolvements ..)
      · exact .refl
  case refresh now fresh a =>
      obtain ⟨o, h⟩ := h
      exact writes_refresh h
  case cleanup now mode =>
      obtain ⟨r, h⟩ := h
      exact cleanup_induction (fun hw hkind h => hw.trans (writes_resolve hkind h)) .refl h
  case recalculate now c =>
      obtain ⟨r, h⟩ := h
      exact writes_recount_of .refl (recalculate_eq_ok h)
  case recalculateAll now =>
      obtain ⟨summary, drifts, h⟩ := h
      exact writes_recount_of .refl (recalculateAll_eq_ok h)

/-! ### What holds in every store that is reached -/

theorem Reachable.lawful [Arithmetic] (h : s.Reachable) : s.Lawful := by
  induction h with
  | empty => exact .empty
  | step _ op run ih => exact (writes_run ih run).lawful ih

theorem Reachable.acyclic [Arithmetic] (h : s.Reachable) : s.Acyclic := by
  induction h with
  | empty => exact fun c d hd => absurd hd List.not_mem_nil
  | step h op run ih => exact (writes_run h.lawful run).acyclic ih

section Kept

variable {P : Store → Prop}

theorem Writes.keep (write : ∀ {s t : Store}, s.Lawful → Write s t → P s → P t) (hw : Writes s t)
    (hl : s.Lawful) (h : P s) : P t := by
  induction hw with
  | refl => exact h
  | tail hws hw ih => exact write (Writes.lawful hws hl) hw ih

/-- **What every write keeps holds in every store that is reached**, if it holds in the store
without rows. -/
theorem Reachable.of_write [Arithmetic] (empty : P .empty)
    (write : ∀ {s t : Store}, s.Lawful → Write s t → P s → P t) (h : s.Reachable) : P s := by
  induction h with
  | empty => exact empty
  | step h op run ih => exact Writes.keep write (writes_run h.lawful run) h.lawful ih

end Kept

/-- A slot of the collection `c` refers to the collection `d`. -/
def Refers (s : Store) (c d : Id) : Prop :=
  ∃ x ∈ s.slots.rows, x.owner = c ∧ x.item = .collection d

instance {d : Id} : Decidable (s.Refers c d) :=
  inferInstanceAs (Decidable (∃ x ∈ s.slots.rows, x.owner = c ∧ x.item = .collection d))

theorem refers_iff {d : Id} : s.Refers c d ↔ d ∈ s.childrenOf c := mem_childrenOf.symm

theorem reflTransGen_refers_iff {d : Id} : ReflTransGen s.Refers c d ↔ s.Contains c d := by
  have hstep : s.Refers = fun c d => d ∈ s.childrenOf c :=
    funext fun _ => funext fun _ => propext refers_iff
  rw [contains_iff, hstep]

/-- **No collection ever contains itself**, directly or through others, whatever operations have
led to the store. -/
theorem Reachable.not_within_itself [Arithmetic] (h : s.Reachable)
    (c : Id) : ¬ TransGen s.Refers c c := by
  intro hcycle
  -- the first reference of a cycle leads to a collection that contains the one it starts from
  obtain ⟨d, hcd, hdc⟩ := Relation.TransGen.head'_iff.1 hcycle
  refine h.acyclic c d (refers_iff.1 hcd) (contains_iff.2 ?_)
  exact ReflTransGen.mono (fun a b hab => refers_iff.1 hab) d c hdc

theorem nested_not_within_itself : ∃ s,
    Operation.runAll .empty [
      .createCollection (.create "series" 0 "Series" .series),
      .createCollection (.create "volume" 0 "Volume" .volume),
      .addItem 0 "slot" "series" (.collection "volume") .unset] = .ok s ∧
    s.Refers "series" "volume" ∧ ¬ TransGen s.Refers "series" "series" := by
  obtain ⟨s, hrun, hrefers⟩ : ∃ s, Operation.runAll .empty [
      .createCollection (.create "series" 0 "Series" .series),
      .createCollection (.create "volume" 0 "Volume" .volume),
      .addItem 0 "slot" "series" (.collection "volume") .unset] = .ok s ∧
      s.Refers "series" "volume" := exists_eq_ok_of_any (by decide +kernel)
  exact ⟨s, hrun, hrefers, Reachable.not_within_itself (.runAll .empty hrun) "series"⟩

end Store

end Anthology
