/-
**Operations as transactions.**

The operations on the store say what becomes of it as a whole, and one that fails returns no store.
Statement by statement there is more to see.  An operation runs inside a transaction, where each
statement finds the rows as the statements before it left them, and when one fails, those before it
have been carried out.  Here every operation is written down statement by statement, and is shown to
be what its transaction commits.  So nothing is left of a transaction that failed half way, although
rows had been written in it.

A sum of words that fits none ends the course like a statement that fails: the call breaks off, and
the transaction is given up with it.

Main definitions:

* `Anthology.Transaction` — a course of statements; `Anthology.Transaction.course` runs it and keeps
  what was written before a failure, `Anthology.Transaction.commit` keeps it only if all succeed;
* `Anthology.Transaction.appendMany`, `Anthology.Transaction.transplant`,
  `Anthology.Transaction.refresh`, `Anthology.Transaction.cleanup` and others — the operations,
  statement by statement;
* `Anthology.Operation.transaction` — the transaction of an operation.

Main results:

* `Anthology.Transaction.commit_bind` — a chain commits as its parts do;
* `Anthology.Transaction.commit_appendMany`, `Anthology.Transaction.commit_transplant` and others —
  what the transactions commit;
* `Anthology.Operation.run_eq_commit` — **every operation is what its transaction commits**.
-/

import Anthology.Proofs.Operation

set_option relaxedAutoImplicit false
set_option autoImplicit false

namespace Anthology

/-! ### Transactions -/

/-- A course of statements against the rows of a store.  A statement that fails ends the course, and
the rows stay as the statements before it left them. -/
abbrev Transaction := ExceptT Fault (StateM Store)

namespace Transaction

variable {α β : Type}

/-- How the course ended, and the rows it left. -/
def course (t : Transaction α) (s : Store) : Except Fault α × Store := t.run.run s

/-- What comes of the course: the rows it left if it succeeded, and nothing otherwise. -/
def commit (t : Transaction α) (s : Store) : Except Fault (α × Store) :=
  match t.course s with
  | (.ok a, s) => .ok (a, s)
  | (.error f, _) => .error f

/-- One statement, which writes all that it is to write or fails. -/
def statement (f : Store → Except Fault (α × Store)) : Transaction α :=
  fun s =>
    match f s with
    | .ok (a, t) => (.ok a, t)
    | .error f => (.error f, s)

/-- A statement without an answer. -/
def write (f : Store → Except Fault Store) : Transaction Unit :=
  statement fun s => do return ((), ← f s)

/-- A statement that writes nothing. -/
def look (f : Store → Except Fault α) : Transaction α := statement fun s => do return (← f s, s)

/-- What the rows say, which cannot fail. -/
def view (f : Store → α) : Transaction α := statement fun s => .ok (f s, s)

variable {s t : Store}

theorem course_bind (x : Transaction α) (k : α → Transaction β) (s : Store) :
    (x >>= k).course s =
      match x.course s with
      | (.ok a, t) => (k a).course t
      | (.error f, t) => (.error f, t) := by
  simp only [course, ExceptT.run_bind, StateT.run_bind]
  rcases x.run.run s with ⟨_ | a, t⟩ <;> rfl

theorem course_statement (f : Store → Except Fault (α × Store)) (s : Store) :
    (statement f).course s =
      match f s with
      | .ok (a, t) => (.ok a, t)
      | .error g => (.error g, s) := rfl

theorem commit_pure (a : α) (s : Store) : (pure a : Transaction α).commit s = .ok (a, s) := rfl

theorem commit_bind (x : Transaction α) (k : α → Transaction β) (s : Store) :
    (x >>= k).commit s = x.commit s >>= fun r => (k r.1).commit r.2 := by
  rw [commit, course_bind, commit]
  rcases x.course s with ⟨_ | a, t⟩ <;> rfl

theorem commit_statement (f : Store → Except Fault (α × Store)) (s : Store) :
    (statement f).commit s = f s := by
  rw [commit, course_statement]
  rcases f s with _ | ⟨a, t⟩ <;> rfl

theorem commit_write (f : Store → Except Fault Store) (s : Store) :
    (write f).commit s = do return ((), ← f s) := commit_statement _ s

theorem commit_look (f : Store → Except Fault α) (s : Store) :
    (look f).commit s = do return (← f s, s) := commit_statement _ s

theorem commit_view (f : Store → α) (s : Store) : (view f).commit s = pure (f s, s) := rfl

/-! ### Counting anew, statement by statement -/

section Counts

variable (now : Time)

/-- Each cached number that is wrong is a row to write. -/
def refreshCounts : List Id → Transaction Unit
  | [] => pure ()
  | c :: cs => do
    let _ ← statement fun s => s.refreshCount now c
    refreshCounts cs

def propagate (c : Id) : Transaction Unit := do
  let cs ← view fun s => s.upward c
  refreshCounts now cs

def propagateIf (affected : Bool) (c : Id) : Transaction Unit :=
  if affected then propagate now c else pure ()

def propagateAll : List Id → Transaction Unit
  | [] => pure ()
  | c :: cs => do
    propagate now c
    propagateAll cs

def recalculate (c : Id) : Transaction Recount := do
  let _ ← look fun s => s.requireCollection c
  statement fun s => s.refreshCount now c

def repair : List Id → Transaction (List Drift)
  | [] => pure []
  | c :: cs => do
    let recount ← statement fun s => s.refreshCount now c
    let drifts ← repair cs
    return if recount.drifted then ⟨c, recount⟩ :: drifts else drifts

def recalculateAll : Transaction (RecalculateSummary × List Drift) := do
  let size ← view fun s => s.collections.size
  let ids ← view Store.collectionIds
  let drifts ← repair now ids
  return (⟨size, drifts.length⟩, drifts)

end Counts

/-! ### Slots, statement by statement -/

section Slots

variable (now : Time)

def retargetItem (id : Id) (r : ItemRef) : Transaction Slot := do
  let slot ← look fun s => s.requireSlot id
  look fun s => s.requireTarget r
  look fun s => s.guard slot.owner r
  write fun s => .ok (s.editSlot id (Store.pointed now r) (Store.pointed_id r))
  propagateIf now (slot.item.affectsCount || r.affectsCount) slot.owner
  return Store.pointed now r slot

def removeItem (id : Id) : Transaction Bool := do
  match ← look fun s => s.fetchSlot id with
  | none => return false
  | some slot =>
    write fun s => .ok (s.dropSlots fun x => x.id == id)
    propagateIf now slot.item.affectsCount slot.owner
    return true

/-- A slot is a row to write where its number changes. -/
def renumberSlot (n : Int) (x : Slot) : Transaction Unit :=
  if x.seqno = n then pure () else write fun s => .ok (s.setSeqno now x.id n)

def renumberFrom (n : Int) : List Slot → Transaction Unit
  | [] => pure ()
  | x :: xs => do
    renumberSlot now n x
    renumberFrom (n + 1) xs

def renumber (items : List Slot) : Transaction (List Slot) := do
  renumberFrom now 1 items
  return Store.numberedFrom 1 items

def reorder (c id : Id) (old new : ℕ) : Transaction (List Slot) := do
  let _ ← look fun s => s.requireCollection c
  let items ← look fun s => s.readSlots c
  let position ← look fun _ => Store.positionOf items c id
  if old = new then return items
  else renumber now (Store.relocate items position (min new (items.length - 1)))

def moveItem (direction : Store.Direction) (c id : Id) : Transaction (List Slot) := do
  let _ ← look fun s => s.requireCollection c
  let items ← look fun s => s.readSlots c
  let position ← look fun _ => Store.positionOf items c id
  match direction.neighbour? position items.length with
  | none => return items
  | some neighbour => renumber now (Store.exchange items position neighbour)

variable [Arithmetic]

def addItem (id c : Id) (r : ItemRef) (a : SlotAttrs) : Transaction Slot := do
  let _ ← look fun s => s.requireCollection c
  look fun s => s.requireTarget r
  look fun s => s.guard c r
  let seqno ← look fun s => s.placeFor c a.seqno
  let slot := { Slot.create id now c r seqno with altTitle := a.altTitle, markdown := a.markdown }
  write fun s => s.insertSlot slot
  propagateIf now r.affectsCount c
  return slot

def appendFrom (fresh : ℕ → Id) (c : Id) (seqno : Int) (k : ℕ) :
    List ItemRef → Transaction (List Slot)
  | [] => pure []
  | r :: rs => do
    look fun s => s.requireTarget r
    look fun s => s.guard c r
    let slot := Slot.create (fresh k) now c r seqno
    write fun s => s.insertSlot slot
    let next ← look fun _ => Word.next seqno
    let slots ← appendFrom fresh c next (k + 1) rs
    return slot :: slots

def appendRefs (fresh : ℕ → Id) (c : Id) (rs : List ItemRef) : Transaction (List Slot) := do
  let seqno ← look fun s => s.nextPlace c
  appendFrom now fresh c seqno 0 rs

def appendMany (fresh : ℕ → Id) (c : Id) (rs : List ItemRef) : Transaction (List Slot) := do
  let _ ← look fun s => s.requireCollection c
  let slots ← appendRefs now fresh c rs
  propagateIf now (rs.any ItemRef.affectsCount) c
  return slots

/-- Room has been made when the number of the slot is refused. -/
def transplant (id dest : Id) (rank : Int) : Transaction Slot := do
  let slot ← look fun s => s.requireSlot id
  let _ ← look fun s => s.requireCollection dest
  look fun s => s.guard dest slot.item
  let items ← look fun s => s.readSlots dest
  let seqno ← look fun _ => Store.seqnoAt items rank
  write fun s => .ok (s.shiftFrom now dest seqno id)
  write fun s => do
    Store.ensure (decide (0 < seqno)) (.violated .seqnoPositive)
    return s.editSlot id (Store.moved now dest seqno) (Store.moved_id dest seqno)
  let affected := slot.item.affectsCount && slot.owner != dest
  propagateIf now affected slot.owner
  propagateIf now affected dest
  return Store.moved now dest seqno slot

end Slots

/-! ### Collections and works, statement by statement -/

section Records

variable (now : Time)

def deleteCollection (id : Id) : Transaction Bool := do
  if ← view fun s => s.hasCollection id then
    let parents ← view fun s => s.parentsOf id
    write fun s => .ok (s.dropSlots fun x => x.item == .collection id)
    write fun s => .ok (s.dropCollection id)
    propagateAll now parents
    return true
  else return false

/-- A deletion that finds nothing writes nothing. -/
def deleteManifestation (id : Id) : Transaction Bool := do
  let holders ← view fun s => s.holdersOf (.manifestation id)
  let deleted ← statement fun s =>
    .ok (if s.hasManifestation id then (true, s.dropManifestation id) else (false, s))
  propagateAll now (if deleted then holders else [])
  return deleted

variable [Arithmetic]

def place (slotId parent : Id) (c : Collection) : Transaction Placed := do
  write fun s => s.putCollection c
  let slots ← appendRefs now (fun _ => slotId) parent [.collection c.id]
  let slot ← look fun _ => Store.require "CollectionItem" c.id slots.getLast?
  propagate now parent
  return ⟨c, slot⟩

def addPeriodicalIssue (fresh : ℕ → Id) (periodical : Id) (title : String) :
    Transaction Placed := do
  let _ ← look fun s => s.requireCollection periodical
  place now (fresh 1) periodical (.create (fresh 0) now title .periodicalIssue)

def createSubCollection (fresh : ℕ → Id) (parent : Id) (title : String) (kind : CollectionKind) :
    Transaction Placed := do
  look fun _ => Store.editable kind
  let _ ← look fun s => s.requireCollection parent
  place now (fresh 1) parent (.create (fresh 0) now title kind)

def createPeriodicalWithIssue (fresh : ℕ → Id) (title issueTitle : String) :
    Transaction PeriodicalWithIssue := do
  look fun _ => Store.entitled title issueTitle
  let periodical := Collection.create (fresh 0) now title .periodical
  write fun s => s.putCollection periodical
  let placed ← place now (fresh 2) periodical.id
    (.create (fresh 1) now issueTitle .periodicalIssue)
  return ⟨periodical, placed.collection, placed.slot⟩

end Records

/-! ### Upkeep, statement by statement -/

section Upkeep

variable (now : Time)

def bucketOf (fresh : Id) (a : Authority) : Transaction (Id × Bool) := do
  match ← view fun s => a.uncollected.bind s.collection? with
  | some c =>
    look fun _ => Store.ensure c.isUncollected (.invalidInput "uncollected_works_collection_id"
      s!"linked collection {c.id} has type {c.kind.name}")
    return (c.id, false)
  | none =>
    write fun s => s.putCollection (.create fresh now Store.uncollectedTitle .uncollected)
    write fun s => s.link now a.id fresh
    return (fresh, true)

def prepare (fresh a : Id) : Transaction Store.Prepared := do
  let row ← statement fun s => s.lockAuthority now a
  let (c, created) ← bucketOf now fresh row
  let removed ← if created then pure 0 else statement fun s => .ok (s.prune c)
  return ⟨c, created, removed⟩

def refresh [Arithmetic] (fresh : ℕ → Id) (a : Id) : Transaction RefreshOutcome := do
  let p ← prepare now (fresh 0) a
  let works ← view fun s => s.candidates a p.collection
  let added ← appendRefs now (p.slotIds fresh) p.collection (works.map .manifestation)
  propagate now p.collection
  let bucket ← look fun s => ((s.collection? p.collection).elim (.error (.storage .noRow)) .ok)
  return {
    authority := a
    collection := p.collection
    created := p.created
    removed := p.removed
    added := added.length
    count := bucket.count }

def resolve (c : Id) : OrphanFate → Transaction Unit
  | .link a => do
    write fun s => s.link now a c
    propagate now c
  | _ => do
    let _ ← deleteCollection now c

/-- A dry run ends the transaction without a statement that writes. -/
def resolveIn (mode : CleanupMode) (c : Id) (fate : OrphanFate) : Transaction Unit :=
  match mode with
  | .dryRun => pure ()
  | .execute => resolve now c fate

/-- The orphans are classified as the rows are when their turn comes. -/
def treat (mode : CleanupMode) (linkedNow : List Id) (report : CleanupReport) :
    List Id → Transaction CleanupReport
  | [] => pure report
  | c :: cs => do
    let fate ← view fun s => s.fateOf linkedNow c
    resolveIn now mode c fate
    treat mode (fate.linked?.toList ++ linkedNow) (report.count fate) cs

def cleanup (mode : CleanupMode) : Transaction CleanupReport := do
  let orphans ← view Store.orphans
  treat now mode [] (.start mode orphans.length) (orphans.map Collection.id)

end Upkeep

/-- A course of which only the rows matter. -/
def rows (x : Transaction α) : Transaction Unit := do
  let _ ← x

end Transaction

open Transaction in
/-- The transaction of an operation.  Where one statement does it all, it is that statement. -/
def Operation.transaction [Arithmetic] : Operation → Transaction Unit
  | createCollection row => write fun s => s.createCollection row
  | updateCollection now row => write fun s => s.updateCollection now row
  | deleteCollection now id => rows (Transaction.deleteCollection now id)
  | addItem now id c r a => rows (Transaction.addItem now id c r a)
  | appendItem now id c r => rows (Transaction.addItem now id c r .unset)
  | appendMany now fresh c rs => rows (Transaction.appendMany now fresh c rs)
  | updateItem now id a => rows (statement fun s => s.updateItem now id a)
  | retargetItem now id r => rows (Transaction.retargetItem now id r)
  | removeItem now id => rows (Transaction.removeItem now id)
  | reorder now c id old new => rows (Transaction.reorder now c id old new)
  | moveItem now direction c id => rows (Transaction.moveItem now direction c id)
  | transplant now id dest rank => rows (Transaction.transplant now id dest rank)
  | addPeriodicalIssue now fresh periodical title =>
    rows (Transaction.addPeriodicalIssue now fresh periodical title)
  | createPeriodicalWithIssue now fresh title issueTitle =>
    rows (Transaction.createPeriodicalWithIssue now fresh title issueTitle)
  | createSubCollection now fresh parent title kind =>
    rows (Transaction.createSubCollection now fresh parent title kind)
  | createManifestation m => write fun s => s.putManifestation m
  | updateManifestation now m => write fun s => s.updateManifestation now m
  | deleteManifestation now id => rows (Transaction.deleteManifestation now id)
  | createAuthority a => write fun s => s.putAuthority a
  | updateAuthority now a => write fun s => s.updateAuthority now a
  | deleteAuthority id => write fun s => .ok (s.deleteAuthority id).2
  | addInvolvement i => write fun s => s.putInvolvement i
  | removeInvolvement a m role => write fun s => .ok (s.removeInvolvement a m role).2
  | refresh now fresh a => rows (Transaction.refresh now fresh a)
  | cleanup now mode => rows (Transaction.cleanup now mode)
  | recalculate now c => rows (Transaction.recalculate now c)
  | recalculateAll now => rows (Transaction.recalculateAll now)

namespace Transaction

/-! ### What the transactions commit -/

section Commits

variable {α : Type} {now : Time} {fresh : ℕ → Id} {c id : Id} {r : ItemRef}

theorem commit_ite (p : Prop) [Decidable p] (x y : Transaction α) (s : Store) :
    (if p then x else y).commit s = if p then x.commit s else y.commit s :=
  apply_ite (fun t : Transaction α => t.commit s) p x y

theorem commit_refreshCounts (cs : List Id) (s : Store) :
    (refreshCounts now cs).commit s = do return ((), ← s.refreshCounts now cs) := by
  induction cs generalizing s with
  | nil => rfl
  | cons c cs ih =>
      rw [refreshCounts, Store.refreshCounts, commit_bind, commit_statement]
      simp only [ih, bind_assoc]

theorem commit_propagate (c : Id) (s : Store) :
    (propagate now c).commit s = do return ((), ← s.propagate now c) := by
  rw [propagate, commit_bind, commit_view]
  exact commit_refreshCounts _ s

theorem commit_propagateIf (affected : Bool) (c : Id) (s : Store) :
    (propagateIf now affected c).commit s = do return ((), ← s.propagateIf now affected c) := by
  cases affected
  · rfl
  · exact commit_propagate c s

theorem commit_propagateAll (cs : List Id) (s : Store) :
    (propagateAll now cs).commit s = do return ((), ← s.propagateAll now cs) := by
  induction cs generalizing s with
  | nil => rfl
  | cons c cs ih =>
      rw [propagateAll, Store.propagateAll, commit_bind, commit_propagate]
      simp only [ih, bind_assoc, pure_bind]

theorem commit_recalculate (s : Store) : (recalculate now c).commit s = s.recalculate now c := by
  simp only [recalculate, Store.recalculate, commit_bind, commit_look, commit_statement, bind_assoc,
    pure_bind]

theorem commit_repair (cs : List Id) (s : Store) :
    (repair now cs).commit s = s.repair now cs := by
  induction cs generalizing s with
  | nil => rfl
  | cons c cs ih =>
      simp only [repair, Store.repair, commit_bind, commit_statement, commit_pure, ih]
      rfl

theorem commit_recalculateAll (s : Store) :
    (recalculateAll now).commit s = s.recalculateAll now := by
  simp only [recalculateAll, Store.recalculateAll, commit_bind, commit_view, commit_repair,
    commit_pure, pure_bind]
  rfl

theorem commit_addItem [Arithmetic] {a : SlotAttrs} (s : Store) :
    (addItem now id c r a).commit s = s.addItem now id c r a := by
  simp only [addItem, Store.addItem, commit_bind, commit_look, commit_write, commit_propagateIf,
    commit_pure, bind_assoc, pure_bind]
  rfl

theorem commit_appendFrom [Arithmetic] {seqno : Int} {k : ℕ} (rs : List ItemRef) (s : Store) :
    (appendFrom now fresh c seqno k rs).commit s = Store.appendFrom now fresh c s seqno k rs := by
  induction rs generalizing s seqno k with
  | nil => rfl
  | cons r rs ih =>
      simp only [appendFrom, Store.appendFrom, commit_bind, commit_look, commit_write, commit_pure,
        ih, bind_assoc, pure_bind]
      rfl

theorem commit_appendRefs [Arithmetic] (rs : List ItemRef) (s : Store) :
    (appendRefs now fresh c rs).commit s = s.appendRefs now fresh c rs := by
  simp only [appendRefs, Store.appendRefs, commit_bind, commit_look, commit_appendFrom, bind_assoc,
    pure_bind]

theorem commit_appendMany [Arithmetic] (rs : List ItemRef) (s : Store) :
    (appendMany now fresh c rs).commit s = s.appendMany now fresh c rs := by
  simp only [appendMany, Store.appendMany, commit_bind, commit_look, commit_appendRefs,
    commit_propagateIf, commit_pure, bind_assoc, pure_bind]
  rfl

theorem commit_retargetItem (s : Store) :
    (retargetItem now id r).commit s = s.retargetItem now id r := by
  simp only [retargetItem, Store.retargetItem, commit_bind, commit_look, commit_write,
    commit_propagateIf, commit_pure, bind_assoc, pure_bind]
  rfl

theorem commit_removeItem (s : Store) : (removeItem now id).commit s = s.removeItem now id := by
  simp only [removeItem, Store.removeItem, commit_bind, commit_look, bind_assoc, pure_bind]
  refine bind_congr fun found => ?_
  cases found with
  | none => rfl
  | some slot =>
      simp only [commit_bind, commit_write, commit_propagateIf, commit_pure, bind_assoc, pure_bind]
      rfl

theorem commit_renumberFrom (xs : List Slot) (n : Int) (s : Store) :
    (renumberFrom now n xs).commit s = .ok ((), Store.renumberFrom now s n xs) := by
  induction xs generalizing n s with
  | nil => rfl
  | cons x xs ih =>
      rw [renumberFrom, Store.renumberFrom, commit_bind, renumberSlot, commit_ite]
      split
      · exact ih (n + 1) s
      · exact ih (n + 1) (s.setSeqno now x.id n)

theorem commit_renumber (xs : List Slot) (s : Store) :
    (renumber now xs).commit s = .ok (s.renumber now xs) := by
  rw [renumber, commit_bind, commit_renumberFrom]
  rfl

theorem commit_reorder {old new : ℕ} (s : Store) :
    (reorder now c id old new).commit s = s.reorder now c id old new := by
  simp only [reorder, Store.reorder, commit_bind, commit_look, commit_ite, commit_renumber,
    commit_pure, bind_assoc, pure_bind]
  rfl

theorem commit_moveItem {direction : Store.Direction} (s : Store) :
    (moveItem now direction c id).commit s = s.moveItem now direction c id := by
  simp only [moveItem, Store.moveItem, commit_bind, commit_look, bind_assoc, pure_bind]
  refine bind_congr fun _ => bind_congr fun items => bind_congr fun position => ?_
  cases direction.neighbour? position items.length with
  | none => rfl
  | some neighbour => exact commit_renumber _ s

theorem commit_transplant [Arithmetic] {dest : Id} {rank : Int} (s : Store) :
    (transplant now id dest rank).commit s = s.transplant now id dest rank := by
  simp only [transplant, Store.transplant, commit_bind, commit_look, commit_write,
    commit_propagateIf, commit_pure, bind_assoc, pure_bind]
  rfl

theorem commit_deleteCollection (s : Store) :
    (deleteCollection now id).commit s = s.deleteCollection now id := by
  simp only [deleteCollection, Store.deleteCollection, commit_bind, commit_view, commit_ite,
    commit_write, commit_propagateAll, commit_pure, bind_assoc, pure_bind]
  rfl

theorem commit_deleteManifestation (s : Store) :
    (deleteManifestation now id).commit s = s.deleteManifestation now id := by
  simp only [deleteManifestation, Store.deleteManifestation, commit_bind, commit_view,
    commit_statement, commit_propagateAll, commit_pure, bind_assoc, pure_bind]
  split <;> rfl

theorem commit_place [Arithmetic] {slotId parent : Id} {row : Collection} (s : Store) :
    (place now slotId parent row).commit s = s.place now slotId parent row := by
  simp only [place, Store.place, commit_bind, commit_look, commit_write, commit_appendRefs,
    commit_propagate, commit_pure, bind_assoc, pure_bind]
  rfl

theorem commit_addPeriodicalIssue [Arithmetic] {title : String} (s : Store) :
    (addPeriodicalIssue now fresh c title).commit s = s.addPeriodicalIssue now fresh c title := by
  simp only [addPeriodicalIssue, Store.addPeriodicalIssue, commit_bind, commit_look, commit_place,
    bind_assoc, pure_bind]

theorem commit_createSubCollection [Arithmetic] {title : String} {kind : CollectionKind}
    (s : Store) :
    (createSubCollection now fresh c title kind).commit s =
      s.createSubCollection now fresh c title kind := by
  simp only [createSubCollection, Store.createSubCollection, commit_bind, commit_look, commit_place,
    bind_assoc, pure_bind]

theorem commit_createPeriodicalWithIssue [Arithmetic] {title issueTitle : String} (s : Store) :
    (createPeriodicalWithIssue now fresh title issueTitle).commit s =
      s.createPeriodicalWithIssue now fresh title issueTitle := by
  simp only [createPeriodicalWithIssue, Store.createPeriodicalWithIssue, commit_bind, commit_look,
    commit_write, commit_place, commit_pure, bind_assoc, pure_bind]
  rfl

theorem commit_bucketOf {a : Authority} (s : Store) :
    (bucketOf now id a).commit s = s.bucketOf now id a := by
  rw [bucketOf, commit_bind, commit_view, pure_bind]
  unfold Store.bucketOf
  cases a.uncollected.bind s.collection? with
  | some row =>
      simp only [commit_bind, commit_look, commit_pure, bind_assoc, pure_bind]
      cases row.isUncollected <;> rfl
  | none =>
      simp only [commit_bind, commit_write, commit_pure, bind_assoc, pure_bind]
      rfl

theorem commit_prepare {a : Id} (s : Store) :
    (prepare now id a).commit s = s.prepare now id a := by
  simp only [prepare, Store.prepare, commit_bind, commit_statement, commit_bucketOf]
  refine bind_congr ?_
  rintro ⟨row, t⟩
  refine bind_congr ?_
  rintro ⟨⟨c, created⟩, u⟩
  cases created <;> rfl

theorem commit_refresh [Arithmetic] {a : Id} (s : Store) :
    (refresh now fresh a).commit s = s.refresh now fresh a := by
  simp only [refresh, Store.refresh, commit_bind, commit_view, commit_look, commit_prepare,
    commit_appendRefs, commit_propagate, commit_pure, bind_assoc, pure_bind]
  refine bind_congr ?_
  rintro ⟨p, t⟩
  refine bind_congr ?_
  rintro ⟨slots, u⟩
  refine bind_congr fun v => ?_
  cases v.collection? p.collection <;> rfl

theorem commit_resolve (fate : OrphanFate) (s : Store) :
    (resolve now c fate).commit s = do return ((), ← s.resolve now c fate) := by
  cases fate with
  | link a =>
      simp only [resolve, Store.resolve, commit_bind, commit_write, commit_propagate, bind_assoc,
        pure_bind]
  | deleteEmpty | deleteDuplicate | deleteUnfixable =>
      simp only [resolve, Store.resolve, commit_bind, commit_deleteCollection, bind_assoc]
      rfl

theorem commit_treat {mode : CleanupMode} (cs linkedNow : List Id) (report : CleanupReport)
    (s : Store) : (treat now mode linkedNow report cs).commit s =
      (Store.treat mode now s linkedNow report cs).result := by
  induction cs generalizing s linkedNow report with
  | nil => rfl
  | cons c cs ih =>
      rw [treat, commit_bind, commit_view, pure_bind, commit_bind, Store.treat]
      cases mode with
      | dryRun => exact ih ..
      | execute =>
          rw [resolveIn, commit_resolve, Store.resolveIn]
          cases s.resolve now c (s.fateOf linkedNow c) with
          | error f => rfl
          | ok t => exact ih ..

theorem commit_cleanup {mode : CleanupMode} (s : Store) :
    (cleanup now mode).commit s = (s.cleanup now mode).result :=
  commit_treat ..

/-- What becomes of the rows does not depend on what is answered. -/
theorem rows_commit {x : Transaction α} {s : Store} {y : Except Fault (α × Store)}
    (h : x.commit s = y) : y.map Prod.snd = ((rows x).commit s).map Prod.snd := by
  subst h
  rw [rows, commit_bind]
  cases x.commit s <;> rfl

theorem write_commit (f : Store → Except Fault Store) (s : Store) :
    f s = ((write f).commit s).map Prod.snd := by
  rw [commit_write]
  cases f s <;> rfl

end Commits

end Transaction

open Transaction in
/-- **Every operation is what its transaction commits.**  Where the course of its statements fails,
so does the operation, and what had been written is given up. -/
theorem Operation.run_eq_commit [Arithmetic] (op : Operation) (s : Store) :
    op.run s = (op.transaction.commit s).map Prod.snd := by
  cases op with
  | deleteCollection => exact rows_commit (commit_deleteCollection s)
  | addItem | appendItem => exact rows_commit (commit_addItem s)
  | appendMany => exact rows_commit (commit_appendMany _ s)
  | updateItem => exact rows_commit (commit_statement _ s)
  | retargetItem => exact rows_commit (commit_retargetItem s)
  | removeItem => exact rows_commit (commit_removeItem s)
  | reorder => exact rows_commit (commit_reorder s)
  | moveItem => exact rows_commit (commit_moveItem s)
  | transplant => exact rows_commit (commit_transplant s)
  | addPeriodicalIssue => exact rows_commit (commit_addPeriodicalIssue s)
  | createPeriodicalWithIssue => exact rows_commit (commit_createPeriodicalWithIssue s)
  | createSubCollection => exact rows_commit (commit_createSubCollection s)
  | deleteManifestation => exact rows_commit (commit_deleteManifestation s)
  | refresh => exact rows_commit (commit_refresh s)
  | cleanup => exact rows_commit (commit_cleanup s)
  | recalculate => exact rows_commit (commit_recalculate s)
  | recalculateAll => exact rows_commit (commit_recalculateAll s)
  | createCollection | updateCollection | createManifestation | updateManifestation
  | createAuthority | updateAuthority | deleteAuthority | addInvolvement | removeInvolvement =>
      rw [transaction, ← write_commit]
      rfl

end Anthology
