/-
**Answers of a session.**

A request is answered by a reply or by a fault.  A request that fails leaves the store as it was,
takes no ids and announces nothing, unless only the read behind its step failed.  What the request
changed is announced once it is done, and then the upkeep in the background, if it runs, refreshes
the authorities whose credits were announced to have changed.

Some faults of a request show before the store is looked at: a record with a flaw, a title that is
blank, a kind that editors may not choose.  They come before the faults of a session that is closed
or locked, and all others come after.

Main definitions:

* `Anthology.Session.answer` — the answer to a request, without the upkeep in the background;
* `Anthology.Session.step`, `Anthology.Session.stepAll` — a request, or several as one, with
  everything that follows.
-/

import Anthology.Session.Basic

set_option relaxedAutoImplicit false
set_option autoImplicit false

namespace Anthology

namespace Session

/-! ### Announcements -/

def announceAll (n : Session) (es : List Event) : Session := es.foldl announce n

def logAll (n : Session) (entries : List LogEntry) : Session := entries.foldl log n

/-- A collection is there. -/
def madeEvent (c : Collection) : Event := .collection (.created c.id c.title)

/-- The slots of a collection changed. -/
def itemsEvent (c : Id) : Event := .collection (.itemsChanged c)

/-- The credits of an authority changed. -/
def creditEvent (a : Id) : Event := .authority (.involvementChanged a)

/-- The number of ids that a record takes that may bring its own. -/
def idsFor (own : Option Id) : Nat := if own.isNone then 1 else 0

/-! ### Collections -/

def createCollection (n : Session) (d : CollectionDraft) : Except Fault (Reply × Session) := do
  let c := d.complete (n.ids.id 0) n.now
  Store.editable c.kind
  Store.inspect "Collection" c.flaw?
  let (_, n) ← n.edit (fun _ => idsFor d.id) fun s => do return ((), ← s.createCollection c)
  return (.collection c, n.announce (madeEvent c))

def updateCollection (n : Session) (d : CollectionDraft) : Except Fault (Reply × Session) := do
  let c := d.complete (n.ids.id 0) n.now
  Store.inspect "Collection" c.flaw?
  let (_, m) ← n.edit (fun _ => idsFor d.id) fun s => do return ((), ← s.updateCollection n.now c)
  return (.nothing, m.announce (.collection (.updated c.id)))

def deleteCollection (n : Session) (id : Id) : Except Fault (Reply × Session) := do
  let (deleted, m) ← n.edit (fun _ => 0) fun s => s.deleteCollection n.now id
  return (.flag deleted, m.announceAll (if deleted then [.collection (.deleted id)] else []))

/-! ### Slots -/

/-- A step on the store that answers with one slot. -/
def editSlot (n : Session) (ids : Nat) (f : Store → Except Fault (Slot × Store)) :
    Except Fault (Reply × Session) := do
  let (slot, m) ← n.edit (fun _ => ids) f
  return (.slot slot, m.announce (itemsEvent slot.owner))

def removeItem (n : Session) (id : Id) : Except Fault (Reply × Session) := do
  match ← n.read fun s => s.fetchSlot id with
  | none => return (.flag false, n)
  | some slot =>
    let (removed, m) ← n.edit (fun _ => 0) fun s => s.removeItem n.now id
    return (.flag removed, m.announceAll (if removed then [itemsEvent slot.owner] else []))

/-- A step on the store that answers with the slots of a collection in their order. -/
def editOrder (n : Session) (c : Id) (announced : Bool)
    (f : Store → Except Fault (List Slot × Store)) : Except Fault (Reply × Session) := do
  let (slots, m) ← n.edit (fun _ => 0) f
  return (.slots slots, m.announceAll (if announced then [itemsEvent c] else []))

def transplant [Arithmetic] (n : Session) (item dest : Id) (rank : Int) :
    Except Fault (Reply × Session) := do
  let old ← n.read fun s => s.fetchSlot item
  let (slot, m) ← n.edit (fun _ => 0) fun s => s.transplant n.now item dest rank
  let source := old.elim slot.owner Slot.owner
  return (.slot slot, m.announce (.collection (.itemTransplanted slot.id source slot.owner)))

/-! ### Collections made in place -/

/-- A step on the store that makes a collection inside `parent`. -/
def editPlaced (n : Session) (parent : Id) (f : Store → Except Fault (Placed × Store)) :
    Except Fault (Reply × Session) := do
  let (placed, m) ← n.edit (fun _ => 2) f
  return (.placed placed, m.announceAll [madeEvent placed.collection, itemsEvent parent])

def createSubCollection [Arithmetic] (n : Session) (parent : Id) (title : String)
    (kind : CollectionKind) : Except Fault (Reply × Session) := do
  Store.editable kind
  n.editPlaced parent fun s => s.createSubCollection n.now n.ids.id parent title kind

def createPeriodicalWithIssue [Arithmetic] (n : Session) (title issueTitle : String) :
    Except Fault (Reply × Session) := do
  Store.entitled title issueTitle
  let (made, m) ← n.edit (fun _ => 3) fun s =>
    s.createPeriodicalWithIssue n.now n.ids.id title issueTitle
  return (.periodical made, m.announceAll
    [madeEvent made.periodical, madeEvent made.issue, itemsEvent made.periodical.id])

/-! ### Counts -/

def recalculate (n : Session) (c : Id) : Except Fault (Reply × Session) := do
  let (recount, m) ← n.edit (fun _ => 0) fun s => s.recalculate n.now c
  let entries := if recount.drifted then [LogEntry.drift c recount.cached recount.actual] else []
  return (.number recount.actual,
    (m.logAll entries).announce (.collection (.countRecalculated c recount.actual)))

def recalculateAll (n : Session) : Except Fault (Reply × Session) := do
  let ((summary, drifts), m) ← n.edit (fun _ => 0) fun s => s.recalculateAll n.now
  return (.summary summary, m.logAll (drifts.map fun d =>
    .drift d.collection d.recount.cached d.recount.actual))

/-! ### Works, authorities and upkeep -/

def createManifestation (n : Session) (d : ManifestationDraft) :
    Except Fault (Reply × Session) := do
  let w := d.complete (n.ids.id 0) n.now
  Store.inspect "Manifestation" w.flaw?
  let (_, m) ← n.edit (fun _ => idsFor d.id) fun s => do return ((), ← s.putManifestation w)
  return (.manifestation w, m)

/-- Writes a work anew. -/
def writeManifestation (n : Session) (d : ManifestationDraft) : Except Fault (Id × Session) := do
  let w := d.complete (n.ids.id 0) n.now
  Store.inspect "Manifestation" w.flaw?
  let (_, m) ← n.edit (fun _ => idsFor d.id) fun s => do
    return ((), ← s.updateManifestation n.now w)
  return (w.id, m)

/-- Writes a work anew, and announces it to the authorities with a credit on it.  They are read
behind the step: where that fails the work stays written and nothing is announced. -/
def updateManifestation (n : Session) (d : ManifestationDraft) : Except Fault Reply × Session :=
  match n.writeManifestation d with
  | .error fault => (.error fault, n)
  | .ok (id, m) =>
    match m.readBehind fun s => s.credited id with
    | .error fault => (.error fault, m)
    | .ok authorities => (.ok .nothing, m.announceAll (authorities.map creditEvent))

def createAuthority (n : Session) (d : AuthorityDraft) : Except Fault (Reply × Session) := do
  let a := d.complete (n.ids.id 0) n.now
  Store.inspectAuthority a
  let (_, m) ← n.edit (fun _ => idsFor d.id) fun s => do return ((), ← s.putAuthority a)
  return (.authority a, m)

def updateAuthority (n : Session) (d : AuthorityDraft) : Except Fault (Reply × Session) := do
  let a := d.complete (n.ids.id 0) n.now
  Store.inspect "Authority" a.flaw?
  let (_, m) ← n.edit (fun _ => idsFor d.id) fun s => do return ((), ← s.updateAuthority n.now a)
  return (.nothing, m)

def addInvolvement (n : Session) (a w : Id) (role : Role) (quiet : Bool) :
    Except Fault (Reply × Session) := do
  let (_, m) ← n.edit (fun _ => 0) fun s => do return ((), ← s.putInvolvement ⟨a, w, role, n.now⟩)
  return (.nothing, m.announceAll (if quiet then [] else [creditEvent a]))

def removeInvolvement (n : Session) (a w : Id) (role : Role) (quiet : Bool) :
    Except Fault (Reply × Session) := do
  let (removed, m) ← n.edit (fun _ => 0) fun s => .ok (s.removeInvolvement a w role)
  return (.flag removed, m.announceAll (if removed && !quiet then [creditEvent a] else []))

def refresh [Arithmetic] (n : Session) (a : Id) : Except Fault (Reply × Session) := do
  let (answer, m) := n.refreshOnce a
  let o ← answer
  return (.outcome o,
    m.announce (.authority (.refreshed o.authority o.collection o.added o.removed)))

/-- Refreshes the listed authorities.  Where one refresh breaks off, so does the request. -/
def refreshMany [Arithmetic] (n : Session) (authorities : List Id) : Except Fault Reply × Session :=
  match n.carryOut (n.settings.maintainer.retryAll authorities) with
  | (some outcomes, m) => (.ok (.outcomes outcomes), m)
  | (none, m) => (.error .overflow, m)

/-- The orphans that nobody can tell the owner of are logged even if the run fails later. -/
def cleanup (n : Session) (mode : CleanupMode) : Except Fault Reply × Session :=
  match n.writable with
  | .error fault => (.error fault, n)
  | .ok _ =>
    let run := n.store.cleanup n.now mode
    let n := n.logAll (run.unowned.map fun u => .unowned u.collection u.owners)
    match run.result with
    | .error fault => (.error fault, n)
    | .ok (report, store) => (.ok (.report report), { n with store })

/-- Ends the upkeep in the background, if it was started, and closes the session. -/
def shutdown (n : Session) : Session :=
  { n with closed := true, started := false, cancelled := n.cancelled || n.started }

/-! ### Watching -/

/-- The rows of a store in the order of their keys. -/
def snapshot (s : Store) : Snapshot where
  collections := s.collections.rows.mergeSort fun c d => decide (c.id ≤ d.id)
  slots := s.slots.rows.mergeSort Store.precedesAcross
  manifestations := s.manifestations.rows.mergeSort fun m n => decide (m.id ≤ n.id)
  authorities := s.authorities.rows.mergeSort fun a b => decide (a.id ≤ b.id)
  involvements := s.involvements.rows.mergeSort Involvement.precedes

/-- Changes the kind of a collection, past all rules for kinds, and counts the rows. -/
def forceKind (n : Session) (id : Id) (kind : CollectionKind) : Except Fault (Reply × Session) := do
  let (rows, m) ← n.edit (fun _ => 0) fun s => .ok
    ((if s.hasCollection id then 1 else 0 : Int),
      s.editCollection id (fun c => { c with kind }) fun _ => rfl)
  return (.number rows, m)

/-- Changes the link of an authority, past all rules but the schema's, and counts the rows. -/
def forceLink (n : Session) (a : Id) (c : Option Id) : Except Fault (Reply × Session) := do
  let (rows, m) ← n.edit (fun _ => 0) fun s => do
    return ((if (s.authority? a).isSome then 1 else 0 : Int), ← s.setLink a c)
  return (.number rows, m)

/-! ### Answers -/

/-- The answer to a request that fails without a trace. -/
def settle (n : Session) : Except Fault (Reply × Session) → Except Fault Reply × Session
  | .ok (reply, m) => (.ok reply, m)
  | .error fault => (.error fault, n)

/-- The answer to a request that only reads. -/
def look (n : Session) (f : Store → Except Fault Reply) : Except Fault Reply × Session :=
  (n.read f, n)

/-- The answer to a request. -/
def answer [Arithmetic] (n : Session) : Request → Except Fault Reply × Session
  | .createCollection d => n.settle (n.createCollection d)
  | .updateCollection d => n.settle (n.updateCollection d)
  | .deleteCollection id => n.settle (n.deleteCollection id)
  | .getCollection id => n.look fun s => .ok (.ofOption .collection (s.collection? id))
  | .listByKind kind page => n.look fun s =>
    .ok (.collectionPage (page.cut (s.collectionsOfKind kind)))
  | .items c => n.look fun s => do return .slots (← s.readSlots c)
  | .parents c => n.look fun s => .ok (.collections (s.parents c))
  | .itemTitle id => n.look fun s => do
    return .ofOption (fun x => .title (s.titleOf? x)) (← s.fetchSlot id)
  | .addItem c r attrs => n.settle (n.editSlot 1 fun s => s.addItem n.now (n.ids.id 0) c r attrs)
  | .updateItem id attrs => n.settle (n.editSlot 0 fun s => s.updateItem n.now id attrs)
  | .retargetItem id r => n.settle (n.editSlot 0 fun s => s.retargetItem n.now id r)
  | .removeItem id => n.settle (n.removeItem id)
  | .reorder c id old new => n.settle
    (n.editOrder c (old != new) fun s => s.reorder n.now c id old new)
  | .moveItem direction c id => n.settle
    (n.editOrder c true fun s => s.moveItem n.now direction c id)
  | .transplant id dest rank => n.settle (n.transplant id dest rank)
  | .addPeriodicalIssue c title => n.settle
    (n.editPlaced c fun s => s.addPeriodicalIssue n.now n.ids.id c title)
  | .createSubCollection c title kind => n.settle (n.createSubCollection c title kind)
  | .createPeriodicalWithIssue title issue => n.settle (n.createPeriodicalWithIssue title issue)
  | .periodicalIssues c => n.look fun s => do return .collections (← s.periodicalIssues c)
  | .recalculate c => n.settle (n.recalculate c)
  | .recalculateAll => n.settle n.recalculateAll
  | .descendants c => n.look fun s => do return .subtree (← s.descendants c)
  | .ancestors c => n.look fun s => do return .collections (← s.ancestors c)
  | .tree c => n.look fun s => do return .tree (← s.tree c)
  | .createManifestation d => n.settle (n.createManifestation d)
  | .updateManifestation d => n.updateManifestation d
  | .createAuthority d => n.settle (n.createAuthority d)
  | .addInvolvement a m role => n.settle (n.addInvolvement a m role false)
  | .removeInvolvement a m role => n.settle (n.removeInvolvement a m role false)
  | .notify a => (.ok .nothing, n.announce (creditEvent a))
  | .refresh a => n.settle (n.refresh a)
  | .refreshMany as => n.refreshMany as
  | .cleanup mode => n.cleanup mode
  | .heldTwice => n.look fun s => .ok (.manifestations s.heldTwice)
  | .startWorker => (.ok .nothing, { n with started := true, halted := false })
  | .shutdown => (.ok .nothing, n.shutdown)
  | .addInvolvementQuietly a m role => n.settle (n.addInvolvement a m role true)
  | .removeInvolvementQuietly a m role => n.settle (n.removeInvolvement a m role true)
  | .countCollections => n.look fun s => .ok (.number s.collections.size)
  | .countManifestations => n.look fun s => .ok (.number s.manifestations.size)
  | .countItems c => n.look fun s => .ok (.number (s.slotsOf c).length)
  | .getItem id => n.look fun s => do return .ofOption .slot (← s.fetchSlot id)
  | .getManifestation id => n.look fun s => .ok (.ofOption .manifestation (s.manifestation? id))
  | .getAuthority id => n.look fun s => .ok (.ofOption .authority (s.authority? id))
  | .resolveTitle x =>
    if x.item.isEmpty then (.ok (.text x.placeholderTitle?), n)
    else n.look fun s => .ok (.text (s.titleOf? x))
  | .findReferencing r =>
    if r.isEmpty then (.ok (.slots []), n)
    else n.look fun s => do
      Store.legible (s.slotsReferringTo r)
      return .slots (s.slotsReferringTo r)
  | .appendMany c rs => n.settle do
    let (slots, m) ← n.edit List.length fun s => s.appendMany n.now n.ids.id c rs
    return (.slots slots, m)
  | .validateInsertion c r => n.look fun s => do
    s.guard c r
    return .nothing
  | .deleteManifestation id => n.settle do
    let (deleted, m) ← n.edit (fun _ => 0) fun s => s.deleteManifestation n.now id
    return (.flag deleted, m)
  | .deleteAuthority id => n.settle do
    let (deleted, m) ← n.edit (fun _ => 0) fun s => .ok (s.deleteAuthority id)
    return (.flag deleted, m)
  | .listManifestations page => n.look fun s => .ok (.manifestationPage (page.cut s.worksByTitle))
  | .updateAuthority d => n.settle (n.updateAuthority d)
  | .findByUncollected c => n.look fun s => .ok (.ofOption .authority (s.linkedTo? c))
  | .involvements a => n.look fun s => .ok (.involvements (s.credits a))
  | .credited m => n.look fun s => .ok (.ids (s.credited m))
  | .state => (.ok (if n.closed then .nothing else .snapshot (snapshot n.store)), n)
  | .reopen => (.ok .nothing, n.reopen)
  | .lock => (.ok .nothing, { n with locked := !n.volatile })
  | .unlock => (.ok .nothing, { n with locked := false })
  | .forceItem x => n.settle do
    let (_, m) ← n.edit (fun _ => 0) fun s => do return ((), ← s.putSlot x)
    return (.number 1, m)
  | .forceKind id kind => n.settle (n.forceKind id kind)
  | .forceLink a c => n.settle (n.forceLink a c)

/-- The answers to the listed requests one after the other, up to the first that fails; the answer
to the list is the last of them. -/
def answerAll [Arithmetic] (n : Session) (last : Reply) :
    List Request → Except Fault Reply × Session
  | [] => (.ok last, n)
  | r :: rs =>
    match n.answer r with
    | (.ok reply, m) => m.answerAll reply rs
    | (.error fault, m) => (.error fault, m)

/-! ### Steps -/

/-- An answer with what was announced and logged on the way to it. -/
structure Answered where
  answer : Except Fault Reply
  events : List Event
  log : List LogEntry

/-- Answers the listed requests as one at a given time, and lets the upkeep in the background
follow. -/
def stepAll [Arithmetic] (n : Session) (now : Time) (rs : List Request) : Answered × Session :=
  let (answer, m) := { n with now, announced := [], logged := [] }.answerAll .nothing rs
  let m := if m.upkeepRuns then m.respond (m.announced.reverse.filterMap Event.involvement?) else m
  (⟨answer, m.announced.reverse, m.logged.reverse⟩, m)

/-- Answers a request at a given time, and lets the upkeep in the background follow. -/
def step [Arithmetic] (n : Session) (now : Time) (r : Request) : Answered × Session :=
  n.stepAll now [r]

end Session

end Anthology
