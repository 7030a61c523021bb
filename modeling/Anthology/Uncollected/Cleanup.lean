/-
**Orphaned uncollected collections.**

An uncollected collection that no authority is linked to is an orphan.  An orphan without works is
deleted.  If exactly one authority has a credit in a role that qualifies on as many of its works as
there are, the orphan is its: it is linked to that authority, or deleted as a duplicate when the
authority has an uncollected collection already.  Any other orphan is deleted, because nobody can
tell whose it is.

A dry run reports what would be done and does nothing.  It remembers which authorities would have
been linked, so that a second orphan of the same authority counts as a duplicate there too.

Main definitions:

* `Anthology.CleanupMode`, `Anthology.CleanupReport` — how it is run and what it did;
* `Anthology.OrphanFate` and `Anthology.Store.fateOf` — what becomes of an orphan;
* `Anthology.Store.cleanup` — the run over all orphans;
* `Anthology.Store.heldTwice` — works that are in more than one uncollected collection.
-/

import Anthology.Store.Collections
import Anthology.Uncollected.Refresh

set_option relaxedAutoImplicit false
set_option autoImplicit false

namespace Anthology

/-! ### Modes and reports -/

inductive CleanupMode where
  | dryRun
  | execute
deriving DecidableEq, Repr

namespace CleanupMode

def name : CleanupMode → String
  | dryRun => "dry_run"
  | execute => "execute"

def codec : Codec CleanupMode := .named [dryRun, execute] name

end CleanupMode

/-- What was done to the orphans, or what would be done in a dry run. -/
@[ext] structure CleanupReport where
  mode : CleanupMode
  orphansFound : Nat
  deletedEmpty : Nat
  linked : Nat
  deletedDuplicate : Nat
  deletedUnfixable : Nat
deriving DecidableEq

namespace CleanupReport

/-- The report before the first orphan. -/
def start (mode : CleanupMode) (orphansFound : Nat) : CleanupReport :=
  ⟨mode, orphansFound, 0, 0, 0, 0⟩

def codec : Codec CleanupReport where
  encode r := .object [
    ("mode", CleanupMode.codec.encode r.mode),
    ("orphans_found", .number r.orphansFound),
    ("deleted_empty", .number r.deletedEmpty),
    ("linked", .number r.linked),
    ("deleted_duplicate", .number r.deletedDuplicate),
    ("deleted_unfixable", .number r.deletedUnfixable)]
  decode j := do
    let fs ← j.record?
      ["mode", "orphans_found", "deleted_empty", "linked", "deleted_duplicate", "deleted_unfixable"]
    return {
      mode := ← fs.get "mode" CleanupMode.codec
      orphansFound := ← fs.get "orphans_found" (.unsigned 64)
      deletedEmpty := ← fs.get "deleted_empty" (.unsigned 64)
      linked := ← fs.get "linked" (.unsigned 64)
      deletedDuplicate := ← fs.get "deleted_duplicate" (.unsigned 64)
      deletedUnfixable := ← fs.get "deleted_unfixable" (.unsigned 64) }

end CleanupReport

/-! ### Fates -/

/-- What becomes of an orphan. -/
inductive OrphanFate where
  | deleteEmpty
  | link (authority : Id)
  | deleteDuplicate (authority : Id)
  /-- So many authorities have a claim to the orphan, and not one. -/
  | deleteUnfixable (owners : Nat)
deriving DecidableEq, Repr

/-- The authority that an orphan is linked to. -/
def OrphanFate.linked? : OrphanFate → Option Id
  | .link a => some a
  | _ => none

/-- The report with one more orphan counted by its fate. -/
def CleanupReport.count (r : CleanupReport) : OrphanFate → CleanupReport
  | .deleteEmpty => { r with deletedEmpty := r.deletedEmpty + 1 }
  | .link _ => { r with linked := r.linked + 1 }
  | .deleteDuplicate _ => { r with deletedDuplicate := r.deletedDuplicate + 1 }
  | .deleteUnfixable _ => { r with deletedUnfixable := r.deletedUnfixable + 1 }

/-- An orphan that nobody can tell the owner of, and how many authorities have a claim to it. -/
structure Unowned where
  collection : Id
  owners : Nat
deriving DecidableEq

/-- The entry for an orphan that nobody can tell the owner of. -/
def OrphanFate.unowned? (c : Id) : OrphanFate → Option Unowned
  | .deleteUnfixable owners => some ⟨c, owners⟩
  | _ => none

namespace Store

/-- The order in which orphans are treated: by the time they were made, then by id. -/
def olderThan (c d : Collection) : Bool :=
  c.createdAt < d.createdAt || (c.createdAt == d.createdAt && c.id ≤ d.id)

/-- The uncollected collections that no authority is linked to. -/
def orphans (s : Store) : List Collection :=
  (s.collections.rows.filter fun c => c.isUncollected && (s.linkedTo? c.id).isNone).mergeSort
    olderThan

/-- The works that exist among those that the slots of a collection refer to, each once. -/
def distinctWorks (s : Store) (c : Id) : List Id :=
  (((s.slotsOf c).filterMap fun x => x.item.manifestation?).filter s.hasManifestation).eraseDups

/-- The works among those that the slots of a collection refer to with a credit of the authority
that qualifies, each once. -/
def creditedWorks (s : Store) (a c : Id) : List Id :=
  ((s.involvements.rows.filter fun i => i.authority == a && i.role.qualifies &&
    (s.slotsOf c).any fun x => x.item == .manifestation i.manifestation).map
      Involvement.manifestation).eraseDups

/-- The authorities with a credit that qualifies on so many works of a collection. -/
def owners (s : Store) (c : Id) (works : Nat) : List Authority :=
  s.authorities.rows.filter fun a => (s.creditedWorks a.id c).length == works

/-- What becomes of an orphan, where `linkedNow` were linked to orphans before it. -/
def fateOf (s : Store) (linkedNow : List Id) (c : Id) : OrphanFate :=
  let works := s.distinctWorks c
  if works.isEmpty then .deleteEmpty
  else
    match s.owners c works.length with
    | [a] =>
      if a.uncollected.isSome || linkedNow.contains a.id then .deleteDuplicate a.id else .link a.id
    | owners => .deleteUnfixable owners.length

/-- Does to an orphan what its fate says. -/
def resolve (s : Store) (now : Time) (c : Id) : OrphanFate → Except Fault Store
  | .link a => do
    let s ← s.link now a c
    s.propagate now c
  | _ => do
    let (_, s) ← s.deleteCollection now c
    return s

/-! ### The run -/

/-- What a run made of the orphans, unless it failed, and those that it could not tell the owner of
before it ended. -/
structure Cleanup where
  result : Except Fault (CleanupReport × Store)
  unowned : List Unowned

/-- Does to an orphan what its fate says, unless the run is dry. -/
def resolveIn (s : Store) (mode : CleanupMode) (now : Time) (c : Id) (fate : OrphanFate) :
    Except Fault Store :=
  match mode with
  | .dryRun => .ok s
  | .execute => s.resolve now c fate

/-- Treats the orphans one after the other, where `linkedNow` were linked before, and counts them
in the report. -/
def treat (mode : CleanupMode) (now : Time) (s : Store) (linkedNow : List Id)
    (report : CleanupReport) : List Id → Cleanup
  | [] => ⟨.ok (report, s), []⟩
  | c :: cs =>
    let fate := s.fateOf linkedNow c
    let unowned := (fate.unowned? c).toList
    match s.resolveIn mode now c fate with
    | .error fault => ⟨.error fault, unowned⟩
    | .ok s =>
      let rest := treat mode now s (fate.linked?.toList ++ linkedNow) (report.count fate) cs
      { rest with unowned := unowned ++ rest.unowned }

/-- Treats all orphans. -/
def cleanup (s : Store) (now : Time) (mode : CleanupMode) : Cleanup :=
  let orphans := s.orphans
  treat mode now s [] (.start mode orphans.length) (orphans.map Collection.id)

/-! ### Works held twice -/

/-- The uncollected collections with a slot that refers to the work. -/
def bucketsHolding (s : Store) (m : Id) : List Id :=
  (s.holdersOf (.manifestation m)).filter fun c => (s.collection? c).any Collection.isUncollected

/-- The works that are in more than one uncollected collection, by title. -/
def heldTwice (s : Store) : List Manifestation :=
  (s.manifestations.rows.filter fun m => decide (1 < (s.bucketsHolding m.id).length)).mergeSort
    Manifestation.precedes

end Store

end Anthology
