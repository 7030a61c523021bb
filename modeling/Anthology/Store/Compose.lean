/-
**Collections made in place.**

Periodicals are built issue by issue, and a collection is often made straight from the slots of
another.  Each operation makes the new collections and the slot that joins them as one step, which
happens as a whole or not at all.

Main definitions:

* `Anthology.Placed`, `Anthology.PeriodicalWithIssue` — what the operations make;
* `Anthology.Store.addPeriodicalIssue`, `Anthology.Store.createSubCollection`,
  `Anthology.Store.createPeriodicalWithIssue` — the operations;
* `Anthology.Store.periodicalIssues` — the issues of a periodical.
-/

import Anthology.Store.Collections
import Anthology.Store.Sequence

set_option relaxedAutoImplicit false
set_option autoImplicit false

namespace Anthology

/-- A collection made inside another, with the slot that joins them. -/
@[ext] structure Placed where
  collection : Collection
  slot : Slot
deriving DecidableEq

/-- A periodical made with its first issue, and the slot that joins them. -/
@[ext] structure PeriodicalWithIssue where
  periodical : Collection
  issue : Collection
  slot : Slot
deriving DecidableEq

def Placed.codec : Codec Placed where
  encode p := .object [
    ("collection", Collection.codec.encode p.collection),
    ("slot", Slot.codec.encode p.slot)]
  decode j := do
    let fs ← j.record? ["collection", "slot"]
    return {
      collection := ← fs.get "collection" Collection.codec
      slot := ← fs.get "slot" Slot.codec }

def PeriodicalWithIssue.codec : Codec PeriodicalWithIssue where
  encode p := .object [
    ("periodical", Collection.codec.encode p.periodical),
    ("issue", Collection.codec.encode p.issue),
    ("slot", Slot.codec.encode p.slot)]
  decode j := do
    let fs ← j.record? ["periodical", "issue", "slot"]
    return {
      periodical := ← fs.get "periodical" Collection.codec
      issue := ← fs.get "issue" Collection.codec
      slot := ← fs.get "slot" Slot.codec }

namespace Store

/-- Makes the collection `c` and joins it to `parent` by a slot, under the id `slotId`, behind the
last one. -/
def place [Arithmetic] (s : Store) (now : Time) (slotId parent : Id) (c : Collection) :
    Except Fault (Placed × Store) := do
  let s ← s.putCollection c
  let slots ← s.appendRefs now (fun _ => slotId) parent [.collection c.id]
  let slot ← require "CollectionItem" c.id slots.1.getLast?
  let s ← slots.2.propagate now parent
  return (⟨c, slot⟩, s)

/-- Makes a new issue of a periodical.  It takes the id `fresh 0` and its slot `fresh 1`. -/
def addPeriodicalIssue [Arithmetic] (s : Store) (now : Time) (fresh : Nat → Id)
    (periodical : Id) (title : String) : Except Fault (Placed × Store) := do
  let _ ← s.requireCollection periodical
  s.place now (fresh 1) periodical (.create (fresh 0) now title .periodicalIssue)

/-- Neither title of a new periodical with its first issue may be blank. -/
def entitled (title issueTitle : String) : Except Fault Unit := do
  ensure (!Text.isBlank title) (.invalidInput "periodical_title" "cannot be blank")
  ensure (!Text.isBlank issueTitle) (.invalidInput "issue_title" "cannot be blank")

/-- Makes a periodical and its first issue.  The periodical takes the id `fresh 0`, the issue
`fresh 1` and the slot `fresh 2`. -/
def createPeriodicalWithIssue [Arithmetic] (s : Store) (now : Time) (fresh : Nat → Id)
    (title issueTitle : String) : Except Fault (PeriodicalWithIssue × Store) := do
  entitled title issueTitle
  let periodical := Collection.create (fresh 0) now title .periodical
  let s ← s.putCollection periodical
  let (placed, s) ← s.place now (fresh 2) periodical.id
    (.create (fresh 1) now issueTitle .periodicalIssue)
  return (⟨periodical, placed.collection, placed.slot⟩, s)

/-- Makes a collection inside another.  It takes the id `fresh 0` and its slot `fresh 1`. -/
def createSubCollection [Arithmetic] (s : Store) (now : Time) (fresh : Nat → Id) (parent : Id)
    (title : String) (kind : CollectionKind) : Except Fault (Placed × Store) := do
  editable kind
  let _ ← s.requireCollection parent
  s.place now (fresh 1) parent (.create (fresh 0) now title kind)

/-- The issues that the slots of a collection refer to, in the order of the slots. -/
def periodicalIssues (s : Store) (id : Id) : Except Fault (List Collection) := do
  let _ ← s.requireCollection id
  let children := (s.orderedSlots id).filterMap fun x => x.item.collection?
  return (s.collectionsAt children).filter fun c => c.kind == .periodicalIssue

end Store

end Anthology
