/-
**Upkeep of uncollected collections.**

An authority may own one uncollected collection.  It gathers the published works that are credited
to the authority in a role that qualifies and that no collection of another kind holds.  A refresh
locks the authority, makes and links the collection where there is none, drops the slots that have
no place in it any more, and adds the works that lack.  A work that sits in the uncollected
collection of another authority still belongs into this one.

Main definitions:

* `Anthology.RefreshOutcome` — what a refresh did;
* `Anthology.Store.collected` — a collection of another kind holds the work;
* `Anthology.Store.prune`, `Anthology.Store.candidates` — what goes and what comes;
* `Anthology.Store.refresh` — the refresh; `Anthology.Store.idsGiven` — how many ids it takes.
-/

import Anthology.Store.Sequence
import Anthology.Store.Works

set_option relaxedAutoImplicit false
set_option autoImplicit false

namespace Anthology

/-- What a refresh did to the uncollected collection of an authority. -/
@[ext] structure RefreshOutcome where
  authority : Id
  collection : Id
  /-- The refresh made the collection. -/
  created : Bool
  removed : Nat
  added : Nat
  count : Int
deriving DecidableEq

def RefreshOutcome.codec : Codec RefreshOutcome where
  encode o := .object [
    ("authority_id", .string o.authority),
    ("collection_id", .string o.collection),
    ("created", .bool o.created),
    ("removed", .number o.removed),
    ("added", .number o.added),
    ("manifestations_count", .number o.count)]
  decode j := do
    let fs ← j.record?
      ["authority_id", "collection_id", "created", "removed", "added", "manifestations_count"]
    return {
      authority := ← fs.get "authority_id" .text
      collection := ← fs.get "collection_id" .text
      created := ← fs.get "created" .flag
      removed := ← fs.get "removed" (.unsigned 64)
      added := ← fs.get "added" (.unsigned 64)
      count := ← fs.get "manifestations_count" (.signed 64) }

namespace Store

/-! ### The authority and its collection -/

/-- Locks an authority, which is written down in its row. -/
def lockAuthority (s : Store) (now : Time) (a : Id) : Except Fault (Authority × Store) := do
  let row ← require "Authority" a (s.authority? a)
  return (row, s.editAuthority a
    (fun x => { x with lockVersion := x.lockVersion + 1, updatedAt := now }) fun _ => rfl)

/-- Links an authority to a collection. -/
def link (s : Store) (now : Time) (a c : Id) : Except Fault Store := do
  let s ← s.setLink a (some c)
  return s.editAuthority a (fun x => { x with updatedAt := now }) fun _ => rfl

/-- The title of the uncollected collections. -/
def uncollectedTitle : String := "Uncollected works"

/-- The uncollected collection of an authority, made and linked under the id `fresh` where there is
none, and whether it was made. -/
def bucketOf (s : Store) (now : Time) (fresh : Id) (a : Authority) :
    Except Fault ((Id × Bool) × Store) :=
  match a.uncollected.bind s.collection? with
  | some c =>
    if c.isUncollected then .ok ((c.id, false), s)
    else .error (.invalidInput "uncollected_works_collection_id"
      s!"linked collection {c.id} has type {c.kind.name}")
  | none => do
    let s ← s.putCollection (.create fresh now uncollectedTitle .uncollected)
    let s ← s.link now a.id fresh
    return ((fresh, true), s)

/-! ### What goes and what comes -/

/-- A collection of another kind than `uncollected` holds the work. -/
def collected (s : Store) (m : Id) : Bool :=
  s.slots.rows.any fun x =>
    x.item == .manifestation m && (s.collection? x.owner).any fun c => !c.isUncollected

/-- A slot has a place in an uncollected collection when it refers to a work that exists and that
no collection of another kind holds. -/
def keepsPlace (s : Store) (x : Slot) : Bool :=
  match x.item with
  | .manifestation m => s.hasManifestation m && !s.collected m
  | _ => false

/-- Drops the slots of the collection `c` that have no place in an uncollected collection, and
counts them. -/
def prune (s : Store) (c : Id) : Nat × Store :=
  let lost (x : Slot) : Bool := x.owner == c && !s.keepsPlace x
  (s.slots.rows.countP lost, s.dropSlots lost)

/-- The work belongs into the uncollected collection `c` of the authority `a`, and is not in it. -/
def lacks (s : Store) (a c : Id) (m : Manifestation) : Bool :=
  m.isPublished && s.qualifies a m.id && !s.collected m.id &&
    !(s.slotsOf c).any fun x => x.item == .manifestation m.id

/-- The works to be added to the uncollected collection `c` of the authority `a`, by title. -/
def candidates (s : Store) (a c : Id) : List Id :=
  ((s.manifestations.rows.filter (s.lacks a c)).mergeSort Manifestation.precedes).map
    Manifestation.id

/-! ### The refresh -/

/-- The uncollected collection of a locked authority, without the slots that have no place in it. -/
structure Prepared where
  collection : Id
  /-- The collection was made. -/
  created : Bool
  removed : Nat

/-- The number of ids that were given out for the collection. -/
def Prepared.idsTaken (p : Prepared) : Nat := if p.created then 1 else 0

/-- Locks an authority, and prunes its uncollected collection, which is made under the id `fresh`
where there is none. -/
def prepare (s : Store) (now : Time) (fresh : Id) (a : Id) : Except Fault (Prepared × Store) := do
  let (row, s) ← s.lockAuthority now a
  let ((c, created), s) ← s.bucketOf now fresh row
  let (removed, s) := if created then (0, s) else s.prune c
  return (⟨c, created, removed⟩, s)

/-- The ids for the slots that a refresh adds. -/
def Prepared.slotIds (p : Prepared) (fresh : Nat → Id) (k : Nat) : Id := fresh (p.idsTaken + k)

/-- Refreshes the uncollected collection of an authority.  A collection that has to be made takes
the id `fresh 0`, and the new slots take the ids that follow. -/
def refresh [Arithmetic] (s : Store) (now : Time) (fresh : Nat → Id) (a : Id) :
    Except Fault (RefreshOutcome × Store) := do
  let (p, s) ← s.prepare now (fresh 0) a
  let (added, s) ← s.appendRefs now (p.slotIds fresh) p.collection
    ((s.candidates a p.collection).map .manifestation)
  let s ← s.propagate now p.collection
  let bucket ← match s.collection? p.collection with
    | some bucket => .ok bucket
    | none => .error (.storage .noRow)
  return ({
    authority := a
    collection := p.collection
    created := p.created
    removed := p.removed
    added := added.length
    count := bucket.count }, s)

/-! ### Ids -/

/-- An authority that has no uncollected collection yet. -/
def lacksBucket (s : Store) (a : Id) : Bool :=
  match s.authority? a with
  | some row => (row.uncollected.bind s.collection?).isNone
  | none => false

/-- The number of ids that a refresh gives out, whether it succeeds or not.  A record takes its id
before the store refuses it. -/
def idsGiven [Arithmetic] (s : Store) (now : Time) (fresh : Nat → Id) (a : Id) : Nat :=
  match s.prepare now (fresh 0) a with
  | .error _ => if s.lacksBucket a then 1 else 0
  | .ok (p, s) =>
    p.idsTaken + s.idsTried now (p.slotIds fresh) p.collection
      ((s.candidates a p.collection).map .manifestation)

end Store

end Anthology
