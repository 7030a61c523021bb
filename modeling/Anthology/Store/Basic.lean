/-
**The store.**

The store holds the works, the collections, their slots, the authorities and the credits.  Its
schema has rules that no write may break: ids are unique, a slot belongs to a collection that
exists and has a positive number, a link of an authority names a collection that exists and no two
authorities are linked to the same one, and a credit joins an authority and a work that exist.
When a collection goes its slots go with it and a link to it is cleared; when a work or an
authority goes its credits go with it.

This module holds the rows and the writes of single rows.  A write that the schema refuses leaves
nothing behind, because it returns no store.  A row holds the number of a slot even where it fits no
word, but then neither the slot nor the highest number of its collection can be read back.

Main definitions:

* `Anthology.Store` — the five tables;
* `Anthology.Store.fetchSlot`, `Anthology.Store.readSlots`, `Anthology.Store.readMax` — the reads
  that need the numbers of slots;
* `Anthology.Store.putCollection`, `Anthology.Store.putSlot` and others — new rows, under the
  rules of the schema;
* `Anthology.Store.setCount`, `Anthology.Store.editSlot` and others — changes of rows;
* `Anthology.Store.dropCollection` and others — deletions with what follows from them.
-/

import Anthology.Record.Slot
import Anthology.Record.Work
import Anthology.Table

set_option relaxedAutoImplicit false
set_option autoImplicit false

namespace Anthology

/-! ### Tables -/

instance : Keyed Manifestation Id := ⟨Manifestation.id⟩

instance : Keyed Collection Id := ⟨Collection.id⟩

instance : Keyed Slot Id := ⟨Slot.id⟩

instance : Keyed Authority Id := ⟨Authority.id⟩

/-- An authority has one credit on a work for each role. -/
instance : Keyed Involvement (Id × Id × Role) := ⟨fun i => (i.authority, i.manifestation, i.role)⟩

structure Store where
  manifestations : Table Manifestation
  collections : Table Collection
  slots : Table Slot
  authorities : Table Authority
  involvements : Table Involvement

namespace Store

/-- The store without rows. -/
def empty : Store := ⟨.empty, .empty, .empty, .empty, .empty⟩

instance : Inhabited Store := ⟨empty⟩

/-! ### Failing -/

/-- Goes on where the condition holds, and fails otherwise. -/
def ensure (condition : Bool) (fault : Fault) : Except Fault Unit :=
  if condition then .ok () else .error fault

/-- Refuses a record that has a flaw. -/
def inspect (entity : String) (flaw? : Option String) : Except Fault Unit :=
  match flaw? with
  | some text => .error (.invalidInput entity text)
  | none => .ok ()

/-- The value that has to be there. -/
def require {α : Type} (entity : String) (id : Id) (found : Option α) : Except Fault α :=
  match found with
  | some a => .ok a
  | none => .error (.notFound entity id)

/-- The table with a new row, under the rule that its key is new. -/
def insertInto {α κ : Type} [Keyed α κ] [DecidableEq κ] (t : Table α) (a : α) (rule : Constraint) :
    Except Fault (Table α) :=
  match t.insert? a with
  | some t' => .ok t'
  | none => .error (.violated rule)

/-! ### Reading rows -/

def collection? (s : Store) (id : Id) : Option Collection := s.collections.find? id

def hasCollection (s : Store) (id : Id) : Bool := s.collections.has id

def slot? (s : Store) (id : Id) : Option Slot := s.slots.find? id

def manifestation? (s : Store) (id : Id) : Option Manifestation := s.manifestations.find? id

def hasManifestation (s : Store) (id : Id) : Bool := s.manifestations.has id

def authority? (s : Store) (id : Id) : Option Authority := s.authorities.find? id

def requireCollection (s : Store) (id : Id) : Except Fault Collection :=
  require "Collection" id (s.collection? id)

/-- Goes on where the numbers of the slots can be read. -/
def legible (xs : List Slot) : Except Fault Unit :=
  ensure (xs.all Slot.isReadable) (.storage .unreadableSeqno)

/-- Reads the slot under an id, if there is one. -/
def fetchSlot (s : Store) (id : Id) : Except Fault (Option Slot) := do
  legible (s.slot? id).toList
  return s.slot? id

def requireSlot (s : Store) (id : Id) : Except Fault Slot := do
  require "CollectionItem" id (← s.fetchSlot id)

/-- What a slot is to refer to has to exist. -/
def requireTarget (s : Store) : ItemRef → Except Fault Unit
  | .empty => .ok ()
  | .collection id => ensure (s.hasCollection id) (.notFound "Collection" id)
  | .manifestation id => ensure (s.hasManifestation id) (.notFound "Manifestation" id)

/-! ### Slots of a collection -/

/-- The slots of a collection. -/
def slotsOf (s : Store) (c : Id) : List Slot := s.slots.rows.filter fun x => x.owner == c

/-- The slots of a collection in their order. -/
def orderedSlots (s : Store) (c : Id) : List Slot := (s.slotsOf c).mergeSort Slot.precedes

/-- Reads the slots of a collection in their order. -/
def readSlots (s : Store) (c : Id) : Except Fault (List Slot) := do
  legible (s.slotsOf c)
  return s.orderedSlots c

/-- The highest number of a slot of the collection, and zero where it has none. -/
def maxSeqno (s : Store) (c : Id) : Int := (s.slotsOf c).foldl (fun n x => max n x.seqno) 0

/-- Reads the highest number of a slot of the collection. -/
def readMax (s : Store) (c : Id) : Except Fault Int := do
  ensure (decide (s.maxSeqno c ≤ Word.last)) (.storage .unreadableMax)
  return s.maxSeqno c

@[simp] theorem mem_slotsOf {s : Store} {c : Id} {x : Slot} :
    x ∈ s.slotsOf c ↔ x ∈ s.slots.rows ∧ x.owner = c := by
  simp [slotsOf]

@[simp] theorem mem_orderedSlots {s : Store} {c : Id} {x : Slot} :
    x ∈ s.orderedSlots c ↔ x ∈ s.slots.rows ∧ x.owner = c := by
  simp [orderedSlots]

/-! ### New rows -/

/-- A new collection, of any kind. -/
def putCollection (s : Store) (c : Collection) : Except Fault Store := do
  inspect "Collection" c.flaw?
  let collections ← insertInto s.collections c .collectionKey
  return { s with collections }

/-- A new slot, under the rules of the schema and no others. -/
def putSlot (s : Store) (x : Slot) : Except Fault Store := do
  ensure (decide (0 < x.seqno)) (.violated .seqnoPositive)
  let slots ← insertInto s.slots x .slotKey
  ensure (s.hasCollection x.owner) (.violated .foreignKey)
  return { s with slots }

/-- A new slot, if nothing is wrong with it. -/
def insertSlot (s : Store) (x : Slot) : Except Fault Store := do
  inspect "CollectionItem" x.flaw?
  s.putSlot x

def putManifestation (s : Store) (m : Manifestation) : Except Fault Store := do
  inspect "Manifestation" m.flaw?
  let manifestations ← insertInto s.manifestations m .manifestationKey
  return { s with manifestations }

/-- Refuses an authority that has a flaw or brings a link of its own. -/
def inspectAuthority (a : Authority) : Except Fault Unit := do
  inspect "Authority" a.flaw?
  ensure a.uncollected.isNone (.invalidInput "uncollected_works_collection_id"
    "assigned by the uncollected works maintainer")

/-- A new authority.  It starts without a link, and nobody has locked it yet. -/
def putAuthority (s : Store) (a : Authority) : Except Fault Store := do
  inspectAuthority a
  let authorities ← insertInto s.authorities { a with lockVersion := 0 } .authorityKey
  return { s with authorities }

/-- A new credit; one that is there already is left as it is. -/
def putInvolvement (s : Store) (i : Involvement) : Except Fault Store :=
  match s.involvements.insert? i with
  | none => .ok s
  | some involvements => do
    ensure ((s.authority? i.authority).isSome && s.hasManifestation i.manifestation)
      (.violated .foreignKey)
    return { s with involvements }

/-! ### Changes of rows -/

/-- The collection under an id changed by `f`, which keeps ids. -/
def editCollection (s : Store) (id : Id) (f : Collection → Collection)
    (hf : ∀ c, (f c).id = c.id) : Store :=
  { s with collections := s.collections.modify id f hf }

/-- The slot under an id changed by `f`, which keeps ids. -/
def editSlot (s : Store) (id : Id) (f : Slot → Slot) (hf : ∀ x, (f x).id = x.id) : Store :=
  { s with slots := s.slots.modify id f hf }

/-- The authority under an id changed by `f`, which keeps ids. -/
def editAuthority (s : Store) (id : Id) (f : Authority → Authority)
    (hf : ∀ a, (f a).id = a.id) : Store :=
  { s with authorities := s.authorities.modify id f hf }

/-- The work under an id changed by `f`, which keeps ids. -/
def editManifestation (s : Store) (id : Id) (f : Manifestation → Manifestation)
    (hf : ∀ m, (f m).id = m.id) : Store :=
  { s with manifestations := s.manifestations.modify id f hf }

/-- Caches a number of works. -/
def setCount (s : Store) (now : Time) (id : Id) (count : Int) : Store :=
  s.editCollection id (fun c => { c with count, updatedAt := now }) fun _ => rfl

/-- Numbers a slot. -/
def setSeqno (s : Store) (now : Time) (id : Id) (seqno : Int) : Store :=
  s.editSlot id (fun x => { x with seqno, updatedAt := now }) fun _ => rfl

/-- The link of an authority, under the rules of the schema: no other authority has it, and the
collection exists. -/
def setLink (s : Store) (a : Id) (link : Option Id) : Except Fault Store :=
  match s.authority? a, link with
  | none, _ => .ok s
  | some _, none => .ok (s.editAuthority a (fun x => { x with uncollected := none }) fun _ => rfl)
  | some _, some c => do
    ensure (s.authorities.rows.all fun x => x.id == a || x.uncollected != some c)
      (.violated .linkUnique)
    ensure (s.hasCollection c) (.violated .foreignKey)
    return s.editAuthority a (fun x => { x with uncollected := some c }) fun _ => rfl

/-! ### Deletions -/

/-- Removes the slots that pass a test. -/
def dropSlots (s : Store) (p : Slot → Bool) : Store :=
  { s with slots := s.slots.keep fun x => !p x }

/-- Removes a collection with its slots, and clears the link to it. -/
def dropCollection (s : Store) (id : Id) : Store :=
  { s with
    collections := s.collections.keep fun c => c.id != id
    slots := s.slots.keep fun x => x.owner != id
    authorities := s.authorities.update
      (fun a => if a.uncollected = some id then { a with uncollected := none } else a)
      fun a => by split <;> rfl }

/-- Removes a work with its credits.  Slots that refer to it stay. -/
def dropManifestation (s : Store) (id : Id) : Store :=
  { s with
    manifestations := s.manifestations.keep fun m => m.id != id
    involvements := s.involvements.keep fun i => i.manifestation != id }

/-- Removes an authority with its credits. -/
def dropAuthority (s : Store) (id : Id) : Store :=
  { s with
    authorities := s.authorities.keep fun a => a.id != id
    involvements := s.involvements.keep fun i => i.authority != id }

end Store

end Anthology
