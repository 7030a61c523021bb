/-
**The order of slots.**

Slots are added, changed, pointed elsewhere, removed and put into another order.  A slot goes to
the end of its collection unless it is given a number.  Putting the slots of one collection into
another order numbers them `1, 2, …` and writes those rows only whose number changes.  Moving a
slot to another collection makes room for it there and leaves the rest of its old collection as it
is, gaps included.

An operation that brings in a reference checks that what it refers to exists and that no cycle is
closed; one after which a collection may hold more or fewer works counts anew from there.

Numbers are signed words.  What reads them fails where one cannot be read, and a slot behind the
last one gets the sum of its number and one, which need not fit a word.  The slots that make room
are numbered by the store itself, which takes a real number for the sum behind the last word.

Main definitions:

* `Anthology.Store.addItem`, `Anthology.Store.appendMany` — new slots;
* `Anthology.Store.updateItem`, `Anthology.Store.retargetItem`, `Anthology.Store.removeItem`;
* `Anthology.Store.reorder`, `Anthology.Store.moveItem` — another order in one collection;
* `Anthology.Store.transplant` — a slot moved to a rank in a collection.
-/

import Anthology.Store.Count

set_option relaxedAutoImplicit false
set_option autoImplicit false

namespace Anthology

namespace Store

/-! ### New slots -/

/-- The number after the last slot of the collection. -/
def nextPlace [Arithmetic] (s : Store) (c : Id) : Except Fault Int := do
  Word.next (← s.readMax c)

/-- The number for a new slot: the one that was asked for, if it is positive, and otherwise the one
after the last. -/
def placeFor [Arithmetic] (s : Store) (c : Id) : Option Int64 → Except Fault Int
  | none => s.nextPlace c
  | some n => do
    ensure (decide (0 < n.toInt)) (.invalidInput "seqno" "must be positive")
    return n.toInt

/-- Adds a slot, under the id `id`, to the collection `c`. -/
def addItem [Arithmetic] (s : Store) (now : Time) (id c : Id) (r : ItemRef) (a : SlotAttrs) :
    Except Fault (Slot × Store) := do
  let _ ← s.requireCollection c
  s.requireTarget r
  s.guard c r
  let seqno ← s.placeFor c a.seqno
  let slot := { Slot.create id now c r seqno with altTitle := a.altTitle, markdown := a.markdown }
  let s ← s.insertSlot slot
  let s ← s.propagateIf now r.affectsCount c
  return (slot, s)

/-- Adds a slot to the end of the collection `c`. -/
def appendItem [Arithmetic] (s : Store) (now : Time) (id c : Id) (r : ItemRef) :
    Except Fault (Slot × Store) :=
  s.addItem now id c r .unset

/-- Adds slots for the references to the collection `c`, numbered from `seqno` on and under the ids
`fresh k`, `fresh (k + 1)`, …, and counts nothing anew.  The next number is made behind each slot,
the last one among them. -/
def appendFrom [Arithmetic] (now : Time) (fresh : Nat → Id) (c : Id) (s : Store) (seqno : Int)
    (k : Nat) : List ItemRef → Except Fault (List Slot × Store)
  | [] => .ok ([], s)
  | r :: rs => do
    s.requireTarget r
    s.guard c r
    let slot := Slot.create (fresh k) now c r seqno
    let s ← s.insertSlot slot
    let next ← Word.next seqno
    let (slots, s) ← appendFrom now fresh c s next (k + 1) rs
    return (slot :: slots, s)

/-- Adds slots for the references to the end of the collection `c`, and counts nothing anew. -/
def appendRefs [Arithmetic] (s : Store) (now : Time) (fresh : Nat → Id) (c : Id)
    (rs : List ItemRef) : Except Fault (List Slot × Store) := do
  appendFrom now fresh c s (← s.nextPlace c) 0 rs

/-- The number of slots that are made on the way through the references, the one that is refused at
last among them. -/
def triedFrom [Arithmetic] (now : Time) (fresh : Nat → Id) (c : Id) (s : Store) (seqno : Int)
    (k : Nat) : List ItemRef → Nat
  | [] => 0
  | r :: rs =>
    if !(s.requireTarget r).isOk || !(s.guard c r).isOk then 0
    else
      match s.insertSlot (Slot.create (fresh k) now c r seqno) with
      | .error _ => 1
      | .ok s => 1 + (Word.next seqno).toOption.elim 0 fun next =>
        triedFrom now fresh c s next (k + 1) rs

/-- The number of ids that are given out by `appendRefs`, whether it succeeds or not. -/
def idsTried [Arithmetic] (s : Store) (now : Time) (fresh : Nat → Id) (c : Id)
    (rs : List ItemRef) : Nat :=
  (s.nextPlace c).toOption.elim 0 fun seqno => triedFrom now fresh c s seqno 0 rs

/-- Adds slots for the references to the end of the collection `c`, and counts anew once. -/
def appendMany [Arithmetic] (s : Store) (now : Time) (fresh : Nat → Id) (c : Id)
    (rs : List ItemRef) : Except Fault (List Slot × Store) := do
  let _ ← s.requireCollection c
  let (slots, s) ← s.appendRefs now fresh c rs
  let s ← s.propagateIf now (rs.any ItemRef.affectsCount) c
  return (slots, s)

/-! ### Changes of one slot -/

/-- Replaces the label and the text of a slot, and its number if one is given. -/
def updateItem (s : Store) (now : Time) (id : Id) (a : SlotAttrs) :
    Except Fault (Slot × Store) := do
  let slot ← s.requireSlot id
  ensure (a.seqno.all fun n => decide (0 < n.toInt)) (.invalidInput "seqno" "must be positive")
  let edit (x : Slot) : Slot :=
    { x with
      seqno := a.seqno.elim x.seqno Int64.toInt
      altTitle := a.altTitle
      markdown := a.markdown
      updatedAt := now }
  return (edit slot, s.editSlot id edit fun _ => rfl)

/-- Points a slot at something else, at its old place. -/
def retargetItem (s : Store) (now : Time) (id : Id) (r : ItemRef) :
    Except Fault (Slot × Store) := do
  let slot ← s.requireSlot id
  s.requireTarget r
  s.guard slot.owner r
  let edit (x : Slot) : Slot := { x with item := r, updatedAt := now }
  let s := s.editSlot id edit fun _ => rfl
  let s ← s.propagateIf now (slot.item.affectsCount || r.affectsCount) slot.owner
  return (edit slot, s)

/-- Removes a slot, and tells whether there was one.  The others keep their numbers. -/
def removeItem (s : Store) (now : Time) (id : Id) : Except Fault (Bool × Store) := do
  match ← s.fetchSlot id with
  | none => return (false, s)
  | some slot =>
    let s := s.dropSlots fun x => x.id == id
    let s ← s.propagateIf now slot.item.affectsCount slot.owner
    return (true, s)

/-! ### Another order in one collection -/

/-- The position, from zero, of a slot in the order of its collection. -/
def positionOf (items : List Slot) (c id : Id) : Except Fault Nat :=
  require "CollectionItem" s!"{id} in collection {c}" (items.findIdx? fun x => x.id == id)

/-- The list with the element at one position taken out and put in at another. -/
def relocate {α : Type} (items : List α) (origin target : Nat) : List α :=
  match items[origin]? with
  | some x => (items.eraseIdx origin).insertIdx target x
  | none => items

/-- The list with the elements at two positions exchanged. -/
def exchange {α : Type} (items : List α) (i j : Nat) : List α :=
  match items[i]?, items[j]? with
  | some x, some y => (items.set i y).set j x
  | _, _ => items

/-- Numbers the slots along the list from `n` on, and writes those only whose number changes. -/
def renumberFrom (now : Time) (s : Store) (n : Int) : List Slot → Store
  | [] => s
  | x :: xs =>
    renumberFrom now (if x.seqno = n then s else s.setSeqno now x.id n) (n + 1) xs

/-- The slots along the list, numbered from `n` on. -/
def numberedFrom (n : Int) : List Slot → List Slot
  | [] => []
  | x :: xs => { x with seqno := n } :: numberedFrom (n + 1) xs

/-- Numbers the slots of a collection densely in the given order. -/
def renumber (s : Store) (now : Time) (items : List Slot) : List Slot × Store :=
  (numberedFrom 1 items, renumberFrom now s 1 items)

/-- Moves a slot of the collection `c` to the position `new`, or to the last one.  Its true
position is where it comes from, whatever `old` says; but nothing happens where the two positions
that are named agree. -/
def reorder (s : Store) (now : Time) (c id : Id) (old new : Nat) :
    Except Fault (List Slot × Store) := do
  let _ ← s.requireCollection c
  let items ← s.readSlots c
  let position ← positionOf items c id
  if old = new then return (items, s)
  else return s.renumber now (relocate items position (min new (items.length - 1)))

/-- Towards the first slot or towards the last one. -/
inductive Direction where
  | up
  | down
deriving DecidableEq, Repr

/-- The position next to one in a list of so many, if there is one. -/
def Direction.neighbour? (position length : Nat) : Direction → Option Nat
  | up => if position = 0 then none else some (position - 1)
  | down => if position + 1 < length then some (position + 1) else none

/-- Exchanges a slot of the collection `c` with its neighbour, if it has one on that side. -/
def moveItem (s : Store) (now : Time) (direction : Direction) (c id : Id) :
    Except Fault (List Slot × Store) := do
  let _ ← s.requireCollection c
  let items ← s.readSlots c
  let position ← positionOf items c id
  match direction.neighbour? position items.length with
  | none => return (items, s)
  | some neighbour => return s.renumber now (exchange items position neighbour)

/-! ### To another collection -/

/-- The number that puts a slot at the given rank, counted from one, in front of the slot that is
there now, or behind the last slot. -/
def seqnoAt [Arithmetic] (items : List Slot) (rank : Int) : Except Fault Int :=
  if rank ≤ 1 then .ok 1
  else
    match items[rank.toNat - 1]? with
    | some x => .ok x.seqno
    | none => Word.next (items.getLast?.elim 0 Slot.seqno)

/-- Moves the slots of a collection, all but one, up by one from a number on.  A slot with the last
word gets a number that its row keeps and that cannot be read any more. -/
def shiftFrom (s : Store) (now : Time) (c : Id) (seqno : Int) (but : Id) : Store :=
  { s with
    slots := s.slots.update
      (fun x =>
        if x.owner = c ∧ seqno ≤ x.seqno ∧ x.id ≠ but then
          { x with seqno := x.seqno + 1, updatedAt := now }
        else x)
      fun _ => by split <;> rfl }

/-- Moves a slot to the given rank, counted from one, in the collection `dest`. -/
def transplant [Arithmetic] (s : Store) (now : Time) (id dest : Id) (rank : Int) :
    Except Fault (Slot × Store) := do
  let slot ← s.requireSlot id
  let _ ← s.requireCollection dest
  s.guard dest slot.item
  let seqno ← seqnoAt (← s.readSlots dest) rank
  ensure (decide (0 < seqno)) (.violated .seqnoPositive)
  let edit (x : Slot) : Slot := { x with owner := dest, seqno, updatedAt := now }
  let s := (s.shiftFrom now dest seqno id).editSlot id edit fun _ => rfl
  let affected := slot.item.affectsCount && slot.owner != dest
  let s ← s.propagateIf now affected slot.owner
  let s ← s.propagateIf now affected dest
  return (edit slot, s)

end Store

end Anthology
