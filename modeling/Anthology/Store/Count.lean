/-
**How many works a collection holds.**

A work counts once for every way down to it: once for each slot that refers to it, and a collection
that is reached along two ways counts twice.  Slots that refer to nothing, or to a record that does
not exist, count nothing.  Every collection caches its number.  After a change to the slots of a
collection its number and those of all collections above it are counted anew from the works, and a
row is written only where its number was wrong.

The works are counted along a stack.  Whatever is on top is taken off, the works that its slots
refer to are added up, and the collections that they refer to are put on the stack.

Main definitions:

* `Anthology.Store.tally` — the walk along the stack;
* `Anthology.Store.countBelow` — the number of works that a collection holds;
* `Anthology.Store.refreshCount` — counts one collection anew;
* `Anthology.Store.propagate` — counts a collection and everything above it anew;
* `Anthology.Store.recalculate`, `Anthology.Store.recalculateAll` — the repair of the cache.
-/

import Anthology.Store.Containment

set_option relaxedAutoImplicit false
set_option autoImplicit false

namespace Anthology

/-! ### Reports -/

/-- The number that was cached and the number that is right. -/
structure Recount where
  cached : Int
  actual : Int
deriving DecidableEq

/-- Whether the cached number was wrong. -/
def Recount.drifted (r : Recount) : Bool := r.cached != r.actual

/-- A cached number that was found wrong, with the collection it belongs to. -/
structure Drift where
  collection : Id
  recount : Recount
deriving DecidableEq

/-- What a repair of all cached numbers did. -/
@[ext] structure RecalculateSummary where
  checked : Nat
  corrected : Nat
deriving DecidableEq

def RecalculateSummary.codec : Codec RecalculateSummary where
  encode r := .object [("checked", .number r.checked), ("corrected", .number r.corrected)]
  decode j := do
    let fs ← j.record? ["checked", "corrected"]
    return {
      checked := ← fs.get "checked" (.unsigned 64)
      corrected := ← fs.get "corrected" (.unsigned 64) }

namespace Store

/-! ### Counting -/

/-- The slots of a collection that refer to a work that exists. -/
def worksIn (s : Store) (c : Id) : Nat :=
  (s.slotsOf c).countP fun x => x.item.manifestation?.any s.hasManifestation

/-- The collections that exist among those that the slots of a collection refer to. -/
def subCollections (s : Store) (c : Id) : List Id := (s.childrenOf c).filter s.hasCollection

/-- The number of works after the stack was worked off, where `works` were counted before.  There is
no answer if the turns do not suffice. -/
def tally (s : Store) : Nat → List Id → Nat → Option Nat
  | 0, _, _ => none
  | _ + 1, [], works => some works
  | turns + 1, c :: stack, works =>
    tally s turns ((s.subCollections c).reverse ++ stack) (works + s.worksIn c)

/-- So many turns suffice where no collection contains itself.  In a cycle the walk has no end. -/
def turns (s : Store) : Nat := Nat.pow (s.slots.size + 1) s.collections.size + 1

/-- The number of works that a collection holds. -/
def countBelow (s : Store) (c : Id) : Nat := (s.tally s.turns [c] 0).getD 0

/-! ### The cache -/

/-- Counts one collection anew, and writes the number where the cached one was wrong. -/
def refreshCount (s : Store) (now : Time) (c : Id) : Except Fault (Recount × Store) :=
  match s.collection? c with
  | none => .error (.storage .noRow)
  | some row =>
    let actual : Int := s.countBelow c
    .ok (⟨row.count, actual⟩, if actual = row.count then s else s.setCount now c actual)

/-- Counts the listed collections anew, one after the other. -/
def refreshCounts (s : Store) (now : Time) : List Id → Except Fault Store
  | [] => .ok s
  | c :: cs => do
    let (_, s) ← s.refreshCount now c
    s.refreshCounts now cs

/-- Counts a collection and everything above it anew, each once. -/
def propagate (s : Store) (now : Time) (c : Id) : Except Fault Store :=
  s.refreshCounts now (s.upward c)

/-- Counts anew from a collection whose slots came to refer, or ceased to refer, to something. -/
def propagateIf (s : Store) (now : Time) (affected : Bool) (c : Id) : Except Fault Store :=
  if affected then s.propagate now c else .ok s

/-- Counts anew from each of the listed collections. -/
def propagateAll (s : Store) (now : Time) : List Id → Except Fault Store
  | [] => .ok s
  | c :: cs => do
    let s ← s.propagate now c
    s.propagateAll now cs

/-! ### Repair -/

/-- Counts one collection anew, without those above it. -/
def recalculate (s : Store) (now : Time) (c : Id) : Except Fault (Recount × Store) := do
  let _ ← s.requireCollection c
  s.refreshCount now c

/-- The wrong numbers met when the listed collections are counted anew one after the other. -/
def repair (s : Store) (now : Time) : List Id → Except Fault (List Drift × Store)
  | [] => .ok ([], s)
  | c :: cs => do
    let (recount, s) ← s.refreshCount now c
    let (drifts, s) ← s.repair now cs
    return (if recount.drifted then ⟨c, recount⟩ :: drifts else drifts, s)

/-- The ids of all collections in ascending order. -/
def collectionIds (s : Store) : List Id :=
  (s.collections.rows.map Collection.id).mergeSort fun a b => decide (a ≤ b)

/-- Counts every collection anew, in the order of their ids. -/
def recalculateAll (s : Store) (now : Time) :
    Except Fault ((RecalculateSummary × List Drift) × Store) := do
  let (drifts, s') ← s.repair now s.collectionIds
  return ((⟨s.collections.size, drifts.length⟩, drifts), s')

end Store

end Anthology
