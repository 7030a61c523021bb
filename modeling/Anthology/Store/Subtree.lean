/-
**Everything below and above a collection.**

A subtree is read level by level, so that every record comes once, however many ways lead to it,
and the nearer ones before the farther.  The slots of a level are read in portions of 500
collections; within a portion they are ordered across its collections.  References to records that
do not exist are passed over.

Main definitions:

* `Anthology.Subtree`, `Anthology.CollectionTree` — what is read;
* `Anthology.Store.descendants`, `Anthology.Store.ancestors`, `Anthology.Store.tree` — downwards,
  upwards and both.
-/

import Anthology.Store.Collections

set_option relaxedAutoImplicit false
set_option autoImplicit false

namespace Anthology

/-! ### What is read -/

/-- The collections of a subtree, the root first, and the works that their slots refer to. -/
@[ext] structure Subtree where
  manifestations : List Manifestation
  collections : List Collection
deriving DecidableEq

/-- What is below a collection and what is above it. -/
@[ext] structure CollectionTree where
  descendants : Subtree
  ancestors : List Collection
deriving DecidableEq

def Subtree.codec : Codec Subtree where
  encode t := .object [
    ("manifestations", Manifestation.codec.list.encode t.manifestations),
    ("collections", Collection.codec.list.encode t.collections)]
  decode j := do
    let fs ← j.record? ["manifestations", "collections"]
    return {
      manifestations := ← fs.get "manifestations" Manifestation.codec.list
      collections := ← fs.get "collections" Collection.codec.list }

def CollectionTree.codec : Codec CollectionTree where
  encode t := .object [
    ("descendants", Subtree.codec.encode t.descendants),
    ("ancestors", Collection.codec.list.encode t.ancestors)]
  decode j := do
    let fs ← j.record? ["descendants", "ancestors"]
    return {
      descendants := ← fs.get "descendants" Subtree.codec
      ancestors := ← fs.get "ancestors" Collection.codec.list }

namespace Store

/-! ### Portions -/

/-- The number of collections whose slots are read at once. -/
def portionSize : Nat := 500

/-- The list cut into portions of `n + 1` elements, of which the last may be shorter.  A list has
no more portions than elements, and `fuel` is that number. -/
def portionsWithin {α : Type} (n : Nat) : Nat → List α → List (List α)
  | 0, _ => []
  | _ + 1, [] => []
  | fuel + 1, xs => xs.take (n + 1) :: portionsWithin n fuel (xs.drop (n + 1))

/-- The list cut into portions. -/
def portions {α : Type} (xs : List α) : List (List α) :=
  portionsWithin (portionSize - 1) xs.length xs

/-! ### One level -/

/-- What the slots of a level of collections refer to. -/
def refsBelow (s : Store) (level : List Id) : List ItemRef :=
  (portions level).flatMap fun ids =>
    ((s.slots.rows.filter fun x => ids.contains x.owner && !x.item.isEmpty).mergeSort
      Slot.precedes).map Slot.item

/-- The collections that the slots of a level refer to. -/
def collectionsBelow (s : Store) (level : List Id) : List Id :=
  (s.refsBelow level).filterMap ItemRef.collection?

/-- The collections with a slot that refers to one of a level. -/
def collectionsAbove (s : Store) (level : List Id) : List Id :=
  (portions level).flatMap fun ids =>
    distinct ((s.slots.rows.filter fun x => x.item.collection?.any ids.contains).map Slot.owner)

/-! ### All levels -/

/-- Each level but the first brings a collection that no level before it has, so there are no more
levels than collections. -/
def levelBound (s : Store) : Nat := s.collections.size + 1

/-- The collections below a root by their distance from it. -/
def levelsBelow (s : Store) (root : Id) : List (List Id) :=
  Walk.levels s.collectionsBelow s.hasCollection s.levelBound [root] [root]

/-- The collections above a root by their distance to it. -/
def levelsAbove (s : Store) (root : Id) : List (List Id) :=
  Walk.levels s.collectionsAbove s.hasCollection s.levelBound [root] [root]

/-- The root, every collection below it and every work that one of them holds. -/
def descendants (s : Store) (root : Id) : Except Fault Subtree := do
  let _ ← s.requireCollection root
  let levels := s.levelsBelow root
  let works := (levels.flatMap fun l => (s.refsBelow l).filterMap ItemRef.manifestation?).eraseDups
  return {
    manifestations := works.filterMap s.manifestation?
    collections := s.collectionsAt levels.flatten }

/-- Every collection that contains the root, without the root. -/
def ancestors (s : Store) (root : Id) : Except Fault (List Collection) := do
  let _ ← s.requireCollection root
  return s.collectionsAt (s.levelsAbove root).tail.flatten

/-- What is below a root and what is above it. -/
def tree (s : Store) (root : Id) : Except Fault CollectionTree := do
  let descendants ← s.descendants root
  let ancestors ← s.ancestors root
  return { descendants, ancestors }

end Store

end Anthology
