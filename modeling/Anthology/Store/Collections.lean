/-
**Editing and listing collections.**

Editors create, change, delete and list collections.  The kind `uncollected` is out of their reach:
a collection can neither be created with it nor change to it or from it.  A deleted collection
takes along its slots and every slot that refers to it, and everything that contained it is counted
anew.

Main definitions:

* `Anthology.Store.createCollection`, `Anthology.Store.updateCollection`,
  `Anthology.Store.deleteCollection` — the edits;
* `Anthology.Store.collectionsOfKind`, `Anthology.Store.parents` — listings by title;
* `Anthology.Store.slotsReferringTo`, `Anthology.Store.titleOf?` — slots from the outside.
-/

import Anthology.Page
import Anthology.Store.Count

set_option relaxedAutoImplicit false
set_option autoImplicit false

namespace Anthology

namespace Store

/-! ### Edits -/

/-- Editors may not choose the kind `uncollected`. -/
def editable (kind : CollectionKind) : Except Fault Unit :=
  ensure (!kind.isUncollected) (.invalidInput "collection_type"
    "uncollected collections are maintained automatically")

/-- A new collection made by an editor. -/
def createCollection (s : Store) (c : Collection) : Except Fault Store := do
  editable c.kind
  s.putCollection c

/-- Replaces title, subtitle, description and kind of a collection. -/
def updateCollection (s : Store) (now : Time) (c : Collection) : Except Fault Store := do
  inspect "Collection" c.flaw?
  let old ← s.requireCollection c.id
  ensure (old.kind == c.kind || !(old.kind.isUncollected || c.kind.isUncollected))
    (.invalidInput "collection_type"
      s!"cannot change type from {old.kind.name} to {c.kind.name}")
  return s.editCollection c.id
    (fun x => { x with
      title := c.title
      subtitle := c.subtitle
      description := c.description
      kind := c.kind
      updatedAt := now })
    fun _ => rfl

/-- Deletes a collection with its slots and the slots that refer to it, and tells whether there was
one. -/
def deleteCollection (s : Store) (now : Time) (id : Id) : Except Fault (Bool × Store) :=
  if s.hasCollection id then do
    let detached := s.dropSlots fun x => x.item == .collection id
    let s ← (detached.dropCollection id).propagateAll now (s.parentsOf id)
    return (true, s)
  else .ok (false, s)

/-! ### Listings -/

/-- The collections of a kind, by title. -/
def collectionsOfKind (s : Store) (kind : CollectionKind) : List Collection :=
  (s.collections.rows.filter fun c => c.kind == kind).mergeSort Collection.precedes

/-- The collections with a slot that refers to the collection `id`, by title. -/
def parents (s : Store) (id : Id) : List Collection :=
  (s.collections.rows.filter fun c => (s.childrenOf c.id).contains id).mergeSort
    Collection.precedes

/-- The collections under the listed ids, in the order of the list. -/
def collectionsAt (s : Store) (ids : List Id) : List Collection := ids.filterMap s.collection?

/-! ### Slots from the outside -/

/-- The order of slots across collections. -/
def precedesAcross (x y : Slot) : Bool :=
  x.owner < y.owner || (x.owner == y.owner && x.precedes y)

/-- The slots that refer to `r`, in all collections.  Nothing is said to refer to nothing. -/
def slotsReferringTo (s : Store) (r : ItemRef) : List Slot :=
  if r.isEmpty then []
  else (s.slots.rows.filter fun x => x.item == r).mergeSort precedesAcross

/-- What a slot is called: an empty slot after its label, any other after what it refers to. -/
def titleOf? (s : Store) (x : Slot) : Option String :=
  match x.item with
  | .empty => x.placeholderTitle?
  | .manifestation id => (s.manifestation? id).map Manifestation.title
  | .collection id => (s.collection? id).map Collection.title

end Store

end Anthology
