/-
**Requests to a session.**

A session answers requests.  Most of them are calls of the service, which announces what it
changes; some go to the parts below it, which announce nothing; and some serve whoever watches the
session, who can look at the whole store, hold its write lock, close and open it, and write single
rows past everybody but the schema.

Main definitions:

* `Anthology.CollectionDraft`, `Anthology.ManifestationDraft`, `Anthology.AuthorityDraft` — records
  as a caller gives them, of which much may be left out;
* `Anthology.Request` — the requests; `Anthology.Reply` — what is answered;
* `Anthology.Request.isServiceCall` — the requests that the service answers.
-/

import Anthology.Page
import Anthology.Store.Compose
import Anthology.Store.Subtree
import Anthology.Uncollected.Cleanup

set_option relaxedAutoImplicit false
set_option autoImplicit false

namespace Anthology

/-! ### Drafts -/

/-- A collection as a caller gives it.  Without an id it takes a new one, and without times it is
made now. -/
structure CollectionDraft where
  id : Option Id
  title : String
  subtitle : Option String
  description : Option String
  kind : CollectionKind
  count : Int
  createdAt : Option Time
  updatedAt : Option Time

/-- A work as a caller gives it. -/
structure ManifestationDraft where
  id : Option Id
  title : String
  status : String
  createdAt : Option Time
  updatedAt : Option Time

/-- An authority as a caller gives it. -/
structure AuthorityDraft where
  id : Option Id
  name : String
  uncollected : Option Id
  lockVersion : Int
  createdAt : Option Time
  updatedAt : Option Time

def CollectionDraft.complete (d : CollectionDraft) (fresh : Id) (now : Time) : Collection where
  id := d.id.getD fresh
  title := d.title
  subtitle := d.subtitle
  description := d.description
  kind := d.kind
  count := d.count
  createdAt := d.createdAt.getD now
  updatedAt := d.updatedAt.getD now

def ManifestationDraft.complete (d : ManifestationDraft) (fresh : Id) (now : Time) :
    Manifestation where
  id := d.id.getD fresh
  title := d.title
  status := d.status
  createdAt := d.createdAt.getD now
  updatedAt := d.updatedAt.getD now

def AuthorityDraft.complete (d : AuthorityDraft) (fresh : Id) (now : Time) : Authority where
  id := d.id.getD fresh
  name := d.name
  uncollected := d.uncollected
  lockVersion := d.lockVersion
  createdAt := d.createdAt.getD now
  updatedAt := d.updatedAt.getD now

/-- A collection of which only the id and the title are given. -/
def CollectionDraft.titled (id : Id) (title : String) : CollectionDraft where
  id := some id
  title
  subtitle := none
  description := none
  kind := .default
  count := 0
  createdAt := none
  updatedAt := none

/-- A published work of which only the id and the title are given. -/
def ManifestationDraft.titled (id : Id) (title : String) : ManifestationDraft where
  id := some id
  title
  status := Manifestation.published
  createdAt := none
  updatedAt := none

/-- An authority of which only the id and the name are given. -/
def AuthorityDraft.named (id : Id) (name : String) : AuthorityDraft where
  id := some id
  name
  uncollected := none
  lockVersion := 0
  createdAt := none
  updatedAt := none

/-! ### Requests -/

inductive Request where
  -- Collections.
  | createCollection (draft : CollectionDraft)
  | updateCollection (draft : CollectionDraft)
  | deleteCollection (id : Id)
  | getCollection (id : Id)
  | listByKind (kind : CollectionKind) (page : PageRequest)
  | items (collection : Id)
  | parents (collection : Id)
  | itemTitle (item : Id)
  -- Slots.
  | addItem (collection : Id) (target : ItemRef) (attrs : SlotAttrs)
  | updateItem (item : Id) (attrs : SlotAttrs)
  | retargetItem (item : Id) (target : ItemRef)
  | removeItem (item : Id)
  | reorder (collection item : Id) (old new : Nat)
  | moveItem (direction : Store.Direction) (collection item : Id)
  | transplant (item dest : Id) (rank : Int)
  -- Collections made in place.
  | addPeriodicalIssue (periodical : Id) (title : String)
  | createSubCollection (parent : Id) (title : String) (kind : CollectionKind)
  | createPeriodicalWithIssue (title issueTitle : String)
  | periodicalIssues (collection : Id)
  -- Counts and subtrees.
  | recalculate (collection : Id)
  | recalculateAll
  | descendants (collection : Id)
  | ancestors (collection : Id)
  | tree (collection : Id)
  -- Works, authorities and upkeep.
  | createManifestation (draft : ManifestationDraft)
  | updateManifestation (draft : ManifestationDraft)
  | createAuthority (draft : AuthorityDraft)
  | addInvolvement (authority manifestation : Id) (role : Role)
  | removeInvolvement (authority manifestation : Id) (role : Role)
  | notify (authority : Id)
  | refresh (authority : Id)
  | refreshMany (authorities : List Id)
  | cleanup (mode : CleanupMode)
  | heldTwice
  | startWorker
  | shutdown
  -- Below the service.
  | addInvolvementQuietly (authority manifestation : Id) (role : Role)
  | removeInvolvementQuietly (authority manifestation : Id) (role : Role)
  | countCollections
  | countManifestations
  | countItems (collection : Id)
  | getItem (item : Id)
  | getManifestation (id : Id)
  | getAuthority (id : Id)
  | resolveTitle (slot : Slot)
  | findReferencing (target : ItemRef)
  | appendMany (collection : Id) (targets : List ItemRef)
  | validateInsertion (collection : Id) (target : ItemRef)
  | deleteManifestation (id : Id)
  | deleteAuthority (id : Id)
  | listManifestations (page : PageRequest)
  | updateAuthority (draft : AuthorityDraft)
  | findByUncollected (collection : Id)
  | involvements (authority : Id)
  | credited (manifestation : Id)
  -- For whoever watches the session.
  | state
  | reopen
  | lock
  | unlock
  | forceItem (slot : Slot)
  | forceKind (id : Id) (kind : CollectionKind)
  | forceLink (authority : Id) (collection : Option Id)

/-- The requests that the service answers; the faults of all others are those of the catalog. -/
def Request.isServiceCall : Request → Bool
  | .addInvolvementQuietly .. | .removeInvolvementQuietly .. | .countCollections
  | .countManifestations | .countItems _ | .getItem _ | .getManifestation _ | .getAuthority _
  | .resolveTitle _ | .findReferencing _ | .appendMany .. | .validateInsertion ..
  | .deleteManifestation _ | .deleteAuthority _ | .listManifestations _ | .updateAuthority _
  | .findByUncollected _ | .involvements _ | .credited _ | .state | .reopen | .lock | .unlock
  | .forceItem _ | .forceKind .. | .forceLink .. => false
  | _ => true

/-! ### Replies -/

/-- The rows of a store in the order of their keys. -/
structure Snapshot where
  collections : List Collection
  slots : List Slot
  manifestations : List Manifestation
  authorities : List Authority
  involvements : List Involvement

/-- What is answered. -/
inductive Reply where
  | nothing
  | flag (value : Bool)
  | number (value : Int)
  | text (value : Option String)
  /-- The title of a slot, which may have none. -/
  | title (value : Option String)
  | ids (value : List Id)
  | collection (value : Collection)
  | collections (value : List Collection)
  | collectionPage (value : Page Collection)
  | slot (value : Slot)
  | slots (value : List Slot)
  | manifestation (value : Manifestation)
  | manifestations (value : List Manifestation)
  | manifestationPage (value : Page Manifestation)
  | authority (value : Authority)
  | involvements (value : List Involvement)
  | placed (value : Placed)
  | periodical (value : PeriodicalWithIssue)
  | summary (value : RecalculateSummary)
  | subtree (value : Subtree)
  | tree (value : CollectionTree)
  | outcome (value : RefreshOutcome)
  | outcomes (value : List RefreshOutcome)
  | report (value : CleanupReport)
  | snapshot (value : Snapshot)

namespace Reply

/-- The reply for a record that may not be there. -/
def ofOption {α : Type} (reply : α → Reply) : Option α → Reply
  | some a => reply a
  | none => nothing

end Reply

end Anthology
