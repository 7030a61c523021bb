/-
**What a session shows.**

Every reply has a form as a Json value: records by their codecs, numbers, flags and texts as they
are, and null where there is nothing.  Whoever traces a session needs less than a whole snapshot:
an outline names the collections with their counts and slots, and the times at which each of them
was last written.

Main definitions:

* `Anthology.Snapshot.encode`, `Anthology.Reply.encode` — replies as Json values;
* `Anthology.Session.outline` — the outline of the store of an open session.
-/

import Anthology.Session.Answer

set_option relaxedAutoImplicit false
set_option autoImplicit false

namespace Anthology

def Snapshot.encode (s : Snapshot) : Json := .object [
  ("collections", Collection.codec.list.encode s.collections),
  ("items", Slot.codec.list.encode s.slots),
  ("manifestations", Manifestation.codec.list.encode s.manifestations),
  ("authorities", Authority.codec.list.encode s.authorities),
  ("involvements", Involvement.codec.list.encode s.involvements)]

def Reply.encode : Reply → Json
  | .nothing => .null
  | .flag b => .bool b
  | .number n => .number n
  | .text t => Codec.text.optional.encode t
  | .title t => .object [("title", Codec.text.optional.encode t)]
  | .ids is => Codec.text.list.encode is
  | .collection c => Collection.codec.encode c
  | .collections cs => Collection.codec.list.encode cs
  | .collectionPage p => (Page.codec Collection.codec).encode p
  | .slot x => Slot.codec.encode x
  | .slots xs => Slot.codec.list.encode xs
  | .manifestation m => Manifestation.codec.encode m
  | .manifestations ms => Manifestation.codec.list.encode ms
  | .manifestationPage p => (Page.codec Manifestation.codec).encode p
  | .authority a => Authority.codec.encode a
  | .involvements is => Involvement.codec.list.encode is
  | .placed p => Placed.codec.encode p
  | .periodical p => PeriodicalWithIssue.codec.encode p
  | .summary s => RecalculateSummary.codec.encode s
  | .subtree t => Subtree.codec.encode t
  | .tree t => CollectionTree.codec.encode t
  | .outcome o => RefreshOutcome.codec.encode o
  | .outcomes os => RefreshOutcome.codec.list.encode os
  | .report r => CleanupReport.codec.encode r
  | .snapshot s => s.encode

namespace Session

/-- A collection with its count and its slots, each with the time of its last writing. -/
def outlineOf (s : Store) (c : Collection) : Json :=
  let slots := (s.orderedSlots c.id).map fun x =>
    Json.array [.string x.id, .number x.seqno, .number x.updatedAt]
  .array [.number c.count, .number c.updatedAt, .array slots]

/-- The outline of every collection by its id, and null where the session is closed. -/
def outline (n : Session) : Json :=
  if n.closed then .null
  else .object ((snapshot n.store).collections.map fun c => (c.id, outlineOf n.store c))

end Session

end Anthology
