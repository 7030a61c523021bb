/-
**Events.**

Whatever changes the catalog announces it by an event.  An event is about collections and their
slots or about authorities and their uncollected collections.  One event is a request as well: that
the credits of an authority changed tells the upkeep to refresh its uncollected collection.

Main definitions:

* `Anthology.CollectionEvent`, `Anthology.AuthorityEvent`, `Anthology.Event` — the events;
* `Anthology.Event.description`, `Anthology.Event.severity` — what is said of an event;
* `Anthology.Severity` — how much an event matters, in ascending order.
-/

import Anthology.Record.Collection

set_option relaxedAutoImplicit false
set_option autoImplicit false

namespace Anthology

/-! ### Severity -/

inductive Severity where
  | debug
  | info
  | warning
  | error
deriving DecidableEq, Repr

namespace Severity

def all : List Severity := [debug, info, warning, error]

def name : Severity → String
  | debug => "Debug"
  | info => "Info"
  | warning => "Warning"
  | error => "Error"

def rank : Severity → Nat
  | debug => 0
  | info => 1
  | warning => 2
  | error => 3

instance : LE Severity := ⟨fun s t => s.rank ≤ t.rank⟩

instance : LT Severity := ⟨fun s t => s.rank < t.rank⟩

instance (s t : Severity) : Decidable (s ≤ t) := inferInstanceAs (Decidable (s.rank ≤ t.rank))

instance (s t : Severity) : Decidable (s < t) := inferInstanceAs (Decidable (s.rank < t.rank))

def codec : Codec Severity := .named all name

end Severity

/-! ### Collections -/

inductive CollectionEvent where
  | created (collection : Id) (title : String)
  | updated (collection : Id)
  /-- The collection is gone, and so is every slot that referred to it. -/
  | deleted (collection : Id)
  | itemsChanged (collection : Id)
  | itemTransplanted (item source destination : Id)
  | countRecalculated (collection : Id) (count : Int)
deriving DecidableEq, Repr

namespace CollectionEvent

def description : CollectionEvent → String
  | created .. => "Collection created"
  | updated _ => "Collection updated"
  | deleted _ => "Collection deleted"
  | itemsChanged _ => "Collection items changed"
  | itemTransplanted .. => "Item moved between collections"
  | countRecalculated .. => "Manifestation count recalculated"

/-- The collection that the event is about; of a moved slot, the one it moved to. -/
def collection : CollectionEvent → Id
  | created c _ | updated c | deleted c | itemsChanged c | countRecalculated c _ => c
  | itemTransplanted _ _ c => c

/-- The names of the cases, in order. -/
def cases : List String :=
  ["Created", "Updated", "Deleted", "ItemsChanged", "ItemTransplanted", "CountRecalculated"]

/-- Reads an event, of which the case may be given by its number where cases are `numbered`. -/
def read? (numbered : Bool) (j : Json) : Option CollectionEvent := do
  let (case, rest) ← j.tagged? "event"
  match ← case.case? cases numbered with
  | "Created" =>
    let fs ← rest.record? ["collection_id", "title"]
    return created (← fs.get "collection_id" .text) (← fs.get "title" .text)
  | "Updated" =>
    let fs ← rest.record? ["collection_id"]
    return updated (← fs.get "collection_id" .text)
  | "Deleted" =>
    let fs ← rest.record? ["collection_id"]
    return deleted (← fs.get "collection_id" .text)
  | "ItemsChanged" =>
    let fs ← rest.record? ["collection_id"]
    return itemsChanged (← fs.get "collection_id" .text)
  | "ItemTransplanted" =>
    let fs ← rest.record? ["item_id", "from_collection_id", "to_collection_id"]
    return itemTransplanted (← fs.get "item_id" .text) (← fs.get "from_collection_id" .text)
      (← fs.get "to_collection_id" .text)
  | "CountRecalculated" =>
    let fs ← rest.record? ["collection_id", "manifestations_count"]
    return countRecalculated (← fs.get "collection_id" .text)
      (← fs.get "manifestations_count" (.signed 64))
  | _ => none

/-- The name of the case stands among the fields. -/
def codec : Codec CollectionEvent where
  encode
    | created c title => .object [
        ("event", .string "Created"), ("collection_id", .string c), ("title", .string title)]
    | updated c => .object [("event", .string "Updated"), ("collection_id", .string c)]
    | deleted c => .object [("event", .string "Deleted"), ("collection_id", .string c)]
    | itemsChanged c => .object [("event", .string "ItemsChanged"), ("collection_id", .string c)]
    | itemTransplanted item source destination => .object [
        ("event", .string "ItemTransplanted"), ("item_id", .string item),
        ("from_collection_id", .string source), ("to_collection_id", .string destination)]
    | countRecalculated c count => .object [
        ("event", .string "CountRecalculated"), ("collection_id", .string c),
        ("manifestations_count", .number count)]
  decode := read? false

end CollectionEvent

/-! ### Authorities -/

inductive AuthorityEvent where
  /-- The credits of the authority, or the publication of a work credited to it, changed. -/
  | involvementChanged (authority : Id)
  | refreshed (authority collection : Id) (added removed : Nat)
  /-- A refresh was given up after so many attempts. -/
  | refreshFailed (authority : Id) (message : String) (attempts : Nat)
deriving DecidableEq, Repr

namespace AuthorityEvent

def description : AuthorityEvent → String
  | involvementChanged _ => "Authority involvement changed"
  | refreshed .. => "Uncollected works refreshed"
  | refreshFailed .. => "Uncollected works refresh failed"

/-- The authority that the event is about. -/
def authority : AuthorityEvent → Id
  | involvementChanged a | refreshed a _ _ _ | refreshFailed a _ _ => a

/-- The names of the cases, in order. -/
def cases : List String :=
  ["InvolvementChanged", "UncollectedRefreshed", "UncollectedRefreshFailed"]

/-- Reads an event, of which the case may be given by its number where cases are `numbered`. -/
def read? (numbered : Bool) (j : Json) : Option AuthorityEvent := do
  let (case, rest) ← j.tagged? "event"
  match ← case.case? cases numbered with
  | "InvolvementChanged" =>
    let fs ← rest.record? ["authority_id"]
    return involvementChanged (← fs.get "authority_id" .text)
  | "UncollectedRefreshed" =>
    let fs ← rest.record? ["authority_id", "collection_id", "added", "removed"]
    return refreshed (← fs.get "authority_id" .text) (← fs.get "collection_id" .text)
      (← fs.get "added" (.unsigned 64)) (← fs.get "removed" (.unsigned 64))
  | "UncollectedRefreshFailed" =>
    let fs ← rest.record? ["authority_id", "message", "attempts"]
    return refreshFailed (← fs.get "authority_id" .text) (← fs.get "message" .text)
      (← fs.get "attempts" (.unsigned 32))
  | _ => none

/-- The name of the case stands among the fields. -/
def codec : Codec AuthorityEvent where
  encode
    | involvementChanged a => .object [
        ("event", .string "InvolvementChanged"), ("authority_id", .string a)]
    | refreshed a c added removed => .object [
        ("event", .string "UncollectedRefreshed"), ("authority_id", .string a),
        ("collection_id", .string c), ("added", .number added), ("removed", .number removed)]
    | refreshFailed a message attempts => .object [
        ("event", .string "UncollectedRefreshFailed"), ("authority_id", .string a),
        ("message", .string message), ("attempts", .number attempts)]
  decode := read? false

end AuthorityEvent

/-! ### All events -/

inductive Event where
  | collection (event : CollectionEvent)
  | authority (event : AuthorityEvent)
deriving DecidableEq, Repr

namespace Event

def description : Event → String
  | collection e => e.description
  | authority e => e.description

/-- A failed refresh is an error, what was made, deleted or refreshed is news, and the rest is
detail. -/
def severity : Event → Severity
  | authority (.refreshFailed ..) => .error
  | collection (.created ..) | collection (.deleted _) | authority (.refreshed ..) => .info
  | _ => .debug

/-- The authority whose credits changed, if the event says so. -/
def involvement? : Event → Option Id
  | authority (.involvementChanged a) => some a
  | _ => none

/-- The name of the kind beside the event itself.  Inside an object the case of the event may be
given by its number. -/
def codec : Codec Event where
  encode
    | collection e => .object [
        ("type", .string "Collection"), ("payload", CollectionEvent.codec.encode e)]
    | authority e => .object [
        ("type", .string "Authority"), ("payload", AuthorityEvent.codec.encode e)]
  decode j := do
    let (kind, payload) ← j.adjacent? "type" "payload"
    match kind with
    | "Collection" => (CollectionEvent.read? j.isObject (← payload)).map collection
    | "Authority" => (AuthorityEvent.read? j.isObject (← payload)).map authority
    | _ => none

end Event

end Anthology
