/-
**Collections.**

A collection is a titled, ordered container of works, of other collections and of places kept free
for them.  Its kind says what it stands for.  One kind is not for editors: an uncollected
collection gathers the works of one authority that no other collection holds, and only the upkeep
of these collections may create one.

Main definitions:

* `Anthology.CollectionKind` — the closed set of kinds;
* `Anthology.Collection` — a collection and its cached number of works;
* `Anthology.Collection.flaw?` — what makes a collection unfit to be stored.
-/

import Anthology.Fault
import Anthology.Json
import Anthology.Text.Blank

set_option relaxedAutoImplicit false
set_option autoImplicit false

namespace Anthology

/-- The name under which a record is found. -/
abbrev Id := String

/-- A moment, in seconds of Unix time. -/
abbrev Time := Int

/-! ### Kinds -/

inductive CollectionKind where
  | volume
  | periodical
  | periodicalIssue
  | series
  | volumeSeries
  | other
  /-- The works of one authority that no other collection holds. -/
  | uncollected
deriving DecidableEq, Repr

namespace CollectionKind

def all : List CollectionKind :=
  [volume, periodical, periodicalIssue, series, volumeSeries, other, uncollected]

theorem mem_all (k : CollectionKind) : k ∈ all := by cases k <;> decide

def name : CollectionKind → String
  | volume => "volume"
  | periodical => "periodical"
  | periodicalIssue => "periodical_issue"
  | series => "series"
  | volumeSeries => "volume_series"
  | other => "other"
  | uncollected => "uncollected"

theorem name_inj {k l : CollectionKind} (h : k.name = l.name) : k = l := by
  revert h
  cases k <;> cases l <;> decide

/-- The kind of a collection that nothing more is said of. -/
def default : CollectionKind := other

instance : Inhabited CollectionKind := ⟨default⟩

def isUncollected (k : CollectionKind) : Bool := k == uncollected

/-- The kind with a given name. -/
def ofName (s : String) : Except Fault CollectionKind :=
  match all.find? fun k => k.name == s with
  | some k => .ok k
  | none => .error (.invalidInput "collection_type" s!"unknown type '{s}'")

def codec : Codec CollectionKind := .named all name

end CollectionKind

/-! ### Collections -/

@[ext] structure Collection where
  id : Id
  title : String
  subtitle : Option String
  description : Option String
  kind : CollectionKind
  /-- The cached number of works that the collection holds, directly and further down. -/
  count : Int
  createdAt : Time
  updatedAt : Time
deriving DecidableEq

namespace Collection

/-- A new collection, which holds nothing. -/
def create (id : Id) (now : Time) (title : String) (kind : CollectionKind) : Collection where
  id
  title
  subtitle := none
  description := none
  kind
  count := 0
  createdAt := now
  updatedAt := now

/-- What makes a collection unfit to be stored. -/
def flaw? (c : Collection) : Option String :=
  if Text.isBlank c.title then some "Collection title cannot be empty"
  else if c.count < 0 then some "Manifestations count cannot be negative"
  else none

def isUncollected (c : Collection) : Bool := c.kind.isUncollected

/-- The order of listings of collections: by title, and by id where the titles agree. -/
def precedes (c d : Collection) : Bool := c.title < d.title || (c.title == d.title && c.id ≤ d.id)

def codec : Codec Collection where
  encode c := .object [
    ("id", .string c.id),
    ("title", .string c.title),
    ("subtitle", Codec.text.optional.encode c.subtitle),
    ("description", Codec.text.optional.encode c.description),
    ("collection_type", CollectionKind.codec.encode c.kind),
    ("manifestations_count", .number c.count),
    ("created_at", .number c.createdAt),
    ("updated_at", .number c.updatedAt)]
  decode j := do
    let fs ← j.record?
      ["id", "title", "subtitle", "description", "collection_type", "manifestations_count",
        "created_at", "updated_at"]
    return {
      id := ← fs.get "id" .text
      title := ← fs.get "title" .text
      subtitle := ← fs.get? "subtitle" .text
      description := ← fs.get? "description" .text
      kind := ← fs.get "collection_type" CollectionKind.codec
      count := ← fs.get "manifestations_count" (.signed 64)
      createdAt := ← fs.get "created_at" (.signed 64)
      updatedAt := ← fs.get "updated_at" (.signed 64) }

end Collection

end Anthology
