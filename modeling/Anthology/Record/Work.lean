/-
**Works, authorities and credits.**

A manifestation is a work in the form in which it can be collected; it is published or not.  An
authority is a person or a body that works are credited to, each credit in a role.  Three of the
roles qualify: a work credited to an authority in one of them belongs into the authority's
uncollected collection as long as no other collection holds it.

Main definitions:

* `Anthology.Manifestation`, `Anthology.Authority` — works and those they are credited to;
* `Anthology.Role` and `Anthology.Role.qualifies` — the roles, and those that qualify;
* `Anthology.Involvement` — a credit.
-/

import Anthology.Record.Collection

set_option relaxedAutoImplicit false
set_option autoImplicit false

namespace Anthology

/-! ### Works -/

@[ext] structure Manifestation where
  id : Id
  title : String
  status : String
  createdAt : Time
  updatedAt : Time
deriving DecidableEq

namespace Manifestation

def published : String := "published"

def unpublished : String := "unpublished"

/-- A new work with the given status. -/
def create (id : Id) (now : Time) (title status : String) : Manifestation where
  id
  title
  status
  createdAt := now
  updatedAt := now

/-- What makes a work unfit to be stored. -/
def flaw? (m : Manifestation) : Option String :=
  if Text.isBlank m.title then some "Manifestation title cannot be empty"
  else if m.status != published && m.status != unpublished then
    some s!"Invalid manifestation status: {m.status}"
  else none

def isPublished (m : Manifestation) : Bool := m.status == published

/-- The order of listings of works: by title, and by id where the titles agree. -/
def precedes (m n : Manifestation) : Bool :=
  m.title < n.title || (m.title == n.title && m.id ≤ n.id)

def codec : Codec Manifestation where
  encode m := .object [
    ("id", .string m.id),
    ("title", .string m.title),
    ("status", .string m.status),
    ("created_at", .number m.createdAt),
    ("updated_at", .number m.updatedAt)]
  decode j := do
    let fs ← j.record? ["id", "title", "status", "created_at", "updated_at"]
    return {
      id := ← fs.get "id" .text
      title := ← fs.get "title" .text
      status := ← fs.get "status" .text
      createdAt := ← fs.get "created_at" (.signed 64)
      updatedAt := ← fs.get "updated_at" (.signed 64) }

end Manifestation

/-! ### Authorities -/

@[ext] structure Authority where
  id : Id
  name : String
  /-- The collection of the works that no other collection holds. -/
  uncollected : Option Id
  /-- How often the upkeep of that collection has locked the authority. -/
  lockVersion : Int
  createdAt : Time
  updatedAt : Time
deriving DecidableEq

namespace Authority

/-- A new authority, without an uncollected collection. -/
def create (id : Id) (now : Time) (name : String) : Authority where
  id
  name
  uncollected := none
  lockVersion := 0
  createdAt := now
  updatedAt := now

/-- What makes an authority unfit to be stored. -/
def flaw? (a : Authority) : Option String :=
  if Text.isBlank a.name then some "Authority name cannot be empty" else none

def codec : Codec Authority where
  encode a := .object [
    ("id", .string a.id),
    ("name", .string a.name),
    ("uncollected_works_collection_id", Codec.text.optional.encode a.uncollected),
    ("lock_version", .number a.lockVersion),
    ("created_at", .number a.createdAt),
    ("updated_at", .number a.updatedAt)]
  decode j := do
    let fs ← j.record?
      ["id", "name", "uncollected_works_collection_id", "lock_version", "created_at", "updated_at"]
    return {
      id := ← fs.get "id" .text
      name := ← fs.get "name" .text
      uncollected := ← fs.get? "uncollected_works_collection_id" .text
      lockVersion := ← fs.get "lock_version" (.signed 64)
      createdAt := ← fs.get "created_at" (.signed 64)
      updatedAt := ← fs.get "updated_at" (.signed 64) }

end Authority

/-! ### Credits -/

inductive Role where
  | author
  | translator
  | editor
  | illustrator
  | other
deriving DecidableEq, Repr

namespace Role

def all : List Role := [author, translator, editor, illustrator, other]

theorem mem_all (r : Role) : r ∈ all := by cases r <;> decide

def name : Role → String
  | author => "author"
  | translator => "translator"
  | editor => "editor"
  | illustrator => "illustrator"
  | other => "other"

theorem name_inj {r s : Role} (h : r.name = s.name) : r = s := by
  revert h
  cases r <;> cases s <;> decide

/-- The roles that bring a work into the uncollected collection of an authority. -/
def qualifies : Role → Bool
  | author | translator | editor => true
  | illustrator | other => false

/-- The role with a given name. -/
def ofName (s : String) : Except Fault Role :=
  match all.find? fun r => r.name == s with
  | some r => .ok r
  | none => .error (.invalidInput "role" s!"unknown role '{s}'")

def codec : Codec Role := .named all name

end Role

/-- The credit of an authority on a work. -/
@[ext] structure Involvement where
  authority : Id
  manifestation : Id
  role : Role
  createdAt : Time
deriving DecidableEq

/-- The order of listings of credits: by authority, work and the name of the role. -/
def Involvement.precedes (i j : Involvement) : Bool :=
  i.authority < j.authority || (i.authority == j.authority &&
    (i.manifestation < j.manifestation || (i.manifestation == j.manifestation &&
      i.role.name ≤ j.role.name)))

def Involvement.codec : Codec Involvement where
  encode i := .object [
    ("authority_id", .string i.authority),
    ("manifestation_id", .string i.manifestation),
    ("role", Role.codec.encode i.role),
    ("created_at", .number i.createdAt)]
  decode j := do
    let fs ← j.record? ["authority_id", "manifestation_id", "role", "created_at"]
    return {
      authority := ← fs.get "authority_id" .text
      manifestation := ← fs.get "manifestation_id" .text
      role := ← fs.get "role" Role.codec
      createdAt := ← fs.get "created_at" (.signed 64) }

end Anthology
