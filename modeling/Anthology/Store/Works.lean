/-
**Editing works, authorities and credits.**

A work that is deleted leaves the slots that refer to it in place; the collections that held it are
counted anew.  The link of an authority to its uncollected collection is not for editors.

Main definitions:

* `Anthology.Store.updateManifestation`, `Anthology.Store.deleteManifestation` — works;
* `Anthology.Store.updateAuthority`, `Anthology.Store.deleteAuthority` — authorities;
* `Anthology.Store.removeInvolvement` — credits;
* `Anthology.Store.worksByTitle`, `Anthology.Store.credits`, `Anthology.Store.credited` and
  `Anthology.Store.linkedTo?` — listings and look-ups.
-/

import Anthology.Store.Count

set_option relaxedAutoImplicit false
set_option autoImplicit false

namespace Anthology

namespace Store

/-! ### Works -/

/-- Replaces title and status of a work. -/
def updateManifestation (s : Store) (now : Time) (m : Manifestation) : Except Fault Store := do
  inspect "Manifestation" m.flaw?
  ensure (s.hasManifestation m.id) (.notFound "Manifestation" m.id)
  return s.editManifestation m.id
    (fun x => { x with title := m.title, status := m.status, updatedAt := now }) fun _ => rfl

/-- Deletes a work with its credits, and tells whether there was one. -/
def deleteManifestation (s : Store) (now : Time) (id : Id) : Except Fault (Bool × Store) :=
  if s.hasManifestation id then do
    let s ← (s.dropManifestation id).propagateAll now (s.holdersOf (.manifestation id))
    return (true, s)
  else .ok (false, s)

/-- All works, by title. -/
def worksByTitle (s : Store) : List Manifestation :=
  s.manifestations.rows.mergeSort Manifestation.precedes

/-! ### Authorities -/

/-- Renames an authority. -/
def updateAuthority (s : Store) (now : Time) (a : Authority) : Except Fault Store := do
  inspect "Authority" a.flaw?
  ensure (s.authority? a.id).isSome (.notFound "Authority" a.id)
  return s.editAuthority a.id (fun x => { x with name := a.name, updatedAt := now }) fun _ => rfl

/-- Deletes an authority with its credits, and tells whether there was one. -/
def deleteAuthority (s : Store) (id : Id) : Bool × Store :=
  if (s.authority? id).isSome then (true, s.dropAuthority id) else (false, s)

/-- The authority that is linked to a collection. -/
def linkedTo? (s : Store) (c : Id) : Option Authority :=
  s.authorities.rows.find? fun a => a.uncollected == some c

/-! ### Credits -/

/-- Takes a credit away, and tells whether there was one. -/
def removeInvolvement (s : Store) (a m : Id) (role : Role) : Bool × Store :=
  if s.involvements.has (a, m, role) then
    (true, { s with
      involvements := s.involvements.keep fun i =>
        !(i.authority == a && i.manifestation == m && i.role == role) })
  else (false, s)

/-- The credits of an authority. -/
def credits (s : Store) (a : Id) : List Involvement :=
  (s.involvements.rows.filter fun i => i.authority == a).mergeSort Involvement.precedes

/-- The authorities with a credit on a work, in whatever role. -/
def credited (s : Store) (m : Id) : List Id :=
  distinct ((s.involvements.rows.filter fun i => i.manifestation == m).map Involvement.authority)

/-- The authority has a credit on the work in a role that qualifies. -/
def qualifies (s : Store) (a m : Id) : Bool :=
  s.involvements.rows.any fun i => i.authority == a && i.manifestation == m && i.role.qualifies

end Store

end Anthology
