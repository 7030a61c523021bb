/-
**Records are read back.**

Every record, report and event that leaves the catalog can come back into it.  Reading undoes
writing, and it does so for every rewording of what was written: the case of an event and its
content may stand anywhere among fields that nobody knows, in a record within a record as well.
The only values that do not come back are numbers too large for their words, and no reader gives
those.

Main definitions:

* `Anthology.Collection.Fits`, `Anthology.Event.Fits` and the others — the numbers of a value fit
  their words.

Main results:

* `Anthology.Collection.lawful`, `Anthology.Event.lawful` and the others — the law of each codec;
* `Anthology.records_read_back` — all of them together.
-/

import Anthology.Event
import Anthology.Page
import Anthology.Proofs.Rewording
import Anthology.Record.Work
import Anthology.Store.Compose
import Anthology.Store.Count
import Anthology.Store.Subtree
import Anthology.Uncollected.Cleanup

set_option relaxedAutoImplicit false
set_option autoImplicit false

namespace Anthology

open Codec (lawful_signed lawful_unsigned lawful_word lawful_named)

/-! ### Collections and slots -/

theorem CollectionKind.lawful : CollectionKind.codec.Lawful fun _ => True :=
  lawful_named mem_all fun _ _ => name_inj

namespace Collection

structure Fits (c : Collection) : Prop where
  count : Word.fitsSigned 64 c.count
  createdAt : Word.fitsSigned 64 c.createdAt
  updatedAt : Word.fitsSigned 64 c.updatedAt

theorem lawful : codec.Lawful Fits := by
  refine .of_record (fun _ => rfl) (by decide) ?_ ?_
  -- each field is read from what stands under its name, and a number that was read fits its word
  · rintro c hc gs ⟨id, title, subtitle, description, kind, count, createdAt, updatedAt⟩
    simp [id.text, title.text, subtitle.text?, description.text?,
      CollectionKind.lawful.get trivial kind, count.signed hc.count, createdAt.signed hc.createdAt,
      updatedAt.signed hc.updatedAt]
  · intro gs c h
    simp only [Option.bind_eq_bind, Option.bind_eq_some_iff, Option.pure_def,
      Option.some.injEq] at h
    obtain ⟨id, -, title, -, subtitle, -, description, -, kind, -, count, hcount, createdAt,
      hcreatedAt, updatedAt, hupdatedAt, rfl⟩ := h
    exact {
      count := (lawful_signed 64).fits_of_get hcount
      createdAt := (lawful_signed 64).fits_of_get hcreatedAt
      updatedAt := (lawful_signed 64).fits_of_get hupdatedAt }

end Collection

/-- The empty reference is read without an id, and the others with theirs. -/
theorem ItemRef.lawful : ItemRef.codec.Lawful fun _ => True := by
  refine .of_object (fun r => by cases r <;> rfl) ?_ fun _ _ _ => trivial
  intro r _ j h
  cases r with
  | empty =>
    obtain ⟨gs, rfl, case, hid⟩ := h.fields (by simp)
    simp [codec, Json.adjacent?, case.string, Json.name?, hid rfl]
  | manifestation id =>
    obtain ⟨gs, rfl, ⟨case, id⟩, -⟩ := h.fields (by simp)
    simp [codec, Json.adjacent?, case.string, Json.name?, id.string, Json.string?]
  | collection id =>
    obtain ⟨gs, rfl, ⟨case, id⟩, -⟩ := h.fields (by simp)
    simp [codec, Json.adjacent?, case.string, Json.name?, id.string, Json.string?]

namespace Slot

structure Fits (s : Slot) : Prop where
  seqno : Word.fitsSigned 64 s.seqno
  createdAt : Word.fitsSigned 64 s.createdAt
  updatedAt : Word.fitsSigned 64 s.updatedAt

theorem lawful : codec.Lawful Fits := by
  refine .of_record (fun _ => rfl) (by decide) ?_ ?_
  · rintro s hs gs ⟨id, owner, seqno, item, altTitle, markdown, createdAt, updatedAt⟩
    simp [id.text, owner.text, seqno.signed hs.seqno, ItemRef.lawful.get trivial item,
      altTitle.text?, markdown.text?, createdAt.signed hs.createdAt, updatedAt.signed hs.updatedAt]
  · intro gs s h
    simp only [Option.bind_eq_bind, Option.bind_eq_some_iff, Option.pure_def,
      Option.some.injEq] at h
    obtain ⟨id, -, owner, -, seqno, hseqno, item, -, altTitle, -, markdown, -, createdAt,
      hcreatedAt, updatedAt, hupdatedAt, rfl⟩ := h
    exact {
      seqno := (lawful_signed 64).fits_of_get hseqno
      createdAt := (lawful_signed 64).fits_of_get hcreatedAt
      updatedAt := (lawful_signed 64).fits_of_get hupdatedAt }

end Slot

namespace SlotAttrs

theorem lawful : codec.Lawful fun _ => True := by
  refine .of_record (fun _ => rfl) (by decide) ?_ fun _ _ _ => trivial
  rintro a - gs ⟨seqno, altTitle, markdown⟩
  simp [lawful_word.get? (fun _ _ => trivial) seqno, altTitle.text?, markdown.text?]

end SlotAttrs

/-! ### Works, authorities and credits -/

namespace Manifestation

structure Fits (m : Manifestation) : Prop where
  createdAt : Word.fitsSigned 64 m.createdAt
  updatedAt : Word.fitsSigned 64 m.updatedAt

theorem lawful : codec.Lawful Fits := by
  refine .of_record (fun _ => rfl) (by decide) ?_ ?_
  · rintro m hm gs ⟨id, title, status, createdAt, updatedAt⟩
    simp [id.text, title.text, status.text, createdAt.signed hm.createdAt,
      updatedAt.signed hm.updatedAt]
  · intro gs m h
    simp only [Option.bind_eq_bind, Option.bind_eq_some_iff, Option.pure_def,
      Option.some.injEq] at h
    obtain ⟨id, -, title, -, status, -, createdAt, hcreatedAt, updatedAt, hupdatedAt, rfl⟩ := h
    exact {
      createdAt := (lawful_signed 64).fits_of_get hcreatedAt
      updatedAt := (lawful_signed 64).fits_of_get hupdatedAt }

end Manifestation

namespace Authority

structure Fits (a : Authority) : Prop where
  lockVersion : Word.fitsSigned 64 a.lockVersion
  createdAt : Word.fitsSigned 64 a.createdAt
  updatedAt : Word.fitsSigned 64 a.updatedAt

theorem lawful : codec.Lawful Fits := by
  refine .of_record (fun _ => rfl) (by decide) ?_ ?_
  · rintro a ha gs ⟨id, name, uncollected, lockVersion, createdAt, updatedAt⟩
    simp [id.text, name.text, uncollected.text?, lockVersion.signed ha.lockVersion,
      createdAt.signed ha.createdAt, updatedAt.signed ha.updatedAt]
  · intro gs a h
    simp only [Option.bind_eq_bind, Option.bind_eq_some_iff, Option.pure_def,
      Option.some.injEq] at h
    obtain ⟨id, -, name, -, uncollected, -, lockVersion, hlockVersion, createdAt, hcreatedAt,
      updatedAt, hupdatedAt, rfl⟩ := h
    exact {
      lockVersion := (lawful_signed 64).fits_of_get hlockVersion
      createdAt := (lawful_signed 64).fits_of_get hcreatedAt
      updatedAt := (lawful_signed 64).fits_of_get hupdatedAt }

end Authority

theorem Role.lawful : Role.codec.Lawful fun _ => True :=
  lawful_named mem_all fun _ _ => name_inj

namespace Involvement

/-- The moment fits its word. -/
def Fits (i : Involvement) : Prop := Word.fitsSigned 64 i.createdAt

theorem lawful : codec.Lawful Fits := by
  refine .of_record (fun _ => rfl) (by decide) ?_ ?_
  · rintro i hi gs ⟨authority, manifestation, role, createdAt⟩
    simp [authority.text, manifestation.text, Role.lawful.get trivial role, createdAt.signed hi]
  · intro gs i h
    simp only [Option.bind_eq_bind, Option.bind_eq_some_iff, Option.pure_def,
      Option.some.injEq] at h
    obtain ⟨authority, -, manifestation, -, role, -, createdAt, hcreatedAt, rfl⟩ := h
    exact (lawful_signed 64).fits_of_get hcreatedAt

end Involvement

/-! ### Pages -/

namespace PageRequest

structure Fits (r : PageRequest) : Prop where
  page : Word.fitsUnsigned 32 r.page
  pageSize : Word.fitsUnsigned 32 r.pageSize

theorem lawful : codec.Lawful Fits := by
  refine .of_record (fun _ => rfl) (by decide) ?_ ?_
  · rintro r hr gs ⟨page, pageSize⟩
    simp [page.unsigned hr.page, pageSize.unsigned hr.pageSize]
  · intro gs r h
    simp only [Option.bind_eq_bind, Option.bind_eq_some_iff, Option.pure_def,
      Option.some.injEq] at h
    obtain ⟨page, hpage, pageSize, hpageSize, rfl⟩ := h
    exact {
      page := (lawful_unsigned 32).fits_of_get hpage
      pageSize := (lawful_unsigned 32).fits_of_get hpageSize }

end PageRequest

namespace Page

variable {α : Type} {c : Codec α} {fits : α → Prop}

/-- The totals fit their words, and every record of the page fits as well. -/
structure Fits (fits : α → Prop) (p : Page α) : Prop where
  items : ∀ a ∈ p.items, fits a
  total : Word.fitsUnsigned 64 p.total
  page : Word.fitsUnsigned 32 p.page
  totalPages : Word.fitsUnsigned 32 p.totalPages
  pageSize : Word.fitsUnsigned 32 p.pageSize

theorem lawful (hcodec : c.Faithful fits) : (codec c).Lawful (Fits fits) := by
  refine .of_record (fun _ => rfl) (by decide) ?_ ?_
  · rintro p hp gs ⟨items, total, page, totalPages, pageSize⟩
    simp [hcodec.list.get hp.items items, total.unsigned hp.total, page.unsigned hp.page,
      totalPages.unsigned hp.totalPages, pageSize.unsigned hp.pageSize]
  · intro gs p h
    simp only [Option.bind_eq_bind, Option.bind_eq_some_iff, Option.pure_def,
      Option.some.injEq] at h
    obtain ⟨items, hitems, total, htotal, page, hpage, totalPages, htotalPages, pageSize, hpageSize,
      rfl⟩ := h
    exact {
      items := hcodec.list.fits_of_get hitems
      total := (lawful_unsigned 64).fits_of_get htotal
      page := (lawful_unsigned 32).fits_of_get hpage
      totalPages := (lawful_unsigned 32).fits_of_get htotalPages
      pageSize := (lawful_unsigned 32).fits_of_get hpageSize }

end Page

/-! ### Reports -/

namespace RefreshOutcome

structure Fits (o : RefreshOutcome) : Prop where
  removed : Word.fitsUnsigned 64 o.removed
  added : Word.fitsUnsigned 64 o.added
  count : Word.fitsSigned 64 o.count

theorem lawful : codec.Lawful Fits := by
  refine .of_record (fun _ => rfl) (by decide) ?_ ?_
  · rintro o ho gs ⟨authority, collection, created, removed, added, count⟩
    simp [authority.text, collection.text, created.flag, removed.unsigned ho.removed,
      added.unsigned ho.added, count.signed ho.count]
  · intro gs o h
    simp only [Option.bind_eq_bind, Option.bind_eq_some_iff, Option.pure_def,
      Option.some.injEq] at h
    obtain ⟨authority, -, collection, -, created, -, removed, hremoved, added, hadded, count,
      hcount, rfl⟩ := h
    exact {
      removed := (lawful_unsigned 64).fits_of_get hremoved
      added := (lawful_unsigned 64).fits_of_get hadded
      count := (lawful_signed 64).fits_of_get hcount }

end RefreshOutcome

theorem CleanupMode.lawful : CleanupMode.codec.Lawful fun _ => True := by
  apply lawful_named
  · intro m
    cases m <;> decide
  · intro m n
    cases m <;> cases n <;> decide

namespace CleanupReport

structure Fits (r : CleanupReport) : Prop where
  orphansFound : Word.fitsUnsigned 64 r.orphansFound
  deletedEmpty : Word.fitsUnsigned 64 r.deletedEmpty
  linked : Word.fitsUnsigned 64 r.linked
  deletedDuplicate : Word.fitsUnsigned 64 r.deletedDuplicate
  deletedUnfixable : Word.fitsUnsigned 64 r.deletedUnfixable

theorem lawful : codec.Lawful Fits := by
  refine .of_record (fun _ => rfl) (by decide) ?_ ?_
  · rintro r hr gs ⟨mode, orphansFound, deletedEmpty, linked, deletedDuplicate, deletedUnfixable⟩
    simp [CleanupMode.lawful.get trivial mode, orphansFound.unsigned hr.orphansFound,
      deletedEmpty.unsigned hr.deletedEmpty, linked.unsigned hr.linked,
      deletedDuplicate.unsigned hr.deletedDuplicate, deletedUnfixable.unsigned hr.deletedUnfixable]
  · intro gs r h
    simp only [Option.bind_eq_bind, Option.bind_eq_some_iff, Option.pure_def,
      Option.some.injEq] at h
    obtain ⟨mode, -, orphansFound, horphansFound, deletedEmpty, hdeletedEmpty, linked, hlinked,
      deletedDuplicate, hdeletedDuplicate, deletedUnfixable, hdeletedUnfixable, rfl⟩ := h
    exact {
      orphansFound := (lawful_unsigned 64).fits_of_get horphansFound
      deletedEmpty := (lawful_unsigned 64).fits_of_get hdeletedEmpty
      linked := (lawful_unsigned 64).fits_of_get hlinked
      deletedDuplicate := (lawful_unsigned 64).fits_of_get hdeletedDuplicate
      deletedUnfixable := (lawful_unsigned 64).fits_of_get hdeletedUnfixable }

end CleanupReport

namespace RecalculateSummary

structure Fits (r : RecalculateSummary) : Prop where
  checked : Word.fitsUnsigned 64 r.checked
  corrected : Word.fitsUnsigned 64 r.corrected

theorem lawful : codec.Lawful Fits := by
  refine .of_record (fun _ => rfl) (by decide) ?_ ?_
  · rintro r hr gs ⟨checked, corrected⟩
    simp [checked.unsigned hr.checked, corrected.unsigned hr.corrected]
  · intro gs r h
    simp only [Option.bind_eq_bind, Option.bind_eq_some_iff, Option.pure_def,
      Option.some.injEq] at h
    obtain ⟨checked, hchecked, corrected, hcorrected, rfl⟩ := h
    exact {
      checked := (lawful_unsigned 64).fits_of_get hchecked
      corrected := (lawful_unsigned 64).fits_of_get hcorrected }

end RecalculateSummary

/-! ### Records of records -/

namespace Subtree

structure Fits (t : Subtree) : Prop where
  manifestations : ∀ m ∈ t.manifestations, m.Fits
  collections : ∀ c ∈ t.collections, c.Fits

theorem lawful : codec.Lawful Fits := by
  refine .of_record (fun _ => rfl) (by decide) ?_ ?_
  · rintro t ht gs ⟨manifestations, collections⟩
    simp [Manifestation.lawful.list.get ht.manifestations manifestations,
      Collection.lawful.list.get ht.collections collections]
  · intro gs t h
    simp only [Option.bind_eq_bind, Option.bind_eq_some_iff, Option.pure_def,
      Option.some.injEq] at h
    obtain ⟨manifestations, hmanifestations, collections, hcollections, rfl⟩ := h
    exact {
      manifestations := Manifestation.lawful.list.fits_of_get hmanifestations
      collections := Collection.lawful.list.fits_of_get hcollections }

end Subtree

namespace CollectionTree

structure Fits (t : CollectionTree) : Prop where
  descendants : t.descendants.Fits
  ancestors : ∀ c ∈ t.ancestors, c.Fits

theorem lawful : codec.Lawful Fits := by
  refine .of_record (fun _ => rfl) (by decide) ?_ ?_
  · rintro t ht gs ⟨descendants, ancestors⟩
    simp [Subtree.lawful.get ht.descendants descendants,
      Collection.lawful.list.get ht.ancestors ancestors]
  · intro gs t h
    simp only [Option.bind_eq_bind, Option.bind_eq_some_iff, Option.pure_def,
      Option.some.injEq] at h
    obtain ⟨descendants, hdescendants, ancestors, hancestors, rfl⟩ := h
    exact {
      descendants := Subtree.lawful.fits_of_get hdescendants
      ancestors := Collection.lawful.list.fits_of_get hancestors }

end CollectionTree

namespace Placed

structure Fits (p : Placed) : Prop where
  collection : p.collection.Fits
  slot : p.slot.Fits

theorem lawful : codec.Lawful Fits := by
  refine .of_record (fun _ => rfl) (by decide) ?_ ?_
  · rintro p hp gs ⟨collection, slot⟩
    simp [Collection.lawful.get hp.collection collection, Slot.lawful.get hp.slot slot]
  · intro gs p h
    simp only [Option.bind_eq_bind, Option.bind_eq_some_iff, Option.pure_def,
      Option.some.injEq] at h
    obtain ⟨collection, hcollection, slot, hslot, rfl⟩ := h
    exact {
      collection := Collection.lawful.fits_of_get hcollection
      slot := Slot.lawful.fits_of_get hslot }

end Placed

namespace PeriodicalWithIssue

structure Fits (p : PeriodicalWithIssue) : Prop where
  periodical : p.periodical.Fits
  issue : p.issue.Fits
  slot : p.slot.Fits

theorem lawful : codec.Lawful Fits := by
  refine .of_record (fun _ => rfl) (by decide) ?_ ?_
  · rintro p hp gs ⟨periodical, issue, slot⟩
    simp [Collection.lawful.get hp.periodical periodical, Collection.lawful.get hp.issue issue,
      Slot.lawful.get hp.slot slot]
  · intro gs p h
    simp only [Option.bind_eq_bind, Option.bind_eq_some_iff, Option.pure_def,
      Option.some.injEq] at h
    obtain ⟨periodical, hperiodical, issue, hissue, slot, hslot, rfl⟩ := h
    exact {
      periodical := Collection.lawful.fits_of_get hperiodical
      issue := Collection.lawful.fits_of_get hissue
      slot := Slot.lawful.fits_of_get hslot }

end PeriodicalWithIssue

/-! ### Events -/

namespace CollectionEvent

/-- The number of an event that carries one fits its word. -/
def Fits : CollectionEvent → Prop
  | countRecalculated _ count => Word.fitsSigned 64 count
  | _ => True

/-- The name of the case is enough to read an event, numbered cases or not. -/
theorem read?_reworded (numbered : Bool) {e : CollectionEvent} (he : e.Fits) {j : Json}
    (h : (codec.encode e).Reworded j) : read? numbered j = some e := by
  cases e with
  | created c title =>
    obtain ⟨gs, rfl, ⟨case, c, title⟩, -⟩ := h.fields (by simp)
    simp [read?, Json.tagged?, case.string, Json.case?, Json.record?, c.text, title.text]
  | updated c | deleted c | itemsChanged c =>
    obtain ⟨gs, rfl, ⟨case, c⟩, -⟩ := h.fields (by simp)
    simp [read?, Json.tagged?, case.string, Json.case?, Json.record?, c.text]
  | itemTransplanted item source destination =>
    obtain ⟨gs, rfl, ⟨case, item, source, destination⟩, -⟩ := h.fields (by simp)
    simp [read?, Json.tagged?, case.string, Json.case?, Json.record?, item.text, source.text,
      destination.text]
  | countRecalculated c count =>
    obtain ⟨gs, rfl, ⟨case, c, count⟩, -⟩ := h.fields (by simp)
    simp [read?, Json.tagged?, case.string, Json.case?, Json.record?, c.text, count.signed he]

/-- Only one of the cases carries a number. -/
theorem fits_of_read? {numbered : Bool} {j : Json} {e : CollectionEvent}
    (h : read? numbered j = some e) : e.Fits := by
  cases e with
  | countRecalculated c count =>
    simp only [read?, Option.bind_eq_bind, Option.bind_eq_some_iff] at h
    obtain ⟨⟨case, rest⟩, -, name, -, h⟩ := h
    split at h
    all_goals simp [Option.bind_eq_some_iff] at h
    obtain ⟨fs, -, -, hcount⟩ := h
    exact (lawful_signed 64).fits_of_get hcount
  | _ => trivial

theorem lawful : codec.Lawful Fits :=
  .of_object (fun e => by cases e <;> rfl) (fun _ he _ h => read?_reworded false he h)
    fun _ _ h => fits_of_read? h

end CollectionEvent

namespace AuthorityEvent

/-- The numbers of an event fit their words. -/
def Fits : AuthorityEvent → Prop
  | involvementChanged _ => True
  | refreshed _ _ added removed => Word.fitsUnsigned 64 added ∧ Word.fitsUnsigned 64 removed
  | refreshFailed _ _ attempts => Word.fitsUnsigned 32 attempts

theorem read?_reworded (numbered : Bool) {e : AuthorityEvent} (he : e.Fits) {j : Json}
    (h : (codec.encode e).Reworded j) : read? numbered j = some e := by
  cases e with
  | involvementChanged a =>
    obtain ⟨gs, rfl, ⟨case, a⟩, -⟩ := h.fields (by simp)
    simp [read?, Json.tagged?, case.string, Json.case?, Json.record?, a.text]
  | refreshed a c added removed =>
    obtain ⟨gs, rfl, ⟨case, a, c, added, removed⟩, -⟩ := h.fields (by simp)
    simp [read?, Json.tagged?, case.string, Json.case?, Json.record?, a.text, c.text,
      added.unsigned he.1, removed.unsigned he.2]
  | refreshFailed a message attempts =>
    obtain ⟨gs, rfl, ⟨case, a, message, attempts⟩, -⟩ := h.fields (by simp)
    simp [read?, Json.tagged?, case.string, Json.case?, Json.record?, a.text, message.text,
      attempts.unsigned he]

theorem fits_of_read? {numbered : Bool} {j : Json} {e : AuthorityEvent}
    (h : read? numbered j = some e) : e.Fits := by
  simp only [read?, Option.bind_eq_bind, Option.bind_eq_some_iff] at h
  obtain ⟨⟨case, rest⟩, -, name, -, h⟩ := h
  split at h
  · simp only [Option.bind_eq_some_iff, Option.pure_def, Option.some.injEq] at h
    obtain ⟨fs, -, a, -, rfl⟩ := h
    trivial
  · simp only [Option.bind_eq_some_iff, Option.pure_def, Option.some.injEq] at h
    obtain ⟨fs, -, a, -, c, -, added, hadded, removed, hremoved, rfl⟩ := h
    exact ⟨(lawful_unsigned 64).fits_of_get hadded, (lawful_unsigned 64).fits_of_get hremoved⟩
  · simp only [Option.bind_eq_some_iff, Option.pure_def, Option.some.injEq] at h
    obtain ⟨fs, -, a, -, message, -, attempts, hattempts, rfl⟩ := h
    exact (lawful_unsigned 32).fits_of_get hattempts
  · cases h

theorem lawful : codec.Lawful Fits :=
  .of_object (fun e => by cases e <;> rfl) (fun _ he _ h => read?_reworded false he h)
    fun _ _ h => fits_of_read? h

end AuthorityEvent

namespace Event

/-- The numbers of the event within fit their words. -/
def Fits : Event → Prop
  | collection e => e.Fits
  | authority e => e.Fits

/-- The kind says which reader the content goes to, wherever the two stand. -/
theorem lawful : codec.Lawful Fits := by
  refine .of_object (fun e => by cases e <;> rfl) ?_ ?_
  · intro e he j h
    cases e with
    | collection e =>
      obtain ⟨gs, rfl, ⟨kind, payload⟩, -⟩ := h.fields (by simp)
      obtain ⟨w, hlookup, hw⟩ := payload.exists_of_ne_null (CollectionEvent.lawful.ne_null e)
      have hread := CollectionEvent.read?_reworded true he hw
      simp [codec, Json.adjacent?, kind.string, Json.name?, hlookup, Json.isObject, Json.fields?,
        hread]
    | authority e =>
      obtain ⟨gs, rfl, ⟨kind, payload⟩, -⟩ := h.fields (by simp)
      obtain ⟨w, hlookup, hw⟩ := payload.exists_of_ne_null (AuthorityEvent.lawful.ne_null e)
      have hread := AuthorityEvent.read?_reworded true he hw
      simp [codec, Json.adjacent?, kind.string, Json.name?, hlookup, Json.isObject, Json.fields?,
        hread]
  · intro j e h
    simp only [codec, Option.bind_eq_bind, Option.bind_eq_some_iff] at h
    obtain ⟨⟨kind, payload⟩, -, h⟩ := h
    split at h
    · simp only [Option.map_eq_some_iff, Option.bind_eq_some_iff] at h
      obtain ⟨w, -, e, he, rfl⟩ := h
      exact CollectionEvent.fits_of_read? he
    · simp only [Option.map_eq_some_iff, Option.bind_eq_some_iff] at h
      obtain ⟨w, -, e, he, rfl⟩ := h
      exact AuthorityEvent.fits_of_read? he
    · cases h

end Event

/-! ### All of them -/

/-- **Reading undoes writing.**  What is written of a record, a report or an event whose numbers fit
is read back, whatever rewording it went through; and whatever is read fits, and is read again from
what is written of it. -/
theorem records_read_back :
    Collection.codec.Faithful Collection.Fits ∧
    Slot.codec.Faithful Slot.Fits ∧
    ItemRef.codec.Faithful (fun _ => True) ∧
    SlotAttrs.codec.Faithful (fun _ => True) ∧
    Manifestation.codec.Faithful Manifestation.Fits ∧
    Authority.codec.Faithful Authority.Fits ∧
    Involvement.codec.Faithful Involvement.Fits ∧
    PageRequest.codec.Faithful PageRequest.Fits ∧
    (∀ (α : Type) (c : Codec α) (fits : α → Prop), c.Faithful fits →
      (Page.codec c).Faithful (Page.Fits fits)) ∧
    RefreshOutcome.codec.Faithful RefreshOutcome.Fits ∧
    CleanupReport.codec.Faithful CleanupReport.Fits ∧
    RecalculateSummary.codec.Faithful RecalculateSummary.Fits ∧
    Subtree.codec.Faithful Subtree.Fits ∧
    CollectionTree.codec.Faithful CollectionTree.Fits ∧
    Placed.codec.Faithful Placed.Fits ∧
    PeriodicalWithIssue.codec.Faithful PeriodicalWithIssue.Fits ∧
    CollectionEvent.codec.Faithful CollectionEvent.Fits ∧
    AuthorityEvent.codec.Faithful AuthorityEvent.Fits ∧
    Event.codec.Faithful Event.Fits :=
  ⟨Collection.lawful.toFaithful, Slot.lawful.toFaithful, ItemRef.lawful.toFaithful,
    SlotAttrs.lawful.toFaithful, Manifestation.lawful.toFaithful, Authority.lawful.toFaithful,
    Involvement.lawful.toFaithful, PageRequest.lawful.toFaithful,
    fun _ _ _ h => (Page.lawful h).toFaithful, RefreshOutcome.lawful.toFaithful,
    CleanupReport.lawful.toFaithful, RecalculateSummary.lawful.toFaithful,
    Subtree.lawful.toFaithful, CollectionTree.lawful.toFaithful, Placed.lawful.toFaithful,
    PeriodicalWithIssue.lawful.toFaithful, CollectionEvent.lawful.toFaithful,
    AuthorityEvent.lawful.toFaithful, Event.lawful.toFaithful⟩

/-- A page whose first two fields have changed places.  Its one slot has a field that no slot has,
and not the two that are null; and so has the reference within it, ahead of its case. -/
theorem page_read_back_reworded :
    (Page.codec Slot.codec).decode (.object [
      ("total", .number 1),
      ("items", .array [.object [
        ("note", .bool true), ("id", .string "s"), ("collection_id", .string "c"),
        ("seqno", .number 3), ("item", .object [("note", .null), ("type", .string "Empty")]),
        ("created_at", .number 5), ("updated_at", .number 7)]]),
      ("page", .number 0), ("total_pages", .number 1), ("page_size", .number 50)]) =
      some ⟨[⟨"s", "c", 3, .empty, none, none, 5, 7⟩], 1, 0, 1, 50⟩ := by
  obtain ⟨-, hslot, -, -, -, -, -, -, hpage, -⟩ := records_read_back
  have hitem : (ItemRef.codec.encode .empty).Reworded
      (.object [("note", .null), ("type", .string "Empty")]) :=
    .object (.refl .same _) (by simp [Fields.Unknown]) (.swap _ _ [])
  apply (hpage Slot Slot.codec Slot.Fits hslot).reads
  · constructor
    · simpa using (⟨by decide, by decide, by decide⟩ : Slot.Fits _)
    all_goals decide
  · refine .object (.keep _ (.array (.cons ?_ .nil)) (.refl .same _)) ?_ (.swap _ _ _)
    · refine .object (.keep _ (.same _) (.keep _ (.same _) (.keep _ (.same _) (.keep _ hitem
        (.drop _ (.drop _ (.refl .same _))))))) ?_ (List.perm_append_singleton _ _).symm
      simp [Fields.Unknown]
    · simp

end Anthology
