/-
**What a deletion takes along.**

A collection that is deleted takes along its own slots and the slots that refer to it, and the link
to it is cleared.  What it contained stays, and so does the order of every other slot, with a gap
where one went.  Then the numbers are made right above each collection that referred to it.  The
references that led there are still in place, because none of them belonged to the deleted
collection or led to it: otherwise it would have contained itself.  So those that are counted anew
are exactly the collections that contained the deleted one, and all others hold what they held.

Main definitions:

* `Anthology.Store.Deleted` — the store after a deletion.

Main results:

* `Anthology.Store.Acyclic.contains_without` — what contained a collection that referred to the
  deleted one still does;
* `Anthology.Store.Acyclic.mem_above_without` — what is counted anew;
* `Anthology.Store.Acyclic.ways_without` — all others hold what they held;
* `Anthology.Store.Reachable.deleted` — **what a deletion takes along**, and that it succeeds.
-/

import Anthology.Proofs.Counted
import Anthology.Proofs.Progress
import Anthology.Proofs.Repair
import Anthology.Proofs.Verdict

set_option relaxedAutoImplicit false
set_option autoImplicit false

namespace Anthology

open Relation (ReflTransGen TransGen)

/-- A collection that an authority is linked to, with a collection inside it.  The box holds it
twice, and the shelf holds it too, beside the box. -/
def Operation.boxed : List Operation := Operation.authored ++ [
  .refresh 1 (fun _ => "bucket") "author",
  .createCollection (.create "inner" 2 "Inner" .other),
  .createCollection (.create "box" 2 "Box" .other),
  .createCollection (.create "shelf" 2 "Shelf" .other),
  .appendItem 2 "inner work" "inner" (.manifestation "work"),
  .appendItem 2 "bucket inner" "bucket" (.collection "inner"),
  .appendItem 2 "box bucket" "box" (.collection "bucket"),
  .appendItem 2 "box work" "box" (.manifestation "work"),
  .appendItem 2 "box bucket again" "box" (.collection "bucket"),
  .appendItem 2 "shelf bucket" "shelf" (.collection "bucket"),
  .appendItem 2 "shelf box" "shelf" (.collection "box")]

namespace Store

variable {s t : Store} {now : Time} {id c d p : Id} {x : Slot}

/-! ### The slots that are left -/

theorem slots_without (s : Store) (id : Id) : (s.without id).slots.rows =
    s.slots.rows.filter fun x => x.owner ≠ id ∧ x.item ≠ .collection id := by
  show (s.slots.rows.filter _).filter _ = _
  rw [List.filter_filter]
  refine List.filter_congr ?_
  intro x _
  simp only [bne, Bool.decide_and, decide_not, Bool.beq_eq_decide_eq]

theorem mem_slots_without : x ∈ (s.without id).slots.rows ↔
    x ∈ s.slots.rows ∧ x.owner ≠ id ∧ x.item ≠ .collection id := by
  rw [slots_without, List.mem_filter, decide_eq_true_iff]

theorem refers_without : (s.without id).Refers c d ↔ s.Refers c d ∧ c ≠ id ∧ d ≠ id := by
  constructor
  · rintro ⟨x, hx, rfl, hd⟩
    obtain ⟨hx, howner, hitem⟩ := mem_slots_without.1 hx
    refine ⟨⟨x, hx, rfl, hd⟩, howner, ?_⟩
    rintro rfl
    exact hitem hd
  · rintro ⟨⟨x, hx, rfl, hd⟩, howner, hne⟩
    refine ⟨x, mem_slots_without.2 ⟨hx, howner, ?_⟩, rfl, hd⟩
    intro hitem
    exact hne (ItemRef.collection.inj (hd.symm.trans hitem))

/-- A collection that did not refer to the deleted one keeps all its slots. -/
theorem slotsOf_without (hne : c ≠ id) (hrefers : ¬ s.Refers c id) :
    (s.without id).slotsOf c = s.slotsOf c := by
  rw [slotsOf, slots_without, List.filter_filter]
  refine List.filter_congr ?_
  intro x hx
  by_cases howner : x.owner = c
  · have hitem : x.item ≠ .collection id := by
      intro hitem
      exact hrefers ⟨x, hx, howner, hitem⟩
    simp [howner, hne, hitem]
  · simp [howner]

/-! ### What is counted anew -/

/-- **What contained a collection that referred to the deleted one still does**: a way to it that
passed the deleted collection would lead on to that collection again. -/
theorem Acyclic.contains_without (ha : s.Acyclic) (hp : s.Refers p id) :
    (s.without id).Contains c p ↔ s.Contains c p := by
  rw [← reflTransGen_refers_iff, ← reflTransGen_refers_iff]
  constructor
  · intro h
    exact ReflTransGen.mono (fun a b hab => (refers_without.1 hab).1) c p h
  · intro h
    have hapart : ∀ e, ReflTransGen s.Refers e p → e ≠ id := by
      rintro e hep rfl
      exact acyclic_iff.1 ha ⟨e, .tail' hep hp⟩
    induction h using ReflTransGen.head_induction_on with
    | refl => exact .refl
    | head hstep rest ih =>
        exact .head (refers_without.2 ⟨hstep, hapart _ (.head hstep rest), hapart _ rest⟩) ih

/-- **What is counted anew** is what contained the deleted collection. -/
theorem Acyclic.mem_above_without (ha : s.Acyclic) :
    c ∈ (s.parentsOf id).flatMap (s.without id).upward ↔ TransGen s.Refers c id := by
  simp only [List.mem_flatMap, mem_upward, ← mem_childrenOf_iff_mem_parentsOf, ← refers_iff]
  rw [Relation.TransGen.tail'_iff]
  constructor
  · rintro ⟨p, hp, hc⟩
    exact ⟨p, reflTransGen_refers_iff.2 ((ha.contains_without hp).1 hc), hp⟩
  · rintro ⟨p, hc, hp⟩
    exact ⟨p, hp, (ha.contains_without hp).2 (reflTransGen_refers_iff.1 hc)⟩

/-- **All others hold what they held.** -/
theorem Acyclic.ways_without (ha : s.Acyclic) (hc : s.hasCollection c = true) (hne : c ≠ id)
    (habove : ¬ TransGen s.Refers c id) : (s.without id).ways c = s.ways c := by
  refine ways_congr ?_
  intro d hd
  refine (touches_without s id).holdings d ?_
  rintro (rfl | hd')
  · obtain ⟨row, hrow, rfl⟩ := hasCollection_iff.1 hc
    refine not_contains_without (hasCollection_iff.2 ⟨row, ?_, rfl⟩) hd
    exact List.mem_filter.2 ⟨hrow, bne_iff_ne.2 hne⟩
  · exact habove (ha.mem_above_without.1 (List.mem_flatMap.2 ⟨d, hd', mem_upward.2 hd⟩))

/-! ### The store after a deletion -/

/-- The store `t` after the collection `id` was deleted from the store `s`. -/
structure Deleted (s : Store) (now : Time) (id : Id) (t : Store) : Prop where
  manifestations : t.manifestations = s.manifestations
  involvements : t.involvements = s.involvements
  /-- The slots of the collection go, and those that refer to it; the others keep their rows. -/
  slots : t.slots.rows = s.slots.rows.filter fun x => x.owner ≠ id ∧ x.item ≠ .collection id
  /-- The link to the collection is cleared, and nothing else is written of an authority. -/
  authorities : t.authorities.rows = s.authorities.rows.map fun a =>
    if a.uncollected = some id then { a with uncollected := none } else a
  /-- There was at most one such link. -/
  linked : ∀ a ∈ s.authorities.rows, ∀ b ∈ s.authorities.rows,
    a.uncollected = some id → b.uncollected = some id → a = b
  /-- No collection goes but this one, and none comes. -/
  ids : t.collections.rows.map Collection.id =
    (s.collections.rows.map Collection.id).filter fun c => c ≠ id
  /-- A collection that contained the deleted one has the right number, and is written only where it
  had another one. -/
  above : ∀ row ∈ s.collections.rows, TransGen s.Refers row.id id → (t.ways row.id).Finite ∧
    t.collection? row.id = some (
      if row.count = (t.ways row.id).ncard then row
      else { row with count := (t.ways row.id).ncard, updatedAt := now })
  /-- Any other collection is not written, and holds what it held. -/
  others : ∀ row ∈ s.collections.rows, row.id ≠ id → ¬ TransGen s.Refers row.id id →
    t.collection? row.id = some row ∧ t.ways row.id = s.ways row.id
  /-- What the deleted collection contained keeps its row and all its slots. -/
  inside : ∀ row ∈ s.collections.rows, TransGen s.Refers id row.id →
    t.collection? row.id = some row ∧ t.slotsOf row.id = s.slotsOf row.id

/-- A collection that is left is found with the number that the recount gives it. -/
theorem collection?_without {cs : List Id} {row : Collection} (hrow : row ∈ s.collections.rows)
    (hne : row.id ≠ id) : ((s.without id).recount now cs).collection? row.id =
      some ((s.without id).recountedIn now cs row) := by
  have hleft : (s.without id).collection? row.id = some row :=
    collection?_eq_some.2 ⟨List.mem_filter.2 ⟨hrow, bne_iff_ne.2 hne⟩, rfl⟩
  rw [recount_collection?, hleft, Option.map_some]

/-- **What a deletion takes along**, and that it succeeds. -/
theorem Reachable.deleted [Arithmetic] (h : s.Reachable) (hc : s.hasCollection id = true)
    (now : Time) :
    ∃ t, s.deleteCollection now id = .ok (true, t) ∧ Deleted s now id t := by
  have ha : s.Acyclic := h.acyclic
  have hleft : (s.without id).Lawful := writes_without.lawful h.lawful
  have hleftAcyclic : (s.without id).Acyclic := writes_without.acyclic ha
  obtain ⟨⟨deleted, t⟩, hrun⟩ : ∃ r, s.deleteCollection now id = .ok r :=
    exists_deleteCollection h.lawful.owner ha hleft.owner
  rcases deleteCollection_eq_ok hrun with ⟨hnone, -, -⟩ | ⟨-, rfl, rfl⟩
  · rw [hc] at hnone
    contradiction
  have hothers : ∀ row ∈ s.collections.rows, row.id ≠ id → ¬ TransGen s.Refers row.id id →
      ((s.without id).recount now ((s.parentsOf id).flatMap (s.without id).upward)).collection?
        row.id = some row := by
    intro row hrow hne habove
    have hunlisted : row.id ∉ (s.parentsOf id).flatMap (s.without id).upward := by
      intro hlisted
      exact habove (ha.mem_above_without.1 hlisted)
    rw [collection?_without hrow hne, recountedIn, if_neg hunlisted]
  refine ⟨_, hrun, ?_⟩
  refine {
    manifestations := rfl
    involvements := rfl
    slots := s.slots_without id
    authorities := rfl
    linked := ?linked
    ids := ?ids
    above := ?above
    others := ?others
    inside := ?inside }
  case linked =>
    intro a ha' b hb hlink hlink'
    exact Table.eq_of_key_eq ha' hb (h.lawful.linkUnique a ha' b hb id hlink hlink')
  case ids =>
    show ((s.collections.rows.filter fun c => c.id != id).map _).map Collection.id = _
    rw [List.map_map, List.filter_map]
    refine congrArg₂ List.map (funext fun row => recountedIn_id ..) (List.filter_congr ?_)
    intro row _
    exact Bool.eq_iff_iff.2 (by simp)
  case above =>
    intro row hrow habove
    have hne : row.id ≠ id := by
      rintro rfl
      exact acyclic_iff.1 ha ⟨_, habove⟩
    rw [ways_recount, ncard_ways hleft.owner hleftAcyclic]
    refine ⟨finite_ways hleft.owner hleftAcyclic row.id, ?_⟩
    rw [collection?_without hrow hne, recountedIn, if_pos (ha.mem_above_without.2 habove),
      recounted_eq_repaired, repaired]
  case others =>
    intro row hrow hne habove
    have hthere : s.hasCollection row.id = true := hasCollection_iff.2 ⟨row, hrow, rfl⟩
    exact ⟨hothers row hrow hne habove, ways_recount.trans (ha.ways_without hthere hne habove)⟩
  case inside =>
    intro row hrow hinside
    have hne : row.id ≠ id := by
      intro hid
      exact acyclic_iff.1 ha ⟨id, hid ▸ hinside⟩
    have habove : ¬ TransGen s.Refers row.id id := by
      intro habove
      exact acyclic_iff.1 ha ⟨id, hinside.trans habove⟩
    refine ⟨hothers row hrow hne habove, slotsOf_without hne ?_⟩
    intro hrefers
    exact habove (.single hrefers)

/-- The collection that goes is held along three ways, one of which leads through another holder. -/
theorem deleted_boxed : ∃ s t, Operation.runAll .empty Operation.boxed = .ok s ∧
    (∃ a ∈ s.authorities.rows, a.uncollected = some "bucket") ∧
    s.Refers "shelf" "box" ∧ s.Refers "shelf" "bucket" ∧ s.Refers "box" "bucket" ∧
    s.Refers "bucket" "inner" ∧ s.hasCollection "bucket" = true ∧
    s.deleteCollection 9 "bucket" = .ok (true, t) ∧ Deleted s 9 "bucket" t := by
  obtain ⟨s, hrun, hlink, hshelf, houter, hbox, hinner, hthere⟩ :
      ∃ s, Operation.runAll .empty Operation.boxed = .ok s ∧
        (∃ a ∈ s.authorities.rows, a.uncollected = some "bucket") ∧
        s.Refers "shelf" "box" ∧ s.Refers "shelf" "bucket" ∧ s.Refers "box" "bucket" ∧
        s.Refers "bucket" "inner" ∧ s.hasCollection "bucket" = true :=
    exists_eq_ok_of_any (by decide +kernel)
  obtain ⟨t, hdelete, hdeleted⟩ := Reachable.deleted (.runAll .empty hrun) hthere 9
  exact ⟨s, t, hrun, hlink, hshelf, houter, hbox, hinner, hthere, hdelete, hdeleted⟩

end Store

end Anthology
