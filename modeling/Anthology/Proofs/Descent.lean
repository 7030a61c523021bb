/-
**A subtree is read completely, once and by distance.**

Reading a subtree makes no use of containment being free of cycles.  The slots of a level may refer
back to levels above it, several of them to the same record, and some to records that are gone.
What is gone is passed over, and since nothing is read through it, it is not the references alone
that are followed but those to collections that exist.  In a store whose slots all belong to
collections that exist this comes to the same.

Rows are read by lists of ids.  A list without repetitions gives rows without repetitions in the
same order, so what is known of the walk over ids holds of the rows.

Main definitions:

* `Anthology.Store.LeadsTo` — a slot refers to a collection that exists;
* `Anthology.Store.ReadAlong` — everything that can be reached along a relation, by distance;
* `Anthology.Store.WorksHeld` — the works that collections refer to.

Main results:

* `Anthology.Table.map_key_filterMap_find?` — rows read by their keys;
* `Anthology.Store.readAlong_levels` — a walk by levels reads along its relation;
* `Anthology.Store.descendants_complete` — **what is read of a subtree**.
-/

import Anthology.Proofs.Levels
import Anthology.Proofs.References

set_option relaxedAutoImplicit false
set_option autoImplicit false

namespace Anthology

open Relation (ReflTransGen)
open Walk (Steps Follows distance)

/-! ### Rows read by their keys -/

namespace Table

variable {α κ : Type} [Keyed α κ] [DecidableEq κ] {t : Table α} {a : α}

/-- Keys without a row are passed over, and the order is that of the keys. -/
theorem map_key_filterMap_find? (t : Table α) (keys : List κ) :
    (keys.filterMap t.find?).map Keyed.key = keys.filter t.has := by
  rw [List.map_filterMap, ← List.filterMap_eq_filter]
  refine List.filterMap_congr fun k _ => ?_
  cases hfind : t.find? k with
  | none =>
      have hnone : t.has k = false := by
        rw [Bool.eq_false_iff, ne_eq, has_iff_find?]
        simp [hfind]
      simp [Option.guard, hnone]
  | some a =>
      have hsome : t.has k = true := has_iff_find?.2 ⟨a, hfind⟩
      simp [Option.guard, hsome, (find?_eq_some_iff.1 hfind).2]

theorem mem_filterMap_find? {keys : List κ} :
    a ∈ keys.filterMap t.find? ↔ a ∈ t.rows ∧ Keyed.key a ∈ keys := by
  simp only [List.mem_filterMap, find?_eq_some_iff]
  exact ⟨fun ⟨_, hk, ha, rfl⟩ => ⟨ha, hk⟩, fun ⟨ha, hk⟩ => ⟨_, hk, ha, rfl⟩⟩

end Table

namespace Store

variable {s : Store} {root c d : Id} {n : ℕ} {r : Id → Id → Prop} {ids : List Id}
  {expand : List Id → List Id}

theorem ids_collectionsAt (h : ∀ id ∈ ids, s.hasCollection id = true) :
    (s.collectionsAt ids).map Collection.id = ids :=
  (s.collections.map_key_filterMap_find? ids).trans (List.filter_eq_self.2 h)

theorem mem_collectionsAt {x : Collection} :
    x ∈ s.collectionsAt ids ↔ x ∈ s.collections.rows ∧ x.id ∈ ids := Table.mem_filterMap_find?

theorem head?_collectionsAt (h : s.hasCollection root = true) :
    (s.collectionsAt (root :: ids)).head? = s.collection? root := by
  obtain ⟨row, hrow⟩ := exists_collection?_iff.2 h
  rw [collectionsAt, List.filterMap_cons_some hrow, hrow, List.head?_cons]

/-! ### Everything that can be reached -/

/-- The rows are those of the collections that can be reached from the root, the root first, each
once and none before a nearer one. -/
structure ReadAlong (s : Store) (r : Id → Id → Prop) (root : Id) (rows : List Collection) :
    Prop where
  first : rows.head? = s.collection? root
  mem : ∀ x, x ∈ rows ↔ x ∈ s.collections.rows ∧ ReflTransGen r root x.id
  once : (rows.map Collection.id).Nodup
  nearer : rows.Pairwise fun x y => distance r root x.id ≤ distance r root y.id

/-- A slot of the collection `c` refers to the collection `d`, and that exists. -/
def LeadsTo (s : Store) (c d : Id) : Prop := s.Refers c d ∧ s.hasCollection d = true

theorem follows_collectionsBelow (s : Store) :
    Follows s.collectionsBelow s.hasCollection s.LeadsTo := by
  intro level d
  rw [mem_collectionsBelow]
  exact ⟨fun ⟨⟨c, hc, hrefers⟩, hd⟩ => ⟨c, hc, hrefers, hd⟩,
    fun ⟨c, hc, hrefers, hd⟩ => ⟨⟨c, hc, hrefers⟩, hd⟩⟩

/-- Along slots that belong to collections that exist, nothing that exists is reached through what
does not. -/
theorem Owned.steps_leadsTo_iff (h : s.Owned) (hd : s.hasCollection d = true) :
    Steps s.LeadsTo root n d ↔ Steps s.Refers root n d := by
  constructor
  · intro hsteps
    induction hsteps with
    | here => exact .here
    | @onward n b c before step ih =>
        obtain ⟨x, hx, rfl, -⟩ := step.1
        exact (ih (h x hx)).onward step.1
  · intro hsteps
    induction hsteps with
    | here => exact .here
    | @onward n b c before step ih =>
        obtain ⟨x, hx, rfl, hitem⟩ := step
        exact (ih (h x hx)).onward ⟨⟨x, hx, rfl, hitem⟩, hd⟩

/-- The ids of the collections that exist. -/
def collectionKeys (s : Store) : Finset Id := (s.collections.rows.map Collection.id).toFinset

theorem mem_collectionKeys (id : Id) (h : s.hasCollection id = true) : id ∈ s.collectionKeys := by
  obtain ⟨x, hx, rfl⟩ := hasCollection_iff.1 h
  exact List.mem_toFinset.2 (List.mem_map_of_mem hx)

theorem card_collectionKeys_lt (s : Store) : s.collectionKeys.card < s.levelBound := by
  have hle := List.toFinset_card_le (s.collections.rows.map Collection.id)
  rw [List.length_map] at hle
  exact Nat.lt_succ_of_le hle

/-- More levels make no difference. -/
theorem levels_of_levelBound_le {steps : ℕ} (hle : s.levelBound ≤ steps) :
    Walk.levels expand s.hasCollection steps [root] [root] =
      Walk.levels expand s.hasCollection s.levelBound [root] [root] :=
  Walk.levels_eq_of_le mem_collectionKeys
    (fun _ => (Finset.card_filter_le _ _).trans_lt s.card_collectionKeys_lt) hle

theorem mem_levels (hr : Follows expand s.hasCollection r) :
    d ∈ (Walk.levels expand s.hasCollection s.levelBound [root] [root]).flatten ↔
      ReflTransGen r root d :=
  Walk.mem_levels_iff hr mem_collectionKeys s.card_collectionKeys_lt

/-- What can be reached from a collection exists. -/
theorem hasCollection_of_follows (hr : Follows expand s.hasCollection r)
    (hroot : s.hasCollection root = true) (h : ReflTransGen r root d) :
    s.hasCollection d = true := by
  cases h with
  | refl => exact hroot
  | @tail c d _ step => exact ((hr [c] d).2 ⟨c, List.mem_cons_self, step⟩).2

/-- **A walk by levels reads along its relation.** -/
theorem readAlong_levels (hr : Follows expand s.hasCollection r)
    (hroot : s.hasCollection root = true) :
    s.ReadAlong r root (s.collectionsAt
      (Walk.levels expand s.hasCollection s.levelBound [root] [root]).flatten) := by
  have hpairwise : (Walk.levels expand s.hasCollection s.levelBound [root] [root]).flatten.Pairwise
      _ := Walk.pairwise_levels hr (.start r s.hasCollection root)
  have hids := ids_collectionsAt (s := s) fun d hd =>
    hasCollection_of_follows hr hroot ((mem_levels hr).1 hd)
  rw [← hids, List.pairwise_map] at hpairwise
  refine ⟨?_, fun x => ?_, ?_, hpairwise.imp And.right⟩
  · rw [levelBound, Walk.flatten_levels_root]
    exact head?_collectionsAt hroot
  · rw [mem_collectionsAt, mem_levels hr]
  · exact List.pairwise_map.2 (hpairwise.imp And.left)

/-! ### Works -/

/-- The rows are those of the works that the slots of the collections refer to, each once. -/
structure WorksHeld (s : Store) (collections : List Collection) (rows : List Manifestation) :
    Prop where
  mem : ∀ m, m ∈ rows ↔ m ∈ s.manifestations.rows ∧
    ∃ x ∈ collections, ∃ y ∈ s.slotsOf x.id, y.item = .manifestation m.id
  once : (rows.map Manifestation.id).Nodup

/-- The works that the slots of the levels refer to. -/
theorem mem_worksBelow {levels : List (List Id)} {m : Id} :
    m ∈ levels.flatMap (fun l => (s.refsBelow l).filterMap ItemRef.manifestation?) ↔
      ∃ c ∈ levels.flatten, ∃ y ∈ s.slotsOf c, y.item = .manifestation m := by
  simp only [List.mem_flatMap, List.mem_filterMap, ItemRef.manifestation?_eq_some, mem_refsBelow,
    List.mem_flatten, mem_slotsOf, exists_eq_right]
  constructor
  · rintro ⟨level, hlevel, -, c, hc, y, hy, howner, hitem⟩
    exact ⟨c, ⟨level, hlevel, hc⟩, y, ⟨hy, howner⟩, hitem⟩
  · rintro ⟨c, ⟨level, hlevel, hc⟩, y, ⟨hy, howner⟩, hitem⟩
    exact ⟨level, hlevel, rfl, c, hc, y, hy, howner, hitem⟩

theorem worksHeld_levels {levels : List (List Id)}
    (h : ∀ id ∈ levels.flatten, s.hasCollection id = true) :
    s.WorksHeld (s.collectionsAt levels.flatten)
      ((levels.flatMap fun l =>
        (s.refsBelow l).filterMap ItemRef.manifestation?).eraseDups.filterMap
          s.manifestation?) := by
  refine ⟨fun m => ?_, ?_⟩
  · refine Table.mem_filterMap_find?.trans (and_congr_right fun _ => ?_)
    rw [List.mem_eraseDups, mem_worksBelow]
    -- an id is that of a row
    constructor
    · rintro ⟨c, hc, hslot⟩
      obtain ⟨x, hx, rfl⟩ := hasCollection_iff.1 (h c hc)
      exact ⟨x, mem_collectionsAt.2 ⟨hx, hc⟩, hslot⟩
    · rintro ⟨x, hx, hslot⟩
      exact ⟨x.id, (mem_collectionsAt.1 hx).2, hslot⟩
  · have hids := s.manifestations.map_key_filterMap_find?
      (levels.flatMap fun l => (s.refsBelow l).filterMap ItemRef.manifestation?).eraseDups
    exact hids ▸ (nodup_eraseDups _).filter _

/-! ### Downwards -/

theorem exists_descendants (hroot : s.hasCollection root = true) :
    ∃ t, s.descendants root = .ok t ∧ s.ReadAlong s.LeadsTo root t.collections ∧
      s.WorksHeld t.collections t.manifestations := by
  have hr := s.follows_collectionsBelow
  have hexist : ∀ id ∈ (s.levelsBelow root).flatten, s.hasCollection id = true := fun d hd =>
    hasCollection_of_follows hr hroot ((mem_levels hr).1 hd)
  obtain ⟨row, hrow⟩ := exists_requireCollection hroot
  have hrun : s.descendants root = .ok ⟨_, s.collectionsAt (s.levelsBelow root).flatten⟩ :=
    bind_eq_ok.2 ⟨row, hrow, rfl⟩
  exact ⟨_, hrun, readAlong_levels hr hroot, worksHeld_levels hexist⟩

/-- **What is read of a subtree.**  The walk down ends by itself.  It gives the root and then every
collection that slots lead to from it, each once and none before a nearer one, and every work that
one of them refers to, each once; of what does not exist nothing.  Where every slot belongs to a
collection that exists, slots lead from the root to a collection in so many steps exactly when
references do. -/
theorem descendants_complete (hroot : s.hasCollection root = true) :
    (∀ steps, s.levelBound ≤ steps →
      Walk.levels s.collectionsBelow s.hasCollection steps [root] [root] = s.levelsBelow root) ∧
    (∃ t, s.descendants root = .ok t ∧ s.ReadAlong s.LeadsTo root t.collections ∧
      s.WorksHeld t.collections t.manifestations) ∧
    (s.Owned → ∀ d, s.hasCollection d = true →
      ∀ n, Steps s.LeadsTo root n d ↔ Steps s.Refers root n d) :=
  ⟨fun _ => levels_of_levelBound_le, exists_descendants hroot,
    fun howned _ hd _ => howned.steps_leadsTo_iff hd⟩

/-- Four collections and a work.  Two ways lead from the series to the part, the part leads back to
the series, and two slots refer to what is gone. -/
def tangled : Except Fault Store := do
  let s ← [.create "series" 0 "Series" .series, .create "first" 0 "First" .volume,
    .create "second" 0 "Second" .volume, .create "part" 0 "Part" .volume].foldlM putCollection empty
  let s ← s.putManifestation (.create "work" 0 "Work" Manifestation.published)
  [.create "a" 0 "series" (.collection "second") 1, .create "b" 0 "series" (.collection "first") 2,
    .create "c" 0 "first" (.collection "part") 1, .create "d" 0 "first" (.manifestation "gone") 2,
    .create "e" 0 "first" (.manifestation "work") 3, .create "f" 0 "second" (.collection "gone") 1,
    .create "g" 0 "second" (.collection "part") 2, .create "h" 0 "part" (.collection "series") 1,
    .create "i" 0 "part" (.manifestation "work") 2].foldlM putSlot s

/-- The part and the work come once, although two ways lead to either and one leads back. -/
theorem descendants_complete_tangled : ∃ s t x m, tangled = .ok s ∧
    s.hasCollection "series" = true ∧ s.Refers "part" "series" ∧ s.descendants "series" = .ok t ∧
      (t.collections.map Collection.id).Nodup ∧ x ∈ t.collections ∧ x.id = "part" ∧
      (t.manifestations.map Manifestation.id).Nodup ∧ m ∈ t.manifestations ∧ m.id = "work" := by
  obtain ⟨s, hrun, hroot, hback, ⟨hdown, hfirst⟩, hfurther, ⟨x, hx, hpart⟩, ⟨m, hm, hwork⟩, hslot⟩ :
      ∃ s, tangled = .ok s ∧ s.hasCollection "series" = true ∧ s.Refers "part" "series" ∧
        (s.Refers "series" "first" ∧ s.hasCollection "first" = true) ∧ s.Refers "first" "part" ∧
        (∃ x ∈ s.collections.rows, x.id = "part") ∧ (∃ m ∈ s.manifestations.rows, m.id = "work") ∧
        ∃ y ∈ s.slotsOf "part", y.item = .manifestation "work" :=
    exists_eq_ok_of_any (by decide +kernel)
  obtain ⟨t, hread, hcollections, hworks⟩ := (descendants_complete hroot).2.1
  have hreached : ReflTransGen s.LeadsTo "series" "part" :=
    .head ⟨hdown, hfirst⟩ (.single ⟨hfurther, hasCollection_iff.2 ⟨x, hx, hpart⟩⟩)
  have hxt : x ∈ t.collections := (hcollections.mem x).2 ⟨hx, hpart ▸ hreached⟩
  have hmt : m ∈ t.manifestations := (hworks.mem m).2 ⟨hm, x, hxt, hpart ▸ hwork ▸ hslot⟩
  exact ⟨s, t, x, m, hrun, hroot, hback, hread, hcollections.once, hxt, hpart, hworks.once, hmt,
    hwork⟩

end Store

end Anthology
