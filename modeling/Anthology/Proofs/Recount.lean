/-
**Recounts in closed form.**

The cache is brought up to date by walks that count one collection after the other and write the
rows whose numbers were wrong.  Counting looks at the slots and at what exists, never at a cached
number, so the walks have a closed form: the store with the right numbers in the rows of the listed
collections, in whatever order they were counted and however often.

Main definitions:

* `Anthology.Store.recount` — the store with the right numbers in the listed rows.

Main results:

* `Anthology.Store.countBelow_congr` — what counting looks at;
* `Anthology.Store.recount_eq_self`, `Anthology.Store.recount_recount` — a recount where the numbers
  are right, and two recounts in one;
* `Anthology.Store.propagate_eq_ok`, `Anthology.Store.propagateAll_eq_ok`,
  `Anthology.Store.recalculateAll_eq_ok` — **the closed form of the walks**.
-/

import Anthology.Proofs.Writes

set_option relaxedAutoImplicit false
set_option autoImplicit false

namespace Anthology

namespace Store

variable {s s' t : Store} {now : Time} {c : Id} {cs ds : List Id}

/-! ### What counting looks at -/

/-- The two stores have the same slots, and the same works and collections exist in both. -/
structure SameContent (s t : Store) : Prop where
  slots : t.slots = s.slots
  works : ∀ m, t.hasManifestation m = s.hasManifestation m
  collections : ∀ c, t.hasCollection c = s.hasCollection c

theorem tally_congr (h : s.SameContent t) (turns : ℕ) (stack : List Id) (works : ℕ) :
    t.tally turns stack works = s.tally turns stack works := by
  have hslots : t.slotsOf = s.slotsOf := by
    funext c
    rw [slotsOf, slotsOf, h.slots]
  have hworks : t.worksIn = s.worksIn := by
    funext c
    rw [worksIn, worksIn, hslots, funext h.works]
  have hsub : t.subCollections = s.subCollections := by
    funext c
    rw [subCollections, subCollections, childrenOf, childrenOf, hslots, funext h.collections]
  fun_induction tally s turns stack works with
  | case1 => rfl
  | case2 => rfl
  | case3 turns c stack works ih => rw [tally, hsub, hworks, ih]

/-- A number of works depends on the slots and on what exists, and on no cached number. -/
theorem countBelow_congr (h : s.SameContent t) (hsize : t.collections.size = s.collections.size)
    (c : Id) : t.countBelow c = s.countBelow c := by
  rw [countBelow, countBelow, turns, turns, hsize, h.slots, tally_congr h]

/-- The collections above one depend on the slots only. -/
theorem upward_congr (h : t.slots = s.slots) (c : Id) : t.upward c = s.upward c := by
  have hparents : t.parentsOf = s.parentsOf := by
    funext c
    rw [parentsOf, parentsOf, holdersOf, holdersOf, h]
  rw [upward, upward, walkBound, walkBound, h, hparents]

/-! ### The rows with the right numbers -/

/-- The row with the right number. -/
def recounted (s : Store) (now : Time) (row : Collection) : Collection :=
  if (s.countBelow row.id : Int) = row.count then row
  else { row with count := s.countBelow row.id, updatedAt := now }

/-- A row that is counted anew when it is listed. -/
def recountedIn (s : Store) (now : Time) (cs : List Id) (row : Collection) : Collection :=
  if row.id ∈ cs then s.recounted now row else row

@[simp] theorem recounted_id (s : Store) (now : Time) (row : Collection) :
    (s.recounted now row).id = row.id := by
  unfold recounted
  split <;> rfl

@[simp] theorem recounted_kind (s : Store) (now : Time) (row : Collection) :
    (s.recounted now row).kind = row.kind := by
  unfold recounted
  split <;> rfl

@[simp] theorem recounted_count (s : Store) (now : Time) (row : Collection) :
    (s.recounted now row).count = s.countBelow row.id := by
  unfold recounted
  split
  · rename_i h
    exact h.symm
  · rfl

@[simp] theorem recountedIn_id (s : Store) (now : Time) (cs : List Id) (row : Collection) :
    (s.recountedIn now cs row).id = row.id := by
  unfold recountedIn
  split <;> simp

@[simp] theorem recountedIn_kind (s : Store) (now : Time) (cs : List Id) (row : Collection) :
    (s.recountedIn now cs row).kind = row.kind := by
  unfold recountedIn
  split <;> simp

/-- The store with the right numbers in the rows of the listed collections. -/
def recount (s : Store) (now : Time) (cs : List Id) : Store :=
  { s with collections := s.collections.update (s.recountedIn now cs) (s.recountedIn_id now cs) }

@[simp] theorem recount_hasCollection : (s.recount now cs).hasCollection c = s.hasCollection c :=
  Table.has_update s.collections _ (s.recountedIn_id now cs) c

@[simp] theorem recount_collection? :
    (s.recount now cs).collection? c = (s.collection? c).map (s.recountedIn now cs) :=
  Table.find?_update s.collections _ (s.recountedIn_id now cs) c

/-- A recount writes no slots. -/
@[simp] theorem recount_slot? : (s.recount now cs).slot? c = s.slot? c := rfl

theorem sameContent_recount : s.SameContent (s.recount now cs) :=
  ⟨rfl, fun _ => rfl, fun _ => recount_hasCollection⟩

@[simp] theorem recount_countBelow : (s.recount now cs).countBelow c = s.countBelow c :=
  countBelow_congr sameContent_recount (by simp [Table.size, recount]) c

@[simp] theorem recount_upward : (s.recount now cs).upward = s.upward :=
  funext fun c => upward_congr rfl c

/-- A recount writes no rows but those of collections, and of those only numbers. -/
theorem writes_recount : Writes s (s.recount now cs) := by
  refine .single (.editCollections _ _ (fun row _ => ?_) fun row _ hcount => ?_)
  · simp [Collection.isUncollected]
  · unfold recountedIn
    split
    · simp
    · exact hcount

/-! ### Recounts one after the other -/

/-- Where the listed numbers are right nothing is written. -/
theorem recount_eq_self
    (h : ∀ row ∈ s.collections.rows, row.id ∈ cs → (s.countBelow row.id : Int) = row.count) :
    s.recount now cs = s := by
  have hrows : s.collections.rows.map (s.recountedIn now cs) = s.collections.rows := by
    rw [List.map_congr_left fun row hrow => ?_, List.map_id]
    unfold recountedIn
    split
    · rename_i hid
      exact if_pos (h row hrow hid)
    · rfl
  unfold recount
  congr
  exact Table.ext hrows

@[simp] theorem recount_nil : s.recount now [] = s :=
  recount_eq_self fun _ _ h => absurd h List.not_mem_nil

/-- Two recounts are one, because the second finds the same numbers right. -/
theorem recount_recount : (s.recount now cs).recount now ds = s.recount now (cs ++ ds) := by
  have hrow : ∀ row : Collection, (s.recount now cs).recountedIn now ds (s.recountedIn now cs row) =
      s.recountedIn now (cs ++ ds) row := by
    intro row
    by_cases hc : row.id ∈ cs
    · -- the first recount has put the number right
      have hright : (s.recount now cs).recounted now (s.recounted now row) =
          s.recounted now row := by
        rw [recounted, if_pos (by simp)]
      simp [recountedIn, hc, hright]
    · simp [recountedIn, hc, recounted]
  unfold recount
  congr 1
  refine Table.ext ?_
  rw [Table.rows_update, Table.rows_update, Table.rows_update, List.map_map]
  exact List.map_congr_left fun row _ => hrow row

/-! ### The walks in closed form -/

/-- One collection is counted anew if it is there, and reported with both its numbers. -/
theorem refreshCount_eq_ok {r : Recount} : s.refreshCount now c = .ok (r, s') ↔
    ∃ row, s.collection? c = some row ∧ r = ⟨row.count, s.countBelow c⟩ ∧
      s' = s.recount now [c] := by
  unfold refreshCount
  cases hrow : s.collection? c with
  | none => simp
  | some row =>
      obtain ⟨hmem, rfl⟩ := collection?_eq_some.1 hrow
      have hstore : (if (s.countBelow row.id : Int) = row.count then s
          else s.setCount now row.id (s.countBelow row.id)) = s.recount now [row.id] := by
        split
        · rename_i hright
          refine (recount_eq_self fun x hx hid => ?_).symm
          rw [Table.eq_of_key_eq hx hmem (List.mem_singleton.1 hid), hright]
        · -- the row of the collection is the only one that is written
          rename_i hwrong
          unfold recount setCount editCollection
          congr 1
          refine Table.ext (List.map_congr_left fun x hx => ?_)
          show (if x.id = row.id then _ else x) = _
          simp only [recountedIn, List.mem_singleton]
          split
          · rename_i h
            rw [Table.eq_of_key_eq hx hmem h, recounted, if_neg hwrong]
          · rfl
      simp only [hstore, Except.ok.injEq, Prod.mk.injEq, Option.some.injEq, exists_eq_left']
      exact and_congr eq_comm eq_comm

theorem exists_collection?_iff : (∃ row, s.collection? c = some row) ↔ s.hasCollection c = true :=
  Table.has_iff_find?.symm

theorem exists_requireCollection (h : s.hasCollection c = true) :
    ∃ row, s.requireCollection c = .ok row := by
  obtain ⟨row, hrow⟩ := exists_collection?_iff.2 h
  exact ⟨row, requireCollection_eq_ok.2 hrow⟩

theorem refreshCounts_eq_ok : s.refreshCounts now cs = .ok s' ↔
    (∀ c ∈ cs, s.hasCollection c = true) ∧ s' = s.recount now cs := by
  induction cs generalizing s with
  | nil =>
      simp only [refreshCounts, List.not_mem_nil, false_imp_iff, implies_true, true_and,
        recount_nil, Except.ok.injEq]
      exact eq_comm
  | cons c cs ih =>
      simp only [refreshCounts, bind_eq_ok, Prod.exists, refreshCount_eq_ok, ih,
        List.forall_mem_cons]
      constructor
      · rintro ⟨_, _, ⟨row, hrow, -, rfl⟩, hcs, rfl⟩
        refine ⟨⟨hasCollection_of_collection? hrow, fun d hd => ?_⟩, recount_recount⟩
        exact recount_hasCollection ▸ hcs d hd
      · rintro ⟨⟨hc, hcs⟩, rfl⟩
        obtain ⟨row, hrow⟩ := exists_collection?_iff.2 hc
        refine ⟨_, _, ⟨row, hrow, rfl, rfl⟩,
          fun d hd => recount_hasCollection.trans (hcs d hd), ?_⟩
        rw [recount_recount]
        rfl

/-- **A collection and everything above it is counted anew.** -/
theorem propagate_eq_ok : s.propagate now c = .ok s' ↔
    (∀ d, s.Contains d c → s.hasCollection d = true) ∧ s' = s.recount now (s.upward c) := by
  simp only [propagate, refreshCounts_eq_ok, mem_upward]

theorem propagateIf_eq_ok {affected : Bool} : s.propagateIf now affected c = .ok s' ↔
    (affected = true → ∀ d, s.Contains d c → s.hasCollection d = true) ∧
      s' = s.recount now (if affected then s.upward c else []) := by
  cases affected
  · simp only [propagateIf, Bool.false_eq_true, if_false, false_imp_iff, true_and, recount_nil,
      Except.ok.injEq]
    exact eq_comm
  · simp only [propagateIf, if_true, propagate_eq_ok, true_imp_iff]

/-- Counting anew from several collections is one recount of everything above them. -/
theorem propagateAll_eq_ok : s.propagateAll now cs = .ok s' ↔
    (∀ c ∈ cs, ∀ d, s.Contains d c → s.hasCollection d = true) ∧
      s' = s.recount now (cs.flatMap s.upward) := by
  induction cs generalizing s with
  | nil =>
      simp only [propagateAll, List.not_mem_nil, false_imp_iff, implies_true, true_and,
        List.flatMap_nil, recount_nil, Except.ok.injEq]
      exact eq_comm
  | cons c cs ih =>
      simp only [propagateAll, bind_eq_ok, propagate_eq_ok, ih, List.forall_mem_cons,
        List.flatMap_cons]
      -- numbers are no references, so what is above a collection stays above it
      have hcontains : ∀ ds d c, (s.recount now ds).Contains d c ↔ s.Contains d c := by
        intro ds d c
        rw [← mem_upward, recount_upward, mem_upward]
      constructor
      · rintro ⟨_, ⟨hc, rfl⟩, hcs, rfl⟩
        refine ⟨⟨hc, fun d hd e he => ?_⟩, ?_⟩
        · exact recount_hasCollection ▸ hcs d hd e ((hcontains ..).2 he)
        · rw [recount_recount, recount_upward]
      · rintro ⟨⟨hc, hcs⟩, rfl⟩
        refine ⟨_, ⟨hc, rfl⟩, fun d hd e he => ?_, ?_⟩
        · exact recount_hasCollection.trans (hcs d hd e ((hcontains ..).1 he))
        · rw [recount_recount, recount_upward]

/-! ### The repair in closed form -/

theorem recalculate_eq_ok {r : Recount} (h : s.recalculate now c = .ok (r, s')) :
    s' = s.recount now [c] := by
  simp only [recalculate, bind_eq_ok, refreshCount_eq_ok] at h
  obtain ⟨_, _, _, _, _, h⟩ := h
  exact h

theorem repair_eq_ok {drifts : List Drift} (h : s.repair now cs = .ok (drifts, s')) :
    s' = s.recount now cs := by
  induction cs generalizing s drifts with
  | nil =>
      cases h
      exact recount_nil.symm
  | cons c cs ih =>
      simp only [repair, bind_eq_ok, Prod.exists, refreshCount_eq_ok, pure_eq_ok,
        Prod.mk.injEq] at h
      obtain ⟨_, _, ⟨_, _, _, rfl⟩, _, _, hrest, _, rfl⟩ := h
      rw [ih hrest, recount_recount]
      rfl

/-- **The repair counts every collection anew.** -/
theorem recalculateAll_eq_ok {r : RecalculateSummary × List Drift}
    (h : s.recalculateAll now = .ok (r, s')) : s' = s.recount now s.collectionIds := by
  simp only [recalculateAll, bind_eq_ok, Prod.exists, pure_eq_ok, Prod.mk.injEq] at h
  obtain ⟨_, _, hrepair, _, rfl⟩ := h
  exact repair_eq_ok hrepair

end Store

end Anthology
