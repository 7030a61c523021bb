/-
**A dry run predicts the run.**

A dry run classifies all orphans in one store.  A run for real classifies each orphan in the store
that the orphans before it have left, in which collections are gone, slots went with them, numbers
were counted anew and authorities got links.  It cannot be compared with the dry run store by store.
What carries the comparison is a description of the store on the way in terms of the first store and
of the fates so far: nothing in it that a fate hangs on has changed, but for the links, and those
are what the dry run remembers.

Main definitions:

* `Anthology.CleanupReport.countAll` — the report with fates counted;
* `Anthology.Store.Carried` — the store on the way;
* `Anthology.Store.fates` — what becomes of all orphans.

Main results:

* `Anthology.Store.Carried.resolve` — one orphan is treated;
* `Anthology.Store.Carried.fateOf` — **a fate is the same in the first store and on the way**;
* `Anthology.Store.treat_dryRun_eq`, `Anthology.Store.Carried.treat` — both runs follow the plan;
* `Anthology.Store.Reachable.dryRun_predicts` — **a dry run predicts the run**.
-/

import Anthology.Proofs.Fates

set_option relaxedAutoImplicit false
set_option autoImplicit false

namespace Anthology

/-! ### Reports -/

namespace CleanupReport

variable {report : CleanupReport} {fates : List (Id × OrphanFate)}

/-- The report with the listed fates counted. -/
def countAll (report : CleanupReport) (fates : List (Id × OrphanFate)) : CleanupReport :=
  fates.foldl (fun report d => report.count d.2) report

/-- Each fate is counted by one of the four counters. -/
theorem countAll_eq (report : CleanupReport) (fates : List (Id × OrphanFate)) :
    report.countAll fates = { report with
      deletedEmpty := report.deletedEmpty + fates.countP (·.2 matches .deleteEmpty)
      linked := report.linked + fates.countP (·.2 matches .link _)
      deletedDuplicate := report.deletedDuplicate + fates.countP (·.2 matches .deleteDuplicate _)
      deletedUnfixable :=
        report.deletedUnfixable + fates.countP (·.2 matches .deleteUnfixable _) } := by
  induction fates generalizing report with
  | nil => rfl
  | cons d fates ih =>
      obtain ⟨c, fate⟩ := d
      show (report.count fate).countAll fates = _
      rw [ih]
      cases fate <;> simp [count, Nat.add_assoc, Nat.add_comm 1]

/-- How a run was made changes nothing of what it counts. -/
theorem countAll_start (mode : CleanupMode) (n : ℕ) (fates : List (Id × OrphanFate)) :
    (start mode n).countAll fates = { (start .execute n).countAll fates with mode } := by
  rw [countAll_eq, countAll_eq]
  rfl

/-- Every fate is of one of the four kinds. -/
theorem sum_countP (fates : List (Id × OrphanFate)) :
    fates.countP (·.2 matches .deleteEmpty) + fates.countP (·.2 matches .link _) +
        fates.countP (·.2 matches .deleteDuplicate _) +
          fates.countP (·.2 matches .deleteUnfixable _) = fates.length := by
  induction fates with
  | nil => rfl
  | cons d fates ih =>
      obtain ⟨c, fate⟩ := d
      cases fate <;> simp <;> omega

end CleanupReport

namespace Store

variable {s t u : Store} {now : Time} {c d : Id} {a : Id} {cs linkedNow : List Id}
  {done : List (Id × OrphanFate)} {fate : OrphanFate} {report : CleanupReport}

theorem SameButCount.refl (row : Collection) : SameButCount row row := rfl

theorem SameButCount.trans {old mid row : Collection} (h : SameButCount old mid)
    (h' : SameButCount mid row) : SameButCount old row := by
  unfold SameButCount at *
  rw [h', h]

theorem SameButCount.id_eq {old row : Collection} (h : SameButCount old row) : row.id = old.id := by
  rw [h]

theorem SameButCount.isUncollected_eq {old row : Collection} (h : SameButCount old row) :
    row.isUncollected = old.isUncollected := by
  rw [h]
  rfl

/-! ### Fates so far -/

/-- The orphans that were deleted. -/
def deletedIn (done : List (Id × OrphanFate)) : List Id :=
  (done.filter fun d => d.2.linked?.isNone).map Prod.fst

/-- The authorities that were linked. -/
def linkedIn (done : List (Id × OrphanFate)) : List Id := done.filterMap fun d => d.2.linked?

/-- The slot neither belongs to an orphan that was deleted nor refers to one. -/
def Spared (done : List (Id × OrphanFate)) (x : Slot) : Prop :=
  x.owner ∉ deletedIn done ∧ ∀ d ∈ deletedIn done, x.item ≠ .collection d

instance : DecidablePred (Spared done) := fun x =>
  inferInstanceAs (Decidable (x.owner ∉ deletedIn done ∧
    ∀ d ∈ deletedIn done, x.item ≠ .collection d))

/-- The row of an authority, which may have been linked. -/
def endowed (now : Time) (done : List (Id × OrphanFate)) (x : Authority) : Authority :=
  match done.find? fun d => d.2 == .link x.id with
  | some d => { x with uncollected := some d.1, updatedAt := now }
  | none => x

theorem mem_deletedIn : c ∈ deletedIn done ↔ ∃ fate, (c, fate) ∈ done ∧ fate.linked? = none := by
  simp [deletedIn]

theorem mem_linkedIn : a ∈ linkedIn done ↔ ∃ d, (d, .link a) ∈ done := by
  simp [linkedIn, linked?_eq_some]

theorem deletedIn_snoc_link : deletedIn (done ++ [(c, .link a)]) = deletedIn done := by
  simp [deletedIn, OrphanFate.linked?]

theorem deletedIn_snoc (h : fate.linked? = none) :
    deletedIn (done ++ [(c, fate)]) = deletedIn done ++ [c] := by
  simp [deletedIn, h]

theorem spared_snoc_link {x : Slot} : Spared (done ++ [(c, .link a)]) x ↔ Spared done x := by
  rw [Spared, deletedIn_snoc_link, Spared]

theorem spared_snoc {x : Slot} (h : fate.linked? = none) : Spared (done ++ [(c, fate)]) x ↔
    Spared done x ∧ x.owner ≠ c ∧ x.item ≠ .collection c := by
  simp only [Spared, deletedIn_snoc h, List.mem_append, List.mem_singleton, not_or, or_imp,
    forall_and, forall_eq]
  tauto

@[simp] theorem endowed_id (now : Time) (done : List (Id × OrphanFate)) (x : Authority) :
    (endowed now done x).id = x.id := by
  unfold endowed
  split <;> rfl

theorem endowed_of_unlinked {x : Authority} (h : ∀ d, (d, .link x.id) ∉ done) :
    endowed now done x = x := by
  have hnone : done.find? (fun d => d.2 == .link x.id) = none := by
    refine List.find?_eq_none.2 fun d hd hlink => h d.1 ?_
    rw [← beq_iff_eq.1 hlink]
    exact hd
  rw [endowed, hnone]

/-- An authority that was linked is linked to an orphan of which that was the fate. -/
theorem endowed_of_linked (now : Time) {x : Authority} (h : (c, .link x.id) ∈ done) :
    ∃ d, (d, .link x.id) ∈ done ∧
      endowed now done x = { x with uncollected := some d, updatedAt := now } := by
  cases hfound : done.find? fun d => d.2 == .link x.id with
  | none => exact absurd (List.find?_eq_none.1 hfound _ h) (by simp)
  | some d =>
      have hlink : d.2 = .link x.id := by simpa using List.find?_some hfound
      refine ⟨d.1, ?_, by rw [endowed, hfound]⟩
      rw [← hlink]
      exact List.mem_of_find?_eq_some hfound

/-- Whether an authority has a link afterwards. -/
theorem isSome_endowed {x : Authority} : (endowed now done x).uncollected.isSome = true ↔
    x.uncollected.isSome = true ∨ ∃ d, (d, .link x.id) ∈ done := by
  by_cases h : ∃ d, (d, .link x.id) ∈ done
  · obtain ⟨d, -, hlinked⟩ := endowed_of_linked now h.choose_spec
    simp [hlinked, h]
  · rw [endowed_of_unlinked (not_exists.1 h), or_iff_left h]

/-- One more authority is linked, which was not before. -/
theorem endowed_snoc_link (x : Authority) (hfirst : ∀ d, (d, .link a) ∉ done) :
    endowed now (done ++ [(c, .link a)]) x =
      if x.id = a then { x with uncollected := some c, updatedAt := now }
      else endowed now done x := by
  split
  · rename_i hid
    subst hid
    have hnone : done.find? (fun d => d.2 == .link x.id) = none := by
      refine List.find?_eq_none.2 fun d hd hlink => hfirst d.1 ?_
      rw [← beq_iff_eq.1 hlink]
      exact hd
    simp [endowed, List.find?_append, hnone]
  · rename_i hid
    have hother : ([(c, .link a)] : List (Id × OrphanFate)).find?
        (fun d => d.2 == .link x.id) = none := by
      simp [Ne.symm hid]
    rw [endowed, List.find?_append, hother, Option.or_none]
    rfl

theorem endowed_snoc_delete (x : Authority) (h : fate.linked? = none) :
    endowed now (done ++ [(c, fate)]) x = endowed now done x := by
  have hother : ([(c, fate)] : List (Id × OrphanFate)).find?
      (fun d => d.2 == .link x.id) = none := by
    cases fate <;> simp [OrphanFate.linked?] at h ⊢
  rw [endowed, List.find?_append, hother, Option.or_none]
  rfl

/-! ### The store on the way -/

/-- The store `t` is `s` after the orphans in `done` met their fates: some collections are gone, the
slots that belonged or referred to them with them, authorities were linked, and numbers of
collections were counted anew. -/
structure Carried (s : Store) (now : Time) (done : List (Id × OrphanFate)) (t : Store) :
    Prop where
  manifestations : t.manifestations = s.manifestations
  involvements : t.involvements = s.involvements
  authorities : t.authorities.rows = s.authorities.rows.map (endowed now done)
  slots : t.slots.rows = s.slots.rows.filter fun x => decide (Spared done x)
  collections : ∃ f : Collection → Collection, (∀ row, SameButCount row (f row)) ∧
    t.collections.rows = (s.collections.rows.filter fun row => row.id ∉ deletedIn done).map f

theorem Carried.refl (s : Store) (now : Time) : Carried s now [] s := by
  have hall : ∀ x : Slot, decide (Spared [] x) = true := fun x => by simp [Spared, deletedIn]
  refine ⟨rfl, rfl, ?_, ?_, fun row => row, .refl, ?_⟩
  · exact (List.map_id _).symm
  · exact (List.filter_eq_self.2 fun x _ => hall x).symm
  · simp [deletedIn]

theorem Carried.recount (h : Carried s now done t) : Carried s now done (t.recount now cs) := by
  obtain ⟨f, hf, hrows⟩ := h.collections
  refine ⟨h.manifestations, h.involvements, h.authorities, h.slots,
    t.recountedIn now cs ∘ f, fun row => (hf row).trans recountedIn_sameButCount, ?_⟩
  rw [← List.map_map, ← hrows]
  rfl

/-- An authority that is there and was not linked before is linked. -/
theorem Carried.link (h : Carried s now done t) (hthere : (t.authority? a).isSome = true)
    (hfirst : ∀ d, (d, .link a) ∉ done) (hlink : t.link now a c = .ok u) :
    Carried s now (done ++ [(c, .link a)]) u := by
  obtain ⟨v, hset, rfl⟩ := link_eq_ok hlink
  rcases setLink_eq_ok hset with ⟨hmissing, -⟩ | ⟨-, -, rfl⟩
  · rw [hmissing] at hthere
    contradiction
  refine ⟨h.manifestations, h.involvements, ?_, ?_, ?_⟩
  · show (t.authorities.rows.map fun x =>
      if x.id = a then { x with uncollected := some c } else x).map
        (fun x => if x.id = a then { x with updatedAt := now } else x) = _
    rw [h.authorities, List.map_map, List.map_map]
    refine List.map_congr_left fun x _ => ?_
    rw [endowed_snoc_link x hfirst]
    by_cases hid : x.id = a
    · subst hid
      simp [endowed_of_unlinked hfirst]
    · simp [hid]
  · simp only [spared_snoc_link]
    exact h.slots
  · simp only [deletedIn_snoc_link]
    exact h.collections

/-- An orphan goes with its slots and with those that refer to it. -/
theorem Carried.without (h : Carried s now done t) (hfate : fate.linked? = none)
    (hunlinked : ∀ x ∈ t.authorities.rows, x.uncollected ≠ some c) :
    Carried s now (done ++ [(c, fate)]) (t.without c) := by
  refine ⟨h.manifestations, h.involvements, ?_, ?_, ?_⟩
  · show (t.authorities.rows.map fun x =>
      if x.uncollected = some c then { x with uncollected := none } else x) = _
    have hsame : (t.authorities.rows.map fun x =>
        if x.uncollected = some c then { x with uncollected := none } else x) =
          t.authorities.rows := by
      rw [List.map_congr_left fun x hx => if_neg (hunlinked x hx), List.map_id']
    rw [hsame, h.authorities]
    exact List.map_congr_left fun x _ => (endowed_snoc_delete x hfate).symm
  · show (t.slots.rows.filter fun x => !(x.item == .collection c)).filter
      (fun x => x.owner != c) = _
    rw [h.slots, List.filter_filter, List.filter_filter]
    refine List.filter_congr fun x _ => Bool.eq_iff_iff.2 ?_
    simp only [spared_snoc hfate, Bool.and_eq_true, bne_iff_ne, Bool.not_eq_true',
      beq_eq_false_iff_ne, decide_eq_true_eq]
    tauto
  · obtain ⟨f, hf, hrows⟩ := h.collections
    refine ⟨f, hf, ?_⟩
    show t.collections.rows.filter (fun row => row.id != c) = _
    rw [hrows, List.filter_map, List.filter_filter]
    refine congrArg (List.map f) (List.filter_congr fun row _ => Bool.eq_iff_iff.2 ?_)
    have hid := (hf row).id_eq
    simp only [Function.comp_apply, hid, deletedIn_snoc hfate, Bool.and_eq_true, bne_iff_ne,
      decide_eq_true_eq, List.mem_append, List.mem_singleton, not_or]
    exact and_comm

/-- A collection that is still there was not deleted. -/
theorem Carried.not_deleted (h : Carried s now done t) (hc : t.hasCollection c = true) :
    c ∉ deletedIn done := by
  obtain ⟨f, hf, hrows⟩ := h.collections
  obtain ⟨row, hrow, rfl⟩ := hasCollection_iff.1 hc
  rw [hrows] at hrow
  obtain ⟨old, hold, rfl⟩ := List.mem_map.1 hrow
  rw [(hf old).id_eq]
  simpa using (List.mem_filter.1 hold).2

/-- A collection that was not deleted is still there. -/
theorem Carried.exists_row (h : Carried s now done t) {old : Collection}
    (hold : old ∈ s.collections.rows) (hkept : old.id ∉ deletedIn done) :
    ∃ row, t.collection? old.id = some row ∧ SameButCount old row := by
  obtain ⟨f, hf, hrows⟩ := h.collections
  refine ⟨f old, collection?_eq_some.2 ⟨?_, (hf old).id_eq⟩, hf old⟩
  rw [hrows]
  exact List.mem_map_of_mem (List.mem_filter.2 ⟨hold, decide_eq_true hkept⟩)

/-- Every collection was there before. -/
theorem Carried.exists_old (h : Carried s now done t) {row : Collection}
    (hrow : row ∈ t.collections.rows) : ∃ old ∈ s.collections.rows, SameButCount old row := by
  obtain ⟨f, hf, hrows⟩ := h.collections
  rw [hrows] at hrow
  obtain ⟨old, hold, rfl⟩ := List.mem_map.1 hrow
  exact ⟨old, (List.mem_filter.1 hold).1, hf old⟩

/-- **One orphan is treated.** -/
theorem Carried.resolve (h : Carried s now done t) (horphan : t.Orphan c)
    (hlink : ∀ a, fate = .link a → (t.authority? a).isSome = true ∧ ∀ d, (d, .link a) ∉ done)
    (hresolve : t.resolve now c fate = .ok u) : Carried s now (done ++ [(c, fate)]) u := by
  cases fate with
  | link a =>
      obtain ⟨v, hv, hpropagate⟩ := bind_eq_ok.1 hresolve
      obtain ⟨-, rfl⟩ := propagate_eq_ok.1 hpropagate
      obtain ⟨hthere, hfirst⟩ := hlink a rfl
      exact (h.link hthere hfirst hv).recount
  | deleteEmpty | deleteDuplicate | deleteUnfixable =>
      obtain ⟨⟨deleted, v⟩, hdelete, hv⟩ := bind_eq_ok.1 hresolve
      cases pure_eq_ok.1 hv
      rcases deleteCollection_eq_ok hdelete with ⟨hmissing, -⟩ | ⟨-, -, rfl⟩
      · rw [horphan.hasCollection] at hmissing
        contradiction
      · exact (h.without rfl horphan.unlinked).recount

/-! ### Fates on the way -/

/-- Of the slots of a collection that is still there only those that refer to collections went. -/
theorem Carried.slotsOf_eq (h : Carried s now done t) (hc : c ∉ deletedIn done) :
    t.slotsOf c = (s.slotsOf c).filter fun x => ∀ d ∈ deletedIn done, x.item ≠ .collection d := by
  rw [slotsOf, slotsOf, h.slots, List.filter_filter, List.filter_filter]
  refine List.filter_congr fun x _ => Bool.eq_iff_iff.2 ?_
  simp only [Bool.and_eq_true, beq_iff_eq, decide_eq_true_eq]
  constructor
  · rintro ⟨rfl, -, hitem⟩
    exact ⟨hitem, rfl⟩
  · rintro ⟨hitem, rfl⟩
    exact ⟨rfl, hc, hitem⟩

theorem Carried.distinctWorks_eq (h : Carried s now done t) (hc : c ∉ deletedIn done) :
    t.distinctWorks c = s.distinctWorks c := by
  have hworks : (t.slotsOf c).filterMap (fun x => x.item.manifestation?) =
      (s.slotsOf c).filterMap fun x => x.item.manifestation? := by
    rw [h.slotsOf_eq hc, List.filterMap_filter]
    refine List.filterMap_congr fun x _ => ?_
    cases hitem : x.item <;> simp [ItemRef.manifestation?]
  rw [distinctWorks, distinctWorks, hworks]
  unfold hasManifestation
  rw [h.manifestations]

theorem Carried.creditedWorks_eq (h : Carried s now done t) (hc : c ∉ deletedIn done) (a : Id) :
    t.creditedWorks a c = s.creditedWorks a c := by
  have hrefers : ∀ m, ((t.slotsOf c).any fun x => x.item == .manifestation m) =
      (s.slotsOf c).any fun x => x.item == .manifestation m := by
    intro m
    rw [h.slotsOf_eq hc, List.any_filter]
    refine congrArg (s.slotsOf c).any (funext fun x => Bool.eq_iff_iff.2 ?_)
    rw [Bool.and_eq_true, decide_eq_true_eq, beq_iff_eq, and_iff_right_iff_imp]
    rintro hitem d - hd
    rw [hitem] at hd
    contradiction
  simp only [creditedWorks, h.involvements, hrefers]

theorem Carried.owners_eq (h : Carried s now done t) (hc : c ∉ deletedIn done) (works : ℕ) :
    t.owners c works = (s.owners c works).map (endowed now done) := by
  rw [owners, owners, h.authorities, List.filter_map]
  refine congrArg _ (List.filter_congr fun x _ => ?_)
  rw [Function.comp_apply, endowed_id, h.creditedWorks_eq hc]

/-- **A fate is the same in the first store and on the way.**  The links that were written say whom
the run has linked, so nothing has to be remembered on the way, and nothing false may be. -/
theorem Carried.fateOf (h : Carried s now done t) (hc : c ∉ deletedIn done) {seen : List Id}
    (hseen : ∀ a ∈ seen, ∃ d, (d, .link a) ∈ done)
    (hnow : ∀ a, a ∈ linkedNow ↔ ∃ d, (d, .link a) ∈ done) :
    t.fateOf seen c = s.fateOf linkedNow c := by
  unfold Store.fateOf
  rw [h.distinctWorks_eq hc]
  dsimp only
  rw [h.owners_eq hc]
  split
  · rfl
  · cases howners : s.owners c (s.distinctWorks c).length with
    | nil => rfl
    | cons x xs =>
        cases xs with
        | cons y ys => simp
        | nil =>
            have htaken : ((endowed now done x).uncollected.isSome || seen.contains x.id) =
                (x.uncollected.isSome || linkedNow.contains x.id) := by
              rw [Bool.eq_iff_iff, Bool.or_eq_true, Bool.or_eq_true, isSome_endowed,
                List.contains_iff_mem, List.contains_iff_mem, hnow, or_assoc]
              exact or_congr_right ⟨fun hx => hx.elim id (hseen x.id), .inl⟩
            simp only [List.map_cons, List.map_nil, endowed_id, htaken]

/-! ### Both runs follow the plan -/

/-- The entries for the orphans that nobody can tell the owner of. -/
def unownedIn (fates : List (Id × OrphanFate)) : List Unowned :=
  fates.flatMap fun d => (d.2.unowned? d.1).toList

/-- A dry run counts the fates of the plan, and leaves the store. -/
theorem treat_dryRun_eq (s : Store) (now : Time) (linkedNow : List Id) (report : CleanupReport)
    (cs : List Id) : treat .dryRun now s linkedNow report cs =
      ⟨.ok (report.countAll (s.plan linkedNow cs), s), unownedIn (s.plan linkedNow cs)⟩ := by
  induction cs generalizing linkedNow report with
  | nil => rfl
  | cons c cs ih =>
      simp only [Store.treat, resolveIn, ih]
      rfl

/-- An authority that an orphan is linked to is there, and was not linked before. -/
theorem Decided.of_link (h : s.Decided done c (.link a)) :
    (∃ x ∈ s.authorities.rows, x.id = a ∧ x.uncollected = none) ∧ ∀ d, (d, .link a) ∉ done := by
  cases h with
  | link held sole free first =>
      exact ⟨⟨_, ((sole.2 _).1 List.mem_cons_self).1, rfl, free⟩, first⟩

/-- A fate that links an authority can be carried out on the way. -/
theorem Carried.of_link (h : Carried s now done t) (hs : s.Lawful)
    (hnow : ∀ a, a ∈ linkedNow ↔ ∃ d, (d, .link a) ∈ done)
    (hfate : s.fateOf linkedNow c = .link a) :
    (t.authority? a).isSome = true ∧ ∀ d, (d, .link a) ∉ done := by
  obtain ⟨⟨x, hx, hid, -⟩, hfirst⟩ := ((hs.decided_iff hnow).2 hfate.symm).of_link
  refine ⟨isSome_authority?_iff.2 ⟨endowed now done x, ?_, (endowed_id ..).trans hid⟩, hfirst⟩
  rw [h.authorities]
  exact List.mem_map_of_mem hx

/-- **A run for real follows the plan of the first store**, whatever was done to it on the way. -/
theorem Carried.treat (h : Carried s now done t) (hs : s.Lawful) (hl : t.Lawful) (ha : t.Acyclic)
    (hcs : cs.Nodup) (horphans : ∀ c ∈ cs, t.Orphan c)
    (hnow : ∀ a, a ∈ linkedNow ↔ ∃ d, (d, .link a) ∈ done) :
    ∃ u, (∀ report, treat .execute now t linkedNow report cs =
        ⟨.ok (report.countAll (s.plan linkedNow cs), u), unownedIn (s.plan linkedNow cs)⟩) ∧
      Carried s now (done ++ s.plan linkedNow cs) u := by
  induction cs generalizing t done linkedNow with
  | nil => exact ⟨t, fun report => rfl, by rwa [plan, List.append_nil]⟩
  | cons c cs ih =>
      obtain ⟨hfresh, hcs⟩ := List.nodup_cons.1 hcs
      have horphan := horphans c List.mem_cons_self
      have hfate : t.fateOf linkedNow c = s.fateOf linkedNow c :=
        h.fateOf (h.not_deleted horphan.hasCollection) (fun a ha => (hnow a).1 ha) hnow
      obtain ⟨v, hv⟩ : ∃ v, t.resolve now c (s.fateOf linkedNow c) = .ok v :=
        horphan.exists_resolve hl ha _
      have hw := writes_resolve horphan.isUncollected hv
      have hnext := h.resolve horphan (fun a hlink => h.of_link hs hnow hlink) hv
      -- the others are orphans still, and the run remembers one more authority, or none
      have hothers : ∀ d ∈ cs, v.Orphan d := by
        intro d hd
        have hne : d ≠ c := by
          rintro rfl
          exact hfresh hd
        exact (horphans d (List.mem_cons_of_mem c hd)).resolve hne hv
      obtain ⟨u, hu, hcarried⟩ := ih hnext (hw.lawful hl) (hw.acyclic ha) hcs hothers
        (mem_linkedNow_snoc hnow)
      refine ⟨u, ?_, ?_⟩
      · intro report
        simp only [Store.treat, resolveIn, hfate, hv, hu]
        rfl
      · rwa [plan_cons, List.append_cons]

/-- The fates of all orphans. -/
def fates (s : Store) : List (Id × OrphanFate) := s.plan [] (s.orphans.map Collection.id)

theorem cleanup_dryRun (s : Store) (now : Time) : s.cleanup now .dryRun =
    ⟨.ok ((CleanupReport.start .dryRun s.orphans.length).countAll s.fates, s),
      unownedIn s.fates⟩ :=
  treat_dryRun_eq ..

/-- The orphans of a store that is reached can be treated one after the other, up to any one. -/
theorem Reachable.treat [Arithmetic] (h : s.Reachable) (now : Time) (hcs : cs.Nodup)
    (horphans : ∀ c ∈ cs, s.Orphan c) :
    ∃ t, (∀ report, treat .execute now s [] report cs =
        ⟨.ok (report.countAll (s.plan [] cs), t), unownedIn (s.plan [] cs)⟩) ∧
      Carried s now (s.plan [] cs) t :=
  (Carried.refl s now).treat h.lawful h.lawful h.acyclic hcs horphans (by simp)

theorem Reachable.cleanup_execute [Arithmetic] (h : s.Reachable) (now : Time) :
    ∃ t, s.cleanup now .execute =
        ⟨.ok ((CleanupReport.start .execute s.orphans.length).countAll s.fates, t),
          unownedIn s.fates⟩ ∧ Carried s now s.fates t := by
  obtain ⟨t, ht, hcarried⟩ :=
    h.treat now s.nodup_orphans fun _ hc => orphan_of_mem_orphans hc
  exact ⟨t, ht _, hcarried⟩

/-! ### A dry run predicts the run -/

/-- **A dry run predicts the run.**  From the same store both succeed with the same report, but for
the mode, and the dry run leaves the store as it is.  In the run for real each orphan meets the fate
that the dry run predicts with the authorities linked so far; the links that were really written
decide it in the same way without that memory. -/
theorem Reachable.dryRun_predicts [Arithmetic] (h : s.Reachable) (now later : Time) :
    (∃ (r : CleanupReport) (t : Store) (unowned : List Unowned),
      s.cleanup now .dryRun = ⟨.ok ({ r with mode := .dryRun }, s), unowned⟩ ∧
        s.cleanup later .execute = ⟨.ok ({ r with mode := .execute }, t), unowned⟩) ∧
    ∀ before c after, s.orphans.map Collection.id = before ++ c :: after →
      ∃ r t, (Store.treat .execute later s [] (.start .execute s.orphans.length) before).result =
          .ok (r, t) ∧
        t.fateOf (linkedIn (s.plan [] before)) c = s.fateOf (linkedIn (s.plan [] before)) c ∧
          t.fateOf [] c = s.fateOf (linkedIn (s.plan [] before)) c := by
  constructor
  · obtain ⟨t, ht, -⟩ := h.cleanup_execute later
    refine ⟨(CleanupReport.start .execute s.orphans.length).countAll s.fates, t, unownedIn s.fates,
      ?_, ?_⟩
    · rw [cleanup_dryRun, CleanupReport.countAll_start]
    · rw [ht, CleanupReport.countAll_eq]
      rfl
  · intro before c after hsplit
    have hnodup := s.nodup_orphans
    have horphan : ∀ d ∈ s.orphans.map Collection.id, s.Orphan d := fun _ => orphan_of_mem_orphans
    rw [hsplit] at hnodup horphan
    obtain ⟨t, ht, hcarried⟩ := h.treat later (List.Nodup.of_append_left hnodup)
      fun d hd => horphan d (List.mem_append_left _ hd)
    have hc : c ∉ deletedIn (s.plan [] before) := by
      intro hdeleted
      obtain ⟨fate, hfate, -⟩ := mem_deletedIn.1 hdeleted
      have hlisted := List.mem_map_of_mem (f := Prod.fst) hfate
      rw [plan_map_fst] at hlisted
      exact (List.nodup_append.1 hnodup).2.2 c hlisted c List.mem_cons_self rfl
    refine ⟨_, t, congrArg Cleanup.result (ht _), ?_, ?_⟩
    · exact hcarried.fateOf hc (fun a => mem_linkedIn.1) fun a => mem_linkedIn
    · exact hcarried.fateOf hc (fun a ha => absurd ha List.not_mem_nil) fun a => mem_linkedIn

/-- An uncollected collection inside another, both of them left behind by their authorities, and an
author of the work in the outer one, for examples. -/
def leftBehind : List Operation := [
  .createAuthority (.create "first" 0 "First"),
  .refresh 1 (fun _ => "outer") "first",
  .createAuthority (.create "second" 0 "Second"),
  .refresh 2 (fun _ => "inner") "second",
  .createManifestation (.create "work" 0 "Work" Manifestation.published),
  .addItem 3 "nested" "outer" (.collection "inner") .unset,
  .addItem 3 "held" "outer" (.manifestation "work") .unset,
  .deleteAuthority "first",
  .deleteAuthority "second",
  .createAuthority (.create "heir" 0 "Heir"),
  .addInvolvement ⟨"heir", "work", .author, 0⟩]

/-- The outer collection is the older one. -/
theorem orphans_leftBehind (h : Operation.runAll .empty leftBehind = .ok s) :
    s.orphans.map Collection.id = ["outer", "inner"] := by
  obtain ⟨s', hs', hrows, hsorted⟩ : ∃ s, Operation.runAll .empty leftBehind = .ok s ∧
      (s.collections.rows.filter fun row =>
        row.isUncollected && (s.linkedTo? row.id).isNone).map Collection.id = ["outer", "inner"] ∧
      (s.collections.rows.filter fun row =>
        row.isUncollected && (s.linkedTo? row.id).isNone).Pairwise (olderThan · ·) :=
    exists_eq_ok_of_any (by decide +kernel)
  cases h.symm.trans hs'
  rw [orphans, List.mergeSort_of_pairwise hsorted, hrows]

theorem dryRun_predicts_leftBehind : ∃ s, Operation.runAll .empty leftBehind = .ok s ∧
    s.orphans.map Collection.id = ["outer", "inner"] ∧
    (∃ (r : CleanupReport) (t : Store) (unowned : List Unowned),
      s.cleanup 8 .dryRun = ⟨.ok ({ r with mode := .dryRun }, s), unowned⟩ ∧
        s.cleanup 9 .execute = ⟨.ok ({ r with mode := .execute }, t), unowned⟩) ∧
    ∃ r t, (Store.treat .execute 9 s [] (.start .execute s.orphans.length) ["outer"]).result =
        .ok (r, t) ∧
      t.fateOf (linkedIn (s.plan [] ["outer"])) "inner" =
          s.fateOf (linkedIn (s.plan [] ["outer"])) "inner" ∧
        t.fateOf [] "inner" = s.fateOf (linkedIn (s.plan [] ["outer"])) "inner" := by
  obtain ⟨s, hs, -⟩ : ∃ s, Operation.runAll .empty leftBehind = .ok s ∧ True :=
    exists_eq_ok_of_any (by decide +kernel)
  have horphans := orphans_leftBehind hs
  obtain ⟨hreports, hfates⟩ := Reachable.dryRun_predicts (.runAll .empty hs) 8 9
  exact ⟨s, hs, horphans, hreports, hfates ["outer"] "inner" [] horphans⟩

end Store

end Anthology
