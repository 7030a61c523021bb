/-
**What is announced, and what is not.**

Whoever listens to a session learns of its collections and slots from what the service announces.
Each call of the service decides by itself whether and what to announce: most of them announce
whatever they did, some only where they found something to do, and some touch no collection and no
slot.  A call that announces nothing has left the collections and the slots as they were, with two
exceptions.  The repair of all numbers and the cleanup announce nothing, whatever they do; they stay
unseen where they change something, and where they do is said here for both: the repair where a
number is wrong, the cleanup where it deletes an orphan, or links one at or above which a number is
wrong.

Main definitions:

* `Anthology.Store.SameShelves` — the same collections and slots;
* `Anthology.Store.NothingToRepair` — a request that repairs finds nothing to do;
* `Anthology.Session.Told` — nothing happened to collections and slots, or it was announced.

Main results:

* `Anthology.Store.Reachable.cleanup_sameShelves_iff` — which cleanups change something;
* `Anthology.Session.answer_told` — **a call that is no repair announces what it changes**;
* `Anthology.Session.answer_repair` — a repair announces nothing;
* `Anthology.Session.announced_iff` — when a change is announced.
-/

import Anthology.Proofs.Cleanup
import Anthology.Proofs.Completeness
import Anthology.Proofs.Repair
import Anthology.Proofs.Repetition

set_option relaxedAutoImplicit false
set_option autoImplicit false

namespace Anthology

namespace Store

variable {s t u v : Store} {now : Time} {a c : Id} {cs ds linkedNow : List Id}
  {done : List (Id × OrphanFate)} {report r : CleanupReport}

/-! ### The same collections and slots -/

/-- The two stores hold the same collections, with the same numbers, and the same slots. -/
structure SameShelves (s t : Store) : Prop where
  collections : ∀ row, row ∈ t.collections.rows ↔ row ∈ s.collections.rows
  slots : ∀ x, x ∈ t.slots.rows ↔ x ∈ s.slots.rows

theorem SameShelves.of_eq (hcollections : t.collections = s.collections)
    (hslots : t.slots = s.slots) : s.SameShelves t :=
  ⟨fun _ => by rw [hcollections], fun _ => by rw [hslots]⟩

theorem SameShelves.refl (s : Store) : s.SameShelves s := .of_eq rfl rfl

theorem SameShelves.subset (h : s.SameShelves t) :
    ∀ row ∈ s.collections.rows, row ∈ t.collections.rows := fun row => (h.collections row).2

/-- The numbers of the listed collections are right. -/
def RightAt (s : Store) (cs : List Id) : Prop :=
  ∀ row ∈ s.collections.rows, row.id ∈ cs → row.count = s.countBelow row.id

/-- A recount changes something exactly where a number was wrong. -/
theorem sameShelves_recount_iff : s.SameShelves (s.recount now cs) ↔ s.RightAt cs := by
  constructor
  · intro h row hrow hid
    have hafter : s.recountedIn now cs row ∈ (s.recount now cs).collections.rows :=
      List.mem_map_of_mem hrow
    have hsame := Table.eq_of_key_eq ((h.collections _).1 hafter) hrow
      (s.recountedIn_id now cs row)
    rw [recountedIn, if_pos hid] at hsame
    rw [← s.recounted_count now row, hsame]
  · intro h
    rw [recount_eq_self fun row hrow hid => (h row hrow hid).symm]
    exact .refl s

/-! ### Cleanups that change something -/

/-- A recount writes the same where there are the same collections, slots and works. -/
theorem recount_collections_congr (hcollections : t.collections = s.collections)
    (hslots : t.slots = s.slots) (hworks : t.manifestations = s.manifestations) :
    (t.recount now cs).collections = (s.recount now cs).collections := by
  have hcontent : s.SameContent t :=
    ⟨hslots, fun _ => by rw [hasManifestation, hasManifestation, hworks],
      fun _ => by rw [hasCollection, hasCollection, hcollections]⟩
  have hcounts : t.countBelow = s.countBelow :=
    funext (countBelow_congr hcontent (by rw [hcollections]))
  have hrow : t.recountedIn now cs = s.recountedIn now cs := by
    funext row
    rw [recountedIn, recountedIn, recounted, recounted, hcounts]
  refine Table.ext ?_
  rw [recount, recount, Table.rows_update, Table.rows_update, hcollections, hrow]

/-- The store on the way where no orphan was deleted so far: the slots stay, and at the collections
`ds` the numbers were counted anew. -/
structure Linked (s : Store) (now : Time) (ds : List Id) (t : Store) : Prop where
  collections : t.collections = (s.recount now ds).collections
  slots : t.slots = s.slots
  manifestations : t.manifestations = s.manifestations

theorem Linked.refl (s : Store) (now : Time) : Linked s now [] s :=
  ⟨by rw [recount_nil], rfl, rfl⟩

/-- A link is written to the row of an authority. -/
theorem Linked.link (h : Linked s now ds t) (hlink : t.link now a c = .ok u) :
    Linked s now ds u := by
  obtain ⟨v, hset, rfl⟩ := link_eq_ok hlink
  rcases setLink_eq_ok hset with ⟨-, rfl⟩ | ⟨-, -, rfl⟩ <;>
    exact ⟨h.collections, h.slots, h.manifestations⟩

/-- An orphan that is linked is counted anew with the collections above it. -/
theorem Linked.resolve (h : Linked s now ds t) (hresolve : t.resolve now c (.link a) = .ok u) :
    Linked s now (ds ++ s.upward c) u := by
  obtain ⟨v, hlink, hpropagate⟩ := bind_eq_ok.1 hresolve
  obtain ⟨-, rfl⟩ := propagate_eq_ok.1 hpropagate
  have hv := h.link hlink
  refine ⟨?_, hv.slots, hv.manifestations⟩
  rw [upward_congr hv.slots, ← recount_recount]
  exact recount_collections_congr hv.collections hv.slots hv.manifestations

/-- A run that deletes no orphan leaves the slots, and counts anew at and above all of them. -/
theorem Linked.treat (h : Linked s now ds t) (hs : s.Lawful) (hcarried : Carried s now done t)
    (hcs : cs.Nodup) (horphans : ∀ c ∈ cs, t.Orphan c)
    (hnow : ∀ a, a ∈ linkedNow ↔ ∃ d, (d, .link a) ∈ done)
    (hlinks : ∀ d ∈ s.plan linkedNow cs, ∃ a, d.2 = .link a)
    (hrun : (treat .execute now t linkedNow report cs).result = .ok (r, u)) :
    Linked s now (ds ++ cs.flatMap s.upward) u := by
  induction cs generalizing t ds done linkedNow report with
  | nil =>
      cases hrun
      rwa [List.flatMap_nil, List.append_nil]
  | cons c cs ih =>
      obtain ⟨hfresh, hcs⟩ := List.nodup_cons.1 hcs
      have horphan := horphans c List.mem_cons_self
      rw [plan_cons] at hlinks
      obtain ⟨⟨a, (hlink : s.fateOf linkedNow c = .link a)⟩, hlinks⟩ :=
        List.forall_mem_cons.1 hlinks
      have hfate : t.fateOf linkedNow c = s.fateOf linkedNow c :=
        hcarried.fateOf (hcarried.not_deleted horphan.hasCollection)
          (fun b hb => (hnow b).1 hb) hnow
      simp only [Store.treat, resolveIn, hfate] at hrun
      cases hresolve : t.resolve now c (s.fateOf linkedNow c) with
      | error f =>
          rw [hresolve] at hrun
          cases hrun
      | ok v =>
          rw [hresolve] at hrun
          have hothers : ∀ d ∈ cs, v.Orphan d := by
            intro d hd
            have hne : d ≠ c := by
              rintro rfl
              exact hfresh hd
            exact (horphans d (List.mem_cons_of_mem c hd)).resolve hne hresolve
          have hnext := hcarried.resolve horphan (fun b hb => hcarried.of_link hs hnow hb) hresolve
          rw [hlink] at hresolve
          rw [List.flatMap_cons, ← List.append_assoc]
          exact ih (h.resolve hresolve) hnext hcs hothers (mem_linkedNow_snoc hnow) hlinks hrun

/-- The cleanup deletes no orphan, and links none at or above which a number is wrong. -/
def NothingToClean (s : Store) : Prop :=
  ∀ c fate, (c, fate) ∈ s.fates → (∃ a, fate = .link a) ∧ s.RightAt (s.upward c)

/-- **Which cleanups change something.** -/
theorem Reachable.cleanup_sameShelves_iff [Arithmetic] (h : s.Reachable)
    (hrun : (s.cleanup now .execute).result = .ok (r, t)) :
    s.SameShelves t ↔ s.NothingToClean := by
  obtain ⟨u, hexecute, hcarried⟩ := h.cleanup_execute now
  have hresult := congrArg Cleanup.result hexecute
  rw [hrun] at hresult
  obtain ⟨-, rfl⟩ := Prod.mk.inj (Except.ok.inj hresult)
  have hlinked : (∀ d ∈ s.fates, ∃ a, d.2 = .link a) →
      Linked s now ((s.orphans.map Collection.id).flatMap s.upward) t := by
    intro hlinks
    have hall := (Linked.refl s now).treat h.lawful (.refl s now) s.nodup_orphans
      (fun c hc => orphan_of_mem_orphans hc) (by simp) hlinks hrun
    rwa [List.nil_append] at hall
  constructor
  · intro hsame
    have hlinks : ∀ d ∈ s.fates, ∃ a, d.2 = .link a := by
      rintro ⟨c, fate⟩ hfate
      cases hfree : fate.linked? with
      | some a => exact ⟨a, linked?_eq_some.1 hfree⟩
      | none =>
          -- an orphan that is deleted is not there afterwards
          obtain ⟨row, hrow, -⟩ := (orphan_of_mem_fates hfate).row
          obtain ⟨hmem, rfl⟩ := collection?_eq_some.1 hrow
          have hthere := hasCollection_iff.2 ⟨row, (hsame.collections row).2 hmem, rfl⟩
          exact absurd (mem_deletedIn.2 ⟨fate, hfate, hfree⟩) (hcarried.not_deleted hthere)
    have hrecount :
        s.SameShelves (s.recount now ((s.orphans.map Collection.id).flatMap s.upward)) :=
      ⟨fun row => by rw [← (hlinked hlinks).collections, hsame.collections], fun _ => .rfl⟩
    intro c fate hfate
    refine ⟨hlinks _ hfate, ?_⟩
    intro row hrow hid
    refine sameShelves_recount_iff.1 hrecount row hrow ?_
    have hlisted := List.mem_map_of_mem (f := Prod.fst) hfate
    rw [fates_map_fst] at hlisted
    exact List.mem_flatMap_of_mem hlisted hid
  · intro hnothing
    have hfinal : Linked s now ((s.orphans.map Collection.id).flatMap s.upward) t := by
      refine hlinked ?_
      rintro ⟨c, fate⟩ hfate
      exact (hnothing c fate hfate).1
    have hright : s.RightAt ((s.orphans.map Collection.id).flatMap s.upward) := by
      intro row hrow hid
      obtain ⟨c, hc, hid⟩ := List.mem_flatMap.1 hid
      obtain ⟨fate, hfate⟩ := exists_fate (orphan_of_mem_orphans hc)
      exact (hnothing c fate hfate).2 row hrow hid
    refine .of_eq ?_ hfinal.slots
    rw [hfinal.collections, recount_eq_self fun row hrow hid => (hright row hrow hid).symm]

/-- A request that repairs, in a store where it finds nothing to do. -/
def NothingToRepair (s : Store) : Request → Prop
  | .recalculateAll => s.Cached s.countBelow
  | .cleanup .execute => s.NothingToClean
  | _ => True

end Store

/-! ### Calls that tell what they did -/

namespace Session

open Store

variable {n m k : Session} {now : Time} {r : Request} {reply : Reply}

/-- Nothing happened to the collections and slots, or something was announced. -/
def Told (n m : Session) : Prop :=
  n.store.SameShelves m.store ∨ n.announced.length < m.announced.length

theorem Told.refl (n : Session) : n.Told n := .inl (.refl n.store)

theorem Told.of_announced (h : k.announced = n.announced) (e : Event) : n.Told (k.announce e) :=
  .inr (by simp [announce, h])

/-- What comes after is told if there was something to announce, or nothing happened before. -/
theorem Told.announceAll {es : List Event} (h : k.announced = n.announced)
    (hes : es ≠ [] ∨ n.store.SameShelves k.store) : n.Told (k.announceAll es) := by
  rcases hes with hes | hsame
  · refine .inr ?_
    have hpositive := List.length_pos_of_ne_nil hes
    rw [announceAll_announced, h, List.length_append, List.length_reverse]
    omega
  · refine .inl ?_
    rwa [announceAll_store]

/-- An edit that writes neither collections nor slots has nothing to tell. -/
theorem Told.of_edit {α : Type} {ids : α → ℕ} {f : Store → Except Fault (α × Store)} {x : α}
    (h : n.edit ids f = .ok (x, m))
    (hf : ∀ t, f n.store = .ok (x, t) →
      t.collections = n.store.collections ∧ t.slots = n.store.slots) : n.Told m := by
  obtain ⟨hcollections, hslots⟩ := hf _ (edit_run h)
  exact .inl (.of_eq hcollections hslots)

/-! ### Collections and slots -/

theorem createCollection_told {d : CollectionDraft} (h : n.createCollection d = .ok (reply, m)) :
    n.Told m := by
  simp only [createCollection, bind_eq_ok, Prod.exists, pure_eq_ok, Prod.mk.injEq] at h
  obtain ⟨_, -, _, -, _, k, hedit, -, rfl⟩ := h
  exact .of_announced (edit_announced hedit) _

theorem updateCollection_told {d : CollectionDraft} (h : n.updateCollection d = .ok (reply, m)) :
    n.Told m := by
  simp only [updateCollection, bind_eq_ok, Prod.exists, pure_eq_ok, Prod.mk.injEq] at h
  obtain ⟨_, -, _, k, hedit, -, rfl⟩ := h
  exact .of_announced (edit_announced hedit) _

theorem deleteCollection_told {id : Id} (h : n.deleteCollection id = .ok (reply, m)) :
    n.Told m := by
  simp only [deleteCollection, bind_eq_ok, Prod.exists, pure_eq_ok, Prod.mk.injEq] at h
  obtain ⟨_, k, hedit, -, rfl⟩ := h
  refine .announceAll (edit_announced hedit) ?_
  rcases deleteCollection_eq_ok (edit_run hedit) with ⟨-, -, hsame⟩ | ⟨-, rfl, -⟩
  · exact .inr (hsame ▸ .refl _)
  · exact .inl (List.cons_ne_nil _ _)

theorem editSlot_told {ids : ℕ} {f : Store → Except Fault (Slot × Store)}
    (h : n.editSlot ids f = .ok (reply, m)) : n.Told m := by
  simp only [editSlot, bind_eq_ok, Prod.exists, pure_eq_ok, Prod.mk.injEq] at h
  obtain ⟨_, k, hedit, -, rfl⟩ := h
  exact .of_announced (edit_announced hedit) _

theorem removeItem_told {id : Id} (h : n.removeItem id = .ok (reply, m)) : n.Told m := by
  obtain ⟨found, -, h⟩ := bind_eq_ok.1 h
  cases found with
  | none =>
      cases pure_eq_ok.1 h
      exact .refl n
  | some slot =>
      simp only [bind_eq_ok, Prod.exists, pure_eq_ok, Prod.mk.injEq] at h
      obtain ⟨_, k, hedit, -, rfl⟩ := h
      refine .announceAll (edit_announced hedit) ?_
      rcases removeItem_eq_ok (edit_run hedit) with ⟨-, -, hsame⟩ | ⟨_, _, -, rfl, -⟩
      · exact .inr (hsame ▸ .refl _)
      · exact .inl (List.cons_ne_nil _ _)

/-- A new order is announced, unless it is the old one. -/
theorem editOrder_told {c : Id} {announced : Bool} {f : Store → Except Fault (List Slot × Store)}
    (hf : announced = false → ∀ xs t, f n.store = .ok (xs, t) → t = n.store)
    (h : n.editOrder c announced f = .ok (reply, m)) : n.Told m := by
  simp only [editOrder, bind_eq_ok, Prod.exists, pure_eq_ok, Prod.mk.injEq] at h
  obtain ⟨_, k, hedit, -, rfl⟩ := h
  refine .announceAll (edit_announced hedit) ?_
  cases announced with
  | false => exact .inr (hf rfl _ _ (edit_run hedit) ▸ .refl _)
  | true => exact .inl (List.cons_ne_nil _ _)

theorem transplant_told [Arithmetic] {item dest : Id} {rank : Int}
    (h : n.transplant item dest rank = .ok (reply, m)) : n.Told m := by
  simp only [transplant, bind_eq_ok, Prod.exists, pure_eq_ok, Prod.mk.injEq] at h
  obtain ⟨_, -, _, k, hedit, -, rfl⟩ := h
  exact .of_announced (edit_announced hedit) _

theorem editPlaced_told {parent : Id} {f : Store → Except Fault (Placed × Store)}
    (h : n.editPlaced parent f = .ok (reply, m)) : n.Told m := by
  simp only [editPlaced, bind_eq_ok, Prod.exists, pure_eq_ok, Prod.mk.injEq] at h
  obtain ⟨_, k, hedit, -, rfl⟩ := h
  exact .announceAll (edit_announced hedit) (.inl (List.cons_ne_nil _ _))

theorem createPeriodicalWithIssue_told [Arithmetic] {title issueTitle : String}
    (h : n.createPeriodicalWithIssue title issueTitle = .ok (reply, m)) : n.Told m := by
  simp only [createPeriodicalWithIssue, bind_eq_ok, Prod.exists, pure_eq_ok, Prod.mk.injEq] at h
  obtain ⟨_, -, _, k, hedit, -, rfl⟩ := h
  exact .announceAll (edit_announced hedit) (.inl (List.cons_ne_nil _ _))

theorem recalculate_told {c : Id} (h : n.recalculate c = .ok (reply, m)) : n.Told m := by
  simp only [recalculate, bind_eq_ok, Prod.exists, pure_eq_ok, Prod.mk.injEq] at h
  obtain ⟨_, k, hedit, -, rfl⟩ := h
  exact .of_announced ((logAll_announced ..).trans (edit_announced hedit)) _

/-! ### Works, authorities and upkeep -/

theorem createManifestation_told {d : ManifestationDraft}
    (h : n.createManifestation d = .ok (reply, m)) : n.Told m := by
  simp only [createManifestation, bind_eq_ok, Prod.exists, pure_eq_ok, Prod.mk.injEq] at h
  obtain ⟨_, -, _, k, hedit, -, rfl⟩ := h
  obtain ⟨-, -, t, -, hstore⟩ := putManifestation_eq_ok.1 (edit_run_unit hedit)
  refine .inl ?_
  rw [hstore]
  exact .of_eq rfl rfl

theorem updateManifestation_told {d : ManifestationDraft}
    (h : n.updateManifestation d = (.ok reply, m)) : n.Told m := by
  unfold updateManifestation at h
  split at h
  · cases h
  · rename_i k hwrite
    obtain ⟨-, hedit⟩ := writeManifestation_eq_ok hwrite
    split at h <;> cases h
    refine .announceAll (edit_announced hedit) (.inr ?_)
    rw [updateManifestation_eq_ok (edit_run_unit hedit)]
    exact .of_eq rfl rfl

theorem createAuthority_told {d : AuthorityDraft} (h : n.createAuthority d = .ok (reply, m)) :
    n.Told m := by
  simp only [createAuthority, bind_eq_ok, Prod.exists, pure_eq_ok, Prod.mk.injEq] at h
  obtain ⟨_, -, _, k, hedit, -, rfl⟩ := h
  obtain ⟨-, -, -, t, -, hstore⟩ := putAuthority_eq_ok.1 (edit_run_unit hedit)
  refine .inl ?_
  rw [hstore]
  exact .of_eq rfl rfl

theorem addInvolvement_told {a w : Id} {role : Role}
    (h : n.addInvolvement a w role false = .ok (reply, m)) : n.Told m := by
  simp only [addInvolvement, bind_eq_ok, Prod.exists, pure_eq_ok, Prod.mk.injEq] at h
  obtain ⟨_, k, hedit, -, rfl⟩ := h
  exact .announceAll (edit_announced hedit) (.inl (List.cons_ne_nil _ _))

theorem removeInvolvement_told {a w : Id} {role : Role}
    (h : n.removeInvolvement a w role false = .ok (reply, m)) : n.Told m := by
  simp only [removeInvolvement, bind_eq_ok, Prod.exists, pure_eq_ok, Prod.mk.injEq] at h
  obtain ⟨_, k, hedit, -, rfl⟩ := h
  refine .announceAll (edit_announced hedit) (.inr ?_)
  have hrun := Except.ok.inj (edit_run hedit)
  unfold Store.removeInvolvement at hrun
  split at hrun <;>
  · rw [← (Prod.mk.inj hrun).2]
    exact .of_eq rfl rfl

theorem refresh_told [Arithmetic] {a : Id} (h : n.refresh a = .ok (reply, m)) : n.Told m := by
  simp only [refresh, bind_eq_ok, pure_eq_ok, Prod.mk.injEq] at h
  obtain ⟨o, -, -, rfl⟩ := h
  obtain ⟨answer, store, ids, hattempt⟩ := n.exists_refreshOnce a
  exact .of_announced (by rw [hattempt]) _

/-- What was announced stays announced. -/
theorem carryOut_announced [Arithmetic] {α : Type} (n : Session) (r : Routine α) :
    ∃ es, (n.carryOut r).2.announced = es ++ n.announced := by
  induction r generalizing n with
  | done a => exact ⟨[], rfl⟩
  | attempt id next ih =>
      obtain ⟨answer, store, ids, hattempt⟩ := n.exists_refreshOnce id
      rw [carryOut_attempt, hattempt]
      split
      · exact ⟨[], rfl⟩
      · exact ih answer { n with store, ids }
  | pause span next ih => exact ih n.cancelled n
  | unlessCancelled next ih => exact ih n.cancelled n
  | announce e next ih =>
      obtain ⟨es, hes⟩ := ih (n.announce e)
      exact ⟨es ++ [e], hes.trans (by rw [List.append_assoc]; rfl)⟩
  | report entry next ih => exact ih (n.log entry)

theorem respond_announced [Arithmetic] (n : Session) (as : List Id) :
    ∃ es, (n.respond as).announced = es ++ n.announced := by
  induction as generalizing n with
  | nil => exact ⟨[], rfl⟩
  | cons a as ih =>
      cases hhalted : n.halted with
      | true =>
          rw [respond_halted hhalted]
          exact ⟨[], rfl⟩
      | false =>
          obtain ⟨before, hbefore⟩ := n.carryOut_announced (n.settings.maintainer.retry a)
          obtain ⟨after, hafter⟩ := ih (n.attend a)
          refine ⟨after ++ before, ?_⟩
          rw [respond_cons hhalted, List.append_assoc, ← hbefore]
          exact hafter

/-- The upkeep announces each refresh that does not break off, however it ended. -/
theorem retryEach_told [Arithmetic] {μ : Maintainer} {as : List Id} {os : List RefreshOutcome}
    (h : n.carryOut (μ.retryEach as) = (some os, m)) : n.Told m := by
  cases as with
  | nil =>
      cases h
      exact .refl n
  | cons a as =>
      by_cases hcancelled : n.cancelled = true
      · rw [Maintainer.retryEach, carryOut, hcancelled] at h
        cases h
        exact .refl n
      · rw [carryOut_retryEach_cons (Bool.eq_false_iff.2 hcancelled)] at h
        rcases n.carryOut_retry_announced μ a with ⟨hnone, -⟩ | ⟨hsome, e, -, hfirst⟩
        · rw [hnone] at h
          cases h
        · obtain ⟨answer, hanswer⟩ := Option.isSome_iff_exists.1 hsome
          obtain ⟨es, hrest⟩ := (n.carryOut (μ.retry a)).2.carryOut_announced (μ.retryEach as)
          rw [hanswer] at h
          cases congrArg Prod.snd h
          refine .inr ?_
          show n.announced.length < ((n.carryOut (μ.retry a)).2.carryOut _).2.announced.length
          rw [hrest, hfirst, List.length_append, List.length_cons]
          omega

end Session

/-! ### Calls of the service -/

/-- The requests that repair what they find wrong, wherever it is. -/
def Request.repairs : Request → Bool
  | recalculateAll | cleanup _ => true
  | _ => false

namespace Session

open Store

variable {n m : Session} {now : Time} {r : Request} {reply : Reply}

/-- **A call that is no repair announces what it changes.** -/
theorem answer_told [Arithmetic] (hcall : r.isServiceCall = true) (hrepairs : r.repairs = false)
    (h : n.answer r = (.ok reply, m)) : n.Told m := by
  have hlook : ∀ g : Store → Except Fault Reply, n.look g = (.ok reply, m) → n.Told m := by
    intro g hg
    cases (Prod.ext_iff.1 hg).2
    exact .refl n
  cases r
  case createCollection d => exact createCollection_told (settle_eq_ok.1 h)
  case updateCollection d => exact updateCollection_told (settle_eq_ok.1 h)
  case deleteCollection id => exact deleteCollection_told (settle_eq_ok.1 h)
  case addItem | updateItem | retargetItem => exact editSlot_told (settle_eq_ok.1 h)
  case removeItem id => exact removeItem_told (settle_eq_ok.1 h)
  case reorder c id old new =>
      refine editOrder_told ?_ (settle_eq_ok.1 h)
      intro hplace xs t ht
      rw [bne_eq_false_iff_eq] at hplace
      subst hplace
      exact reorder_same ht
  case moveItem =>
      exact editOrder_told (fun hnever => absurd hnever Bool.noConfusion) (settle_eq_ok.1 h)
  case transplant => exact transplant_told (settle_eq_ok.1 h)
  case addPeriodicalIssue => exact editPlaced_told (settle_eq_ok.1 h)
  case createSubCollection =>
      obtain ⟨_, -, hplaced⟩ := bind_eq_ok.1 (settle_eq_ok.1 h)
      exact editPlaced_told hplaced
  case createPeriodicalWithIssue => exact createPeriodicalWithIssue_told (settle_eq_ok.1 h)
  case recalculate => exact recalculate_told (settle_eq_ok.1 h)
  case createManifestation => exact createManifestation_told (settle_eq_ok.1 h)
  case updateManifestation => exact updateManifestation_told h
  case createAuthority => exact createAuthority_told (settle_eq_ok.1 h)
  case addInvolvement => exact addInvolvement_told (settle_eq_ok.1 h)
  case removeInvolvement => exact removeInvolvement_told (settle_eq_ok.1 h)
  case refresh => exact refresh_told (settle_eq_ok.1 h)
  case refreshMany as =>
      obtain ⟨os, -, hcarried⟩ := answer_refreshMany_ok h
      exact retryEach_told hcarried
  case notify | startWorker | shutdown =>
      cases h
      exact .inl (.refl _)
  case recalculateAll | cleanup => cases hrepairs
  -- the calls that read, and the requests that the service does not answer
  all_goals first | exact hlook _ h | cases hcall

theorem cleanup_eq_ok {mode : CleanupMode} (h : n.cleanup mode = (.ok reply, m)) :
    m.announced = n.announced ∧
      ∃ report, (n.store.cleanup n.now mode).result = .ok (report, m.store) := by
  unfold cleanup at h
  split at h
  · cases h
  · dsimp only at h
    split at h
    · cases h
    · rename_i report t hrun
      cases h
      exact ⟨logAll_announced .., report, hrun⟩

/-- **A repair announces nothing**, and changes something unless there is nothing to repair. -/
theorem answer_repair [Arithmetic] (hs : n.store.Reachable) (hrepairs : r.repairs = true)
    (h : n.answer r = (.ok reply, m)) :
    m.announced = n.announced ∧ (n.store.SameShelves m.store ↔ n.store.NothingToRepair r) := by
  cases r
  case recalculateAll =>
      have hdone := settle_eq_ok.1 h
      simp only [recalculateAll, bind_eq_ok, Prod.exists, pure_eq_ok, Prod.mk.injEq] at hdone
      obtain ⟨_, _, k, hedit, -, rfl⟩ := hdone
      refine ⟨(logAll_announced ..).trans (edit_announced hedit), ?_⟩
      have hrun := edit_run hedit
      rw [recalculateAll_eq] at hrun
      obtain ⟨-, hstore⟩ := Prod.mk.inj (Except.ok.inj hrun)
      rw [logAll_store, ← hstore, sameShelves_recount_iff]
      have hall : ∀ row ∈ n.store.collections.rows, row.id ∈ n.store.collectionIds :=
        fun row hrow => mem_collectionIds.2 (hasCollection_iff.2 ⟨row, hrow, rfl⟩)
      refine forall₂_congr ?_
      intro row hrow
      exact ⟨fun hright => hright (hall row hrow), fun hright _ => hright⟩
  case cleanup mode =>
      obtain ⟨hannounced, report, hrun⟩ := cleanup_eq_ok h
      refine ⟨hannounced, ?_⟩
      cases mode with
      | execute => exact hs.cleanup_sameShelves_iff hrun
      | dryRun =>
          rw [treat_dryRun hrun]
          exact iff_of_true (.refl _) trivial
  all_goals cases hrepairs

/-! ### With the upkeep in the background -/

/-- The upkeep in the background does nothing where nothing was announced. -/
theorem followed_of_silent [Arithmetic] (h : m.announced = []) : m.followed = m := by
  rw [followed, h]
  split <;> rfl

/-- What was announced is still there when the upkeep in the background has followed. -/
theorem followed_announced [Arithmetic] (h : m.announced ≠ []) : m.followed.announced ≠ [] := by
  unfold followed
  split
  · obtain ⟨es, hes⟩ := m.respond_announced (m.announced.reverse.filterMap Event.involvement?)
    rw [hes]
    exact List.append_ne_nil_of_right_ne_nil es h
  · exact h

/-- **When a change is announced.**  A call of the service that succeeds and changes collections or
slots announces something, unless it is a repair that finds something to do. -/
theorem announced_iff [Arithmetic] (hs : n.store.Reachable) (hcall : r.isServiceCall = true)
    (hok : (n.step now r).1.answer = .ok reply) :
    (¬ n.store.SameShelves (n.step now r).2.store → (n.step now r).1.events ≠ []) ↔
      n.store.NothingToRepair r := by
  rcases hanswer : (n.atTime now).answer r with ⟨answered, m⟩
  rw [step_eq hanswer] at hok ⊢
  obtain rfl : answered = .ok reply := hok
  rw [Ne, List.reverse_eq_nil_iff]
  cases hrepairs : r.repairs with
  | true =>
      have hstart : (n.atTime now).store.Reachable := hs
      obtain ⟨hsilent, hsame⟩ := answer_repair hstart hrepairs hanswer
      have hsilent : m.announced = [] := hsilent
      have hsame : n.store.SameShelves m.store ↔ n.store.NothingToRepair r := hsame
      rw [followed_of_silent hsilent, hsilent, ← hsame]
      simp
  | false =>
      have hnothing : n.store.NothingToRepair r := by
        cases r
        case recalculateAll | cleanup => cases hrepairs
        all_goals trivial
      refine iff_of_true ?_ hnothing
      intro hchanged hnone
      by_cases hsilent : m.announced = []
      · rw [followed_of_silent hsilent] at hchanged
        rcases answer_told hcall hrepairs hanswer with hsame | htold
        · exact hchanged hsame
        · rw [hsilent] at htold
          exact absurd htold (Nat.not_lt_zero _)
      · exact followed_announced hsilent hnone

/-- A collection that is deleted is gone, and that is announced. -/
theorem announced_iff_deleted : ∃ reply,
    (shelved.step 2 (.deleteCollection "shelf")).1.answer = .ok reply ∧
    ¬ shelved.store.SameShelves (shelved.step 2 (.deleteCollection "shelf")).2.store ∧
    (shelved.step 2 (.deleteCollection "shelf")).1.events ≠ [] := by
  have hok : (shelved.step 2 (.deleteCollection "shelf")).1.answer.isOk = true := by decide +kernel
  obtain ⟨reply, hreply⟩ := exists_eq_ok_of_isOk hok
  have hreachable : shelved.store.Reachable :=
    stepAll_reachable (.empty : trial.store.Reachable) 1 (by decide)
  have hchanged : ¬ shelved.store.SameShelves
      (shelved.step 2 (.deleteCollection "shelf")).2.store :=
    fun hsame => absurd hsame.subset (by decide +kernel)
  exact ⟨reply, hreply, hchanged, (announced_iff hreachable rfl hreply).2 trivial hchanged⟩

/-- A collection that comes with a number that it does not hold, for examples. -/
def misnumbered : List (Time × Request) :=
  [(1, .createCollection { CollectionDraft.titled "shelf" "Shelf" with count := 5 })]

/-- A collection that its authority left behind, for examples. -/
def abandoned : List (Time × Request) := [
  (1, .createAuthority (.named "author" "Author")),
  (2, .refresh "author"),
  (3, .deleteAuthority "author")]

theorem stepEach_reachable [Arithmetic] (h : n.store.Reachable) {calls : List (Time × Request)}
    (hcalls : ∀ call ∈ calls, call.2.forces = false) : (n.stepEach calls).store.Reachable := by
  induction calls generalizing n with
  | nil => exact h
  | cons call calls ih =>
      obtain ⟨hcall, hcalls⟩ := List.forall_mem_cons.1 hcalls
      refine ih (stepAll_reachable h call.1 ?_) hcalls
      simpa using hcall

/-- **Repairs that change something are not announced**: one that puts a number right, and one that
deletes an orphan. -/
theorem repairs_unannounced : ∃ n k : Session, n.store.Reachable ∧ k.store.Reachable ∧
    ((∃ reply, (n.step 9 .recalculateAll).1.answer = .ok reply) ∧
      ¬ n.store.SameShelves (n.step 9 .recalculateAll).2.store ∧
      (n.step 9 .recalculateAll).1.events = []) ∧
    (∃ reply, (k.step 9 (.cleanup .execute)).1.answer = .ok reply) ∧
      ¬ k.store.SameShelves (k.step 9 (.cleanup .execute)).2.store ∧
      (k.step 9 (.cleanup .execute)).1.events = [] := by
  refine ⟨trial.stepEach misnumbered, trial.stepEach abandoned,
    stepEach_reachable .empty (by decide), stepEach_reachable .empty (by decide),
    ⟨?_, ?_, ?_⟩, ?_, ?_, ?_⟩
  · exact exists_eq_ok_of_isOk (by decide +kernel)
  · exact fun hsame => absurd hsame.subset (by decide +kernel)
  · exact List.isEmpty_iff.1 (by decide +kernel)
  · exact exists_eq_ok_of_isOk (by decide +kernel)
  · exact fun hsame => absurd hsame.subset (by decide +kernel)
  · exact List.isEmpty_iff.1 (by decide +kernel)

end Session

end Anthology
