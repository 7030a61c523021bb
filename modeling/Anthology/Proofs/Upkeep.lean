/-
**Upkeep that nothing stops.**

Where a session can be written to, the upkeep was not cancelled and the ids serve, one attempt is
enough for a refresh.  An authority that is there is refreshed where there are numbers for what the
refresh adds.  For one that is not there the upkeep gives up at once, and nothing happens.  Where
the numbers run out it gives up or breaks off, and takes nothing but ids.  In each case the session
stays as fit for the next refresh as it was.  What the upkeep does and writes does not depend on
what was announced and logged before; it announces how each refresh ended that did not break off,
and nothing else.

Main definitions:

* `Anthology.Session.Ready` — nothing stops the upkeep;
* `Anthology.Session.core` — a session without what it announced and logged;
* `Anthology.Session.RefreshedTo` — what a refresh makes of a session;
* `Anthology.Session.Retried` — how a refresh ends in the background.

Main results:

* `Anthology.Session.carryOut_core` — the upkeep does not read announcements;
* `Anthology.Session.Ready.retry_known`, `Anthology.Session.Ready.retry_unknown`,
  `Anthology.Session.Ready.retry_cramped` — **one attempt is enough**;
* `Anthology.Session.Ready.retried` — the store decides how a refresh ends;
* `Anthology.Session.carryOut_retry_announced` — the upkeep announces how a refresh ended.
-/

import Anthology.Proofs.Atomic
import Anthology.Proofs.Independence

set_option relaxedAutoImplicit false
set_option autoImplicit false

namespace Anthology

/-! ### Ids -/

namespace IdSupply

variable {i : IdSupply}

theorem id_take (i : IdSupply) (n : ℕ) : (i.take n).id = fun k => i.id (n + k) := by
  funext k
  simp only [id, take, Nat.add_assoc]

/-- A number with zeros before it. -/
theorem toList_digits (n : ℕ) : (digits n).toList =
    List.replicate (4 - (toString n).length) '0' ++ Nat.toDigits 10 n := by
  rw [digits, String.toList_append, String.toList_ofList, Nat.toString_eq_ofList_toDigits,
    String.toList_ofList]

theorem ofDigitChars_zeros (k : ℕ) (cs : List Char) :
    Nat.ofDigitChars 10 (List.replicate k '0' ++ cs) 0 = Nat.ofDigitChars 10 cs 0 := by
  induction k with
  | zero => rfl
  | succ k ih =>
      rw [List.replicate_succ, List.cons_append, Nat.ofDigitChars_cons]
      exact ih

/-- A number can be read from its digits. -/
theorem digits_injective : Function.Injective digits := by
  have hread : ∀ n, Nat.ofDigitChars 10 (digits n).toList 0 = n := by
    intro n
    rw [toList_digits, ofDigitChars_zeros]
    exact Nat.ofDigitChars_ten_toDigits
  intro m n h
  rw [← hread m, h, hread n]

/-- Ids that are counted up are never given twice. -/
theorem id_injective (h : i.descending = false) : Function.Injective i.id := by
  intro j k hjk
  simp only [id, h, Bool.false_eq_true, if_false] at hjk
  have hdigits := digits_injective (String.append_right_inj _ |>.1 hjk)
  omega

theorem isBlank_id (i : IdSupply) (k : ℕ) : Text.isBlank (i.id k) = false := by
  have hletter : Text.isSpace 'u' = false := by decide
  simp [id, Text.isBlank, hletter]

/-- No id consists of the letter x. -/
theorem lettered_ne_id (i : IdSupply) (j k : ℕ) : Store.lettered 'x' j ≠ i.id k := by
  intro h
  have hfirst := congrArg (fun s : String => s.toList.head?) h
  simp [Store.lettered, id, List.replicate_succ] at hfirst

end IdSupply

namespace Session

open Store

variable {n m k : Session} {a : Authority} {id : Id} {now : Time} {μ : Maintainer}

/-! ### Announcements are not read -/

/-- A session without what it announced and logged. -/
def core (n : Session) : Session := { n with announced := [], logged := [] }

@[simp] theorem core_announceAll (n : Session) (es : List Event) :
    (n.announceAll es).core = n.core := by
  induction es generalizing n with
  | nil => rfl
  | cons e es ih => exact ih (n.announce e)

theorem store_of_core (h : n.core = m.core) : n.store = m.store := by
  have hstore : n.core.store = m.core.store := by rw [h]
  exact hstore

theorem cancelled_of_core (h : n.core = m.core) : n.cancelled = m.cancelled := by
  have hcancelled : n.core.cancelled = m.core.cancelled := by rw [h]
  exact hcancelled

theorem runs_of_core (h : n.core = m.core) : n.upkeepRuns = m.upkeepRuns := by
  have hruns : n.core.upkeepRuns = m.core.upkeepRuns := by rw [h]
  exact hruns

theorem writable_of_core (h : n.core = m.core) : n.writable = m.writable := by
  have hwritable : n.core.writable = m.core.writable := by rw [h]
  exact hwritable

theorem refreshOnce_core [Arithmetic] (n : Session) (id : Id) :
    n.core.refreshOnce id = ((n.refreshOnce id).1, (n.refreshOnce id).2.core) := by
  by_cases hclosed : n.closed = true
  · simp [refreshOnce, core, hclosed]
  by_cases hlocked : n.locked = true
  · simp [refreshOnce, core, hclosed, hlocked]
  cases hrefresh : n.store.refresh n.now n.ids.id id <;>
    simp [refreshOnce, core, hclosed, hlocked, hrefresh]

/-- **The upkeep does not read what was announced and logged**, so it does the same without. -/
theorem carryOut_core [Arithmetic] {α : Type} (r : Routine α) (h : n.core = m.core) :
    (n.carryOut r).1 = (m.carryOut r).1 ∧ (n.carryOut r).2.core = (m.carryOut r).2.core := by
  induction r generalizing n m with
  | done a => exact ⟨rfl, h⟩
  | attempt id next ih =>
      have hn := n.refreshOnce_core id
      rw [h, m.refreshOnce_core id] at hn
      obtain ⟨hanswer, hcore⟩ := Prod.ext_iff.1 hn
      rw [carryOut_attempt, carryOut_attempt,
        show (n.refreshOnce id).1 = (m.refreshOnce id).1 from hanswer.symm]
      split
      · exact ⟨rfl, hcore.symm⟩
      · exact ih _ hcore.symm
  | pause span next ih =>
      rw [carryOut, carryOut, cancelled_of_core h]
      exact ih _ h
  | unlessCancelled next ih =>
      rw [carryOut, carryOut, cancelled_of_core h]
      exact ih _ h
  | announce e next ih => exact ih h
  | report entry next ih => exact ih h

/-- One routine after another begins where the first one ended, if that did not break off. -/
theorem carryOut_andThen [Arithmetic] {α β : Type} (n : Session) (r : Routine α)
    (next : α → Routine β) : n.carryOut (r.andThen next) =
      (n.carryOut r).1.elim (none, (n.carryOut r).2) fun a =>
        (n.carryOut r).2.carryOut (next a) := by
  induction r generalizing n with
  | done a => rfl
  | attempt id after ih =>
      rw [Routine.andThen, carryOut_attempt, carryOut_attempt]
      split
      · rfl
      · exact ih _ _
  | pause span after ih => exact ih _ _
  | unlessCancelled after ih => exact ih _ _
  | announce e after ih => exact ih _
  | report entry after ih => exact ih _

/-- An attempt writes nothing but the store, and gives out ids. -/
theorem exists_refreshOnce [Arithmetic] (n : Session) (id : Id) : ∃ answer store ids,
    n.refreshOnce id = (answer, { n with store, ids }) := by
  unfold refreshOnce
  split
  · exact ⟨_, _, _, rfl⟩
  · split
    · exact ⟨_, _, _, rfl⟩
    · dsimp only
      split <;> exact ⟨_, _, _, rfl⟩

/-- The upkeep neither starts nor cancels itself. -/
theorem carryOut_started [Arithmetic] {α : Type} (n : Session) (r : Routine α) :
    (n.carryOut r).2.started = n.started ∧ (n.carryOut r).2.cancelled = n.cancelled := by
  induction r generalizing n with
  | done a => exact ⟨rfl, rfl⟩
  | attempt id next ih =>
      obtain ⟨answer, store, ids, hattempt⟩ := n.exists_refreshOnce id
      rw [carryOut_attempt, hattempt]
      split
      · exact ⟨rfl, rfl⟩
      · exact ih answer { n with store, ids }
  | pause span next ih => exact ih _ _
  | unlessCancelled next ih => exact ih _ _
  | announce e next ih => exact ih (n.announce e)
  | report entry next ih => exact ih (n.log entry)

/-! ### One attempt is enough -/

/-- Nothing stops the upkeep: the session can be written to, the upkeep was not cancelled, and the
ids serve. -/
structure Ready [Arithmetic] (n : Session) : Prop where
  reached : n.store.ReachedGiving fun id => Text.isBlank id = false
  fresh : n.store.FreshIds n.ids.id
  opened : n.closed = false
  unlocked : n.locked = false
  going : n.cancelled = false

theorem Ready.of_core [Arithmetic] (h : n.Ready) (hcore : n.core = m.core) : m.Ready := by
  simp only [core, Session.mk.injEq] at hcore
  obtain ⟨-, -, hstore, hids, -, hlocked, hclosed, -, hcancelled, -⟩ := hcore
  exact ⟨hstore ▸ h.reached, hstore ▸ hids ▸ h.fresh, hclosed ▸ h.opened, hlocked ▸ h.unlocked,
    hcancelled ▸ h.going⟩

theorem Ready.lawful [Arithmetic] (h : n.Ready) : n.store.Lawful := h.reached.reachable.lawful

/-- The session `m` is `n` after a refresh of the authority `a` with the report `o`. -/
structure RefreshedTo [Arithmetic] (n : Session) (a : Authority) (o : RefreshOutcome)
    (m : Session) : Prop where
  ready : m.Ready
  outcome : o.authority = a.id
  /-- What was due was done. -/
  renewal : m.store.renewal o = n.store.due a
  filled : Filled n.store a o.collection m.store
  row : m.store.authority? a.id = some (linkedRow n.now o.collection a)
  /-- No authority comes or goes, and the rows of the others are those from before. -/
  knows : m.store.knows = n.store.knows
  others : ∀ b : Authority, b.id ≠ a.id →
    (b ∈ m.store.authorities.rows ↔ b ∈ n.store.authorities.rows)
  /-- A refresh of another authority sees nothing of it. -/
  sameView : ∀ b ∈ n.store.authorities.rows, b.id ≠ a.id → SameView n.store m.store b

/-- The ids that follow serve as well, wherever the store is the same. -/
theorem Ready.take [Arithmetic] (h : n.Ready) (k : ℕ) :
    Ready { n with ids := n.ids.take k } := by
  refine ⟨h.reached, ?_, h.opened, h.unlocked, h.going⟩
  simp only [IdSupply.id_take]
  exact h.fresh.following k (fun _ hc => .inl hc) fun _ hx => .inl hx

/-- A refresh of an authority that is there succeeds where there are numbers for what it adds. -/
theorem Ready.refreshOnce_known [Arithmetic] (h : n.Ready) (ha : a ∈ n.store.authorities.rows)
    (hroom : n.store.HasRoom a) :
    ∃ o m, n.refreshOnce a.id = (.ok o, m) ∧ RefreshedTo n a o m := by
  have hrow : n.store.authority? a.id = some a := authority?_eq_some.2 ⟨ha, rfl⟩
  have hl := h.lawful
  obtain ⟨o, t, hrefresh⟩ := (h.fresh.refresh_iff hl h.reached.reachable.bucketLinks
    h.reached.uncollected).2 ⟨a, hrow, hroom⟩
  obtain ⟨_, kept, works, hsame, hrefreshed⟩ := h.reached.reachable.refreshed hrefresh
  cases hrow.symm.trans hsame
  obtain ⟨_, hsame, hfilled⟩ := filled_of_refresh hl hrefresh
  cases hrow.symm.trans hsame
  have hids := idsGiven_of_refresh hrefresh
  refine ⟨o, { n with store := t, ids := n.ids.take (n.store.idsGiven n.now n.ids.id a.id) }, ?_, {
    ready := ⟨?_, ?_, h.opened, h.unlocked, h.going⟩
    outcome := hrefreshed.authority
    renewal := hrefreshed.renewal_eq
    filled := hfilled
    row := hrefreshed.authority?_eq ha
    knows := hrefreshed.knows_eq
    others := fun b hne => hrefreshed.mem_authorities hne
    sameView := fun b hb hne => hrefreshed.sameView hl hfilled.toSamePlaces ha hb hne }⟩
  · simp [refreshOnce, h.opened, h.unlocked, hrefresh]
  · refine h.reached.step (.refresh n.now n.ids.id a.id) ?_ ?_
    · rintro _ ⟨j, rfl⟩
      exact h.fresh.named j
    · rw [Operation.run, hrefresh]
      rfl
  · have hafter := h.fresh.after hl ha hrefreshed
    simp only [hids, IdSupply.id_take]
    exact hafter

/-- A refresh of an authority that is not there does nothing. -/
theorem Ready.refreshOnce_unknown [Arithmetic] (h : n.Ready) (hid : n.store.authority? id = none) :
    n.refreshOnce id = (.error (.notFound "Authority" id), n) := by
  have hrefresh : n.store.refresh n.now n.ids.id id = .error (.notFound "Authority" id) := by
    refine bind_eq_error.2 (.inl (bind_eq_error.2 (.inl (bind_eq_error.2 (.inl ?_)))))
    exact require_eq_error.2 ⟨hid, rfl⟩
  rw [refreshOnce, if_neg (Bool.eq_false_iff.1 h.opened), if_neg (Bool.eq_false_iff.1 h.unlocked)]
  simp only [hrefresh, idsGiven_unknown hid]
  rfl

/-- A refresh for which the numbers run out takes nothing but ids. -/
theorem Ready.refreshOnce_cramped [Arithmetic] (h : n.Ready) (ha : a ∈ n.store.authorities.rows)
    (hcramped : ¬ n.store.HasRoom a) :
    ∃ k, n.refreshOnce a.id =
      (.error (n.store.crampedFault a), { n with ids := n.ids.take k }) := by
  have hrow : n.store.authority? a.id = some a := authority?_eq_some.2 ⟨ha, rfl⟩
  have hl := h.lawful
  refine ⟨n.store.idsGiven n.now n.ids.id a.id, ?_⟩
  cases hrefresh : n.store.refresh n.now n.ids.id a.id with
  | ok r =>
      obtain ⟨_, hsame, hroom⟩ := hasRoom_of_refresh hl hrefresh
      cases hrow.symm.trans hsame
      exact absurd hroom hcramped
  | error f =>
      rcases h.fresh.refresh_fault hl h.reached.reachable.bucketLinks h.reached.uncollected hrefresh
        with hmissing | ⟨_, hsame, -, rfl⟩
      · rw [hrow] at hmissing
        contradiction
      · cases hrow.symm.trans hsame
        simp [refreshOnce, h.opened, h.unlocked, hrefresh]

/-- A fault that comes from numbers stays when the refresh is tried again. -/
theorem isRetryable_crampedFault [Arithmetic] (s : Store) (a : Authority) :
    (s.crampedFault a).isRetryable = false := by
  unfold crampedFault
  split
  · rfl
  · split <;> rfl

/-- **One attempt is enough for an authority that is there** where the numbers suffice. -/
theorem Ready.retry_known [Arithmetic] (h : n.Ready) (ha : a ∈ n.store.authorities.rows)
    (hroom : n.store.HasRoom a) :
    ∃ o m, n.carryOut (μ.retry a.id) = (some (.ok o), m) ∧ RefreshedTo n a o m := by
  obtain ⟨o, m, hrefresh, hto⟩ := h.refreshOnce_known ha hroom
  refine ⟨o, m.announce (.authority (.refreshed a.id o.collection o.added o.removed)), ?_,
    { hto with ready := hto.ready.of_core rfl }⟩
  unfold Maintainer.retry
  cases μ.maxAttempts - 1 <;>
  · rw [Maintainer.retryFrom, carryOut_attempt, hrefresh]
    rfl

/-- **One attempt is enough to give up** on an authority that is not there. -/
theorem Ready.retry_unknown [Arithmetic] (h : n.Ready) (hid : n.store.authority? id = none) :
    ∃ m, n.carryOut (μ.retry id) = (some (.error (.notFound "Authority" id)), m) ∧
      m.core = n.core := by
  refine ⟨(n.log (.refreshFailed id 1 (.notFound "Authority" id))).announce
    (.authority (.refreshFailed id (Fault.notFound "Authority" id).message 1)), ?_, rfl⟩
  unfold Maintainer.retry
  cases μ.maxAttempts - 1 <;>
  · rw [Maintainer.retryFrom, carryOut_attempt, h.refreshOnce_unknown hid]
    rfl

/-- **One attempt is enough to break off or to give up** where the numbers run out. -/
theorem Ready.retry_cramped [Arithmetic] (h : n.Ready) (ha : a ∈ n.store.authorities.rows)
    (hcramped : ¬ n.store.HasRoom a) : ∃ m, n.carryOut (μ.retry a.id) =
      (if (n.store.crampedFault a).breaksOff then none
        else some (.error (n.store.crampedFault a)), m) ∧ m.Ready ∧ m.store = n.store := by
  obtain ⟨k, hrefresh⟩ := h.refreshOnce_cramped ha hcramped
  have hfault := isRetryable_crampedFault n.store a
  cases hbreaks : (n.store.crampedFault a).breaksOff with
  | true =>
      refine ⟨{ n with ids := n.ids.take k }, ?_, h.take k, rfl⟩
      unfold Maintainer.retry
      cases μ.maxAttempts - 1 <;>
      · rw [Maintainer.retryFrom, carryOut_attempt, hrefresh, brokeOff, hbreaks]
        rfl
  | false =>
      refine ⟨({ n with ids := n.ids.take k }.log
        (.refreshFailed a.id 1 (n.store.crampedFault a))).announce
          (.authority (.refreshFailed a.id (n.store.crampedFault a).message 1)), ?_,
        (h.take k).of_core rfl, rfl⟩
      unfold Maintainer.retry
      cases μ.maxAttempts - 1 <;>
      · rw [Maintainer.retryFrom, carryOut_attempt, hrefresh, brokeOff, hbreaks]
        simp only [hfault, Bool.false_eq_true, if_false]
        rfl

/-! ### How a refresh ends -/

/-- How a refresh of the authority with the id ends in the background, with the session it leaves:
it did what was due, it was given up and the store stays, or it broke off. -/
inductive Retried [Arithmetic] (n : Session) (id : Id) :
    Option (Except Fault RefreshOutcome) → Session → Prop
  | refreshed {a : Authority} {o : RefreshOutcome} {m : Session}
      (found : n.store.authority? id = some a) (room : n.store.HasRoom a)
      (done : RefreshedTo n a o m) : Retried n id (some (.ok o)) m
  | givenUp {f : Fault} {m : Session} (refused : n.store.refreshes id = false)
      (sound : n.store.breaksOff id = false) (ready : m.Ready) (kept : m.store = n.store) :
      Retried n id (some (.error f)) m
  | brokenOff {m : Session} (breaks : n.store.breaksOff id = true) (ready : m.Ready)
      (kept : m.store = n.store) : Retried n id none m

/-- **A refresh ends as the store decides**, which has the numbers or has not. -/
theorem Ready.retried [Arithmetic] (h : n.Ready) (μ : Maintainer) (id : Id) :
    Retried n id (n.carryOut (μ.retry id)).1 (n.carryOut (μ.retry id)).2 := by
  cases hrow : n.store.authority? id with
  | none =>
      obtain ⟨m, hm, hcore⟩ := h.retry_unknown (μ := μ) hrow
      rw [hm]
      exact .givenUp (by simp [refreshes, hrow]) (by simp [breaksOff, hrow]) (h.of_core hcore.symm)
        (store_of_core hcore)
  | some a =>
      obtain ⟨ha, rfl⟩ := authority?_eq_some.1 hrow
      by_cases hroom : n.store.HasRoom a
      · obtain ⟨o, m, hm, hto⟩ := h.retry_known (μ := μ) ha hroom
        rw [hm]
        exact .refreshed hrow hroom hto
      · obtain ⟨m, hm, hready, hstore⟩ := h.retry_cramped (μ := μ) ha hroom
        rw [hm]
        cases hbreaks : (n.store.crampedFault a).breaksOff with
        | true => exact .brokenOff (by simp [breaksOff, hrow, hroom, hbreaks]) hready hstore
        | false =>
            exact .givenUp (by simp [refreshes, hrow, hroom])
              (by simp [breaksOff, hrow, hbreaks]) hready hstore

/-- After a refresh of another authority it is decided as before. -/
theorem RefreshedTo.fate_eq [Arithmetic] {o : RefreshOutcome} (h : RefreshedTo n a o m)
    (hne : id ≠ a.id) :
    m.store.refreshes id = n.store.refreshes id ∧ m.store.breaksOff id = n.store.breaksOff id := by
  cases hrow : n.store.authority? id with
  | none =>
      have hunknown : m.store.authority? id = none := by
        have hknows : m.store.knows id = n.store.knows id := congrFun h.knows id
        simpa [Store.knows, hrow] using hknows
      simp [refreshes, breaksOff, hrow, hunknown]
  | some b =>
      obtain ⟨hb, rfl⟩ := authority?_eq_some.1 hrow
      exact (h.sameView b hb hne).fate_eq hb

/-! ### What is announced -/

/-- Either a routine broke off, or it ended and announced one event that is no change of credits. -/
def AnnouncedOnce {α : Type} (n : Session) (value? : Option α) (m : Session) : Prop :=
  value? = none ∧ m.announced = n.announced ∨
    value?.isSome = true ∧ ∃ e : Event, e.involvement? = none ∧ m.announced = e :: n.announced

theorem carryOut_retryFrom_announced [Arithmetic] (n : Session) (μ : Maintainer) (id : Id)
    (number left : ℕ) : n.AnnouncedOnce (n.carryOut (μ.retryFrom id number left)).1
      (n.carryOut (μ.retryFrom id number left)).2 := by
  induction left generalizing n number with
  | zero =>
      obtain ⟨answer, store, ids, hattempt⟩ := n.exists_refreshOnce id
      rw [Maintainer.retryFrom, carryOut_attempt, hattempt]
      split
      · exact .inl ⟨rfl, rfl⟩
      · cases answer with
        | ok o => exact .inr ⟨rfl, _, rfl, rfl⟩
        | error f => exact .inr ⟨rfl, _, rfl, rfl⟩
  | succ left ih =>
      obtain ⟨answer, store, ids, hattempt⟩ := n.exists_refreshOnce id
      rw [Maintainer.retryFrom, carryOut_attempt, hattempt]
      split
      · exact .inl ⟨rfl, rfl⟩
      cases answer with
      | ok o => exact .inr ⟨rfl, _, rfl, rfl⟩
      | error f =>
          dsimp only
          split
          · -- after the wait the upkeep gives up or tries again
            rw [carryOut]
            split
            · exact .inr ⟨rfl, _, rfl, rfl⟩
            · exact ih { n with store, ids } (number + 1)
          · exact .inr ⟨rfl, _, rfl, rfl⟩

/-- **The upkeep announces how a refresh ended**, and no change of credits. -/
theorem carryOut_retry_announced [Arithmetic] (n : Session) (μ : Maintainer) (id : Id) :
    n.AnnouncedOnce (n.carryOut (μ.retry id)).1 (n.carryOut (μ.retry id)).2 :=
  n.carryOut_retryFrom_announced μ id 1 (μ.maxAttempts - 1)

/-! ### In the background -/

theorem respond_halted [Arithmetic] (h : n.halted = true) (as : List Id) : n.respond as = n := by
  induction as with
  | nil => rfl
  | cons a as ih => rwa [respond, List.foldl_cons, if_pos h]

theorem respond_cons [Arithmetic] (h : n.halted = false) (a : Id) (as : List Id) :
    n.respond (a :: as) = (n.attend a).respond as := by
  rw [respond, List.foldl_cons, if_neg (Bool.eq_false_iff.1 h)]
  rfl

@[simp] theorem attend_halted [Arithmetic] (n : Session) (id : Id) :
    (n.attend id).halted = (n.carryOut (n.settings.maintainer.retry id)).1.isNone := rfl

/-- What a refresh in the background does is what it does with its repetitions. -/
theorem Ready.attended [Arithmetic] (h : n.Ready) (id : Id) :
    Retried n id (n.carryOut (n.settings.maintainer.retry id)).1 (n.attend id) := by
  have hretried := h.retried n.settings.maintainer id
  unfold attend
  generalize n.carryOut (n.settings.maintainer.retry id) = ended at hretried ⊢
  obtain ⟨answer, m⟩ := ended
  have hhalt : m.Ready → Ready { m with halted := answer.isNone } := fun h =>
    ⟨h.reached, h.fresh, h.opened, h.unlocked, h.going⟩
  cases hretried with
  | refreshed found room done =>
      exact .refreshed found room { done with ready := hhalt done.ready }
  | givenUp refused sound ready kept => exact .givenUp refused sound (hhalt ready) kept
  | brokenOff breaks ready kept => exact .brokenOff breaks (hhalt ready) kept

/-- The upkeep in the background announces how a refresh ended, unless it broke off. -/
theorem attend_announced [Arithmetic] (n : Session) (id : Id) (h : (n.attend id).halted = false) :
    ∃ e : Event, e.involvement? = none ∧ (n.attend id).announced = e :: n.announced := by
  rcases n.carryOut_retry_announced n.settings.maintainer id with ⟨hnone, -⟩ | ⟨-, hannounced⟩
  · rw [attend_halted, hnone] at h
    contradiction
  · exact hannounced

theorem attend_started [Arithmetic] (n : Session) (id : Id) :
    (n.attend id).started = n.started ∧ (n.attend id).cancelled = n.cancelled :=
  n.carryOut_started (n.settings.maintainer.retry id)

/-! ### Sessions that nothing stops -/

/-- Nothing stops the upkeep of a session over a store with few ids, of another shape. -/
theorem Ready.of_lettered [Arithmetic]
    (hreached : n.store.ReachedGiving fun id => Text.isBlank id = false)
    (hcollections : ∀ row ∈ n.store.collections.rows, row.id ∈ (List.range 2).map (lettered 'x'))
    (hslots : ∀ z ∈ n.store.slots.rows, z.id ∈ (List.range 3).map (lettered 'x'))
    (hids : n.ids.descending = false) (hopened : n.closed = false) (hunlocked : n.locked = false)
    (hgoing : n.cancelled = false) : n.Ready :=
  ⟨hreached, freshIds_of_ne_lettered (IdSupply.id_injective hids) n.ids.isBlank_id
    n.ids.lettered_ne_id hcollections hslots, hopened, hunlocked, hgoing⟩

/-- Nothing stops the upkeep of a session that holds no collections yet. -/
theorem Ready.of_bare [Arithmetic]
    (hreached : n.store.ReachedGiving fun id => Text.isBlank id = false)
    (hcollections : n.store.collections.rows = []) (hslots : n.store.slots.rows = [])
    (hids : n.ids.descending = false) (hopened : n.closed = false) (hunlocked : n.locked = false)
    (hgoing : n.cancelled = false) : n.Ready := by
  refine .of_lettered hreached ?_ ?_ hids hopened hunlocked hgoing
  · rw [hcollections]
    exact nofun
  · rw [hslots]
    exact nofun

end Session

end Anthology
