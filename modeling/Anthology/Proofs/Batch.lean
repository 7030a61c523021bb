/-
**Batches of refreshes.**

A batch refreshes the authorities of a list one after the other, each once.  Since a refresh does
not see those of other authorities, each of them finds what it would have found at the beginning of
the batch.  So neither the order of the list nor repetitions in it make a difference, and ids that
no authority has make none either.  That holds of what is refreshed, of what lacks numbers and is
left as it was, and of whether the batch breaks off.  Only a batch that breaks off depends on the
order, by the refreshes that were done before.

Main definitions:

* `Anthology.Session.Batch` — what a batch reports and leaves.

Main results:

* `Anthology.Session.Ready.retryEach` — **each authority is refreshed as if it were the first**;
* `Anthology.Session.Ready.retryEach_breaks` — a batch breaks off if one of its refreshes does;
* `Anthology.Session.Ready.retryEach_filter` — ids that no authority has change nothing;
* `Anthology.Session.Ready.order_irrelevant` — **the order of a batch does not matter**.
-/

import Anthology.Proofs.Upkeep

set_option relaxedAutoImplicit false
set_option autoImplicit false

namespace Anthology

/-! ### Lists without repetitions -/

/-- It does not matter whether repetitions are dropped before or after other ids. -/
theorem eraseDups_filter (p : Id → Bool) (ids : List Id) :
    (ids.filter p).eraseDups = ids.eraseDups.filter p := by
  cases ids with
  | nil => rfl
  | cons a as =>
      have hrest := eraseDups_filter p (as.filter fun b => !b == a)
      rw [List.eraseDups_cons]
      by_cases ha : p a = true
      · rw [List.filter_cons_of_pos ha, List.eraseDups_cons, List.filter_cons_of_pos ha, ← hrest]
        simp only [List.filter_filter, Bool.and_comm]
      · -- the first id does not pass the test, so nothing is lost with its repetitions
        have hsame : (as.filter fun b => !b == a).filter p = as.filter p := by
          rw [List.filter_filter]
          refine List.filter_congr fun b _ => ?_
          by_cases hb : b = a
          · simp [hb, ha]
          · simp [hb]
        rw [List.filter_cons_of_neg ha, List.filter_cons_of_neg ha, ← hrest, hsame]
termination_by ids.length
decreasing_by
  have hlength := List.length_filter_le (fun b => !b == a) as
  simp only [List.length_cons]
  omega

namespace Session

open Store

variable {n m k : Session} {id : Id} {as bs : List Id} {os : List RefreshOutcome} {μ : Maintainer}

/-! ### One after the other -/

/-- What a batch of refreshes of the authorities `as` reports and leaves. -/
structure Batch [Arithmetic] (n : Session) (as : List Id) (os : List RefreshOutcome) (m : Session) :
    Prop where
  ready : m.Ready
  /-- There is one outcome for each of the authorities that can be refreshed, in their order. -/
  outcomes : os.map RefreshOutcome.authority = as.filter n.store.refreshes
  /-- What was done, and what the collections refer to after the whole batch, was due before it. -/
  done : ∀ o ∈ os, ∃ a, n.store.authority? o.authority = some a ∧
    (⟨o.created, o.removed, o.added, o.count, m.store.bucketItems o.authority⟩ : Renewal) =
      n.store.due a
  /-- Nothing of the batch is seen by the other authorities. -/
  others : ∀ b ∈ n.store.authorities.rows, b.id ∉ os.map RefreshOutcome.authority →
    SameView n.store m.store b

theorem Batch.not_mem_outcomes [Arithmetic] (h : Batch n as os m) (hid : id ∉ as) :
    id ∉ os.map RefreshOutcome.authority := by
  rw [h.outcomes]
  exact fun hmem => hid (List.mem_filter.1 hmem).1

/-- A batch goes on behind its first refresh, unless that one breaks off. -/
theorem carryOut_retryEach_cons [Arithmetic] (hgoing : n.cancelled = false) :
    n.carryOut (μ.retryEach (id :: as)) =
      (n.carryOut (μ.retry id)).1.elim (none, (n.carryOut (μ.retry id)).2) fun answer =>
        (((n.carryOut (μ.retry id)).2.carryOut (μ.retryEach as)).1.map
            (answer.toOption.toList ++ ·),
          ((n.carryOut (μ.retry id)).2.carryOut (μ.retryEach as)).2) := by
  rw [Maintainer.retryEach, carryOut, hgoing]
  simp only [Bool.false_eq_true, if_false, carryOut_andThen]
  congr 1
  funext answer
  cases ((n.carryOut (μ.retry id)).2.carryOut (μ.retryEach as)).1 <;> rfl

/-- An authority of which nothing was seen is refreshed as it would have been before. -/
theorem Batch.done_cons [Arithmetic] {a : Authority} {o : RefreshOutcome}
    (ha : a ∈ n.store.authorities.rows) (hto : RefreshedTo n a o k) (hid : a.id ∉ as)
    (h : Batch k as os m) : ∀ o' ∈ o :: os, ∃ b, n.store.authority? o'.authority = some b ∧
      (⟨o'.created, o'.removed, o'.added, o'.count, m.store.bucketItems o'.authority⟩ : Renewal) =
        n.store.due b := by
  intro o' ho'
  rcases List.mem_cons.1 ho' with rfl | ho'
  · refine ⟨a, hto.outcome ▸ authority?_eq_some.2 ⟨ha, rfl⟩, ?_⟩
    -- the collection stays as the refresh left it
    have hrow := hto.row
    have hlinked : linkedRow n.now o'.collection a ∈ k.store.authorities.rows :=
      (authority?_eq_some.1 hrow).1
    have hitems : m.store.bucketItems a.id = k.store.bucketItems a.id :=
      (h.others _ hlinked (h.not_mem_outcomes hid)).bucketItems_eq hlinked
    have hbucket : k.store.bucketItems a.id =
        (k.store.orderedSlots o'.collection).map Slot.item := by
      rw [bucketItems, hrow]
      rfl
    rw [hto.outcome, hitems, hbucket]
    exact hto.renewal
  · obtain ⟨b, hb, hdue⟩ := h.done o' ho'
    obtain ⟨hmem, hbid⟩ := authority?_eq_some.1 hb
    have hne : b.id ≠ a.id := by
      have hlisted : o'.authority ∈ as := by
        have := List.mem_map_of_mem (f := RefreshOutcome.authority) ho'
        rw [h.outcomes] at this
        exact (List.mem_filter.1 this).1
      rintro hba
      exact hid (hba ▸ hbid ▸ hlisted)
    have hold : b ∈ n.store.authorities.rows := (hto.others b hne).1 hmem
    refine ⟨b, authority?_eq_some.2 ⟨hold, hbid⟩, ?_⟩
    rw [hdue]
    exact (hto.sameView b hold hne).due_eq

/-- **Each authority is refreshed as if it were the first**, where no refresh breaks off. -/
theorem Ready.retryEach [Arithmetic] (h : n.Ready) (hnodup : as.Nodup)
    (hsound : ∀ id ∈ as, n.store.breaksOff id = false) :
    ∃ os m, n.carryOut (μ.retryEach as) = (some os, m) ∧ Batch n as os m := by
  induction as generalizing n with
  | nil =>
      exact ⟨[], n, rfl, h, rfl, fun o ho => absurd ho List.not_mem_nil, fun b hb _ => .refl hb⟩
  | cons id as ih =>
      obtain ⟨hid, hothers⟩ := List.nodup_cons.1 hnodup
      obtain ⟨hfirst, hrest⟩ := List.forall_mem_cons.1 hsound
      have hretried := h.retried μ id
      rcases hcarried : n.carryOut (μ.retry id) with ⟨answer, k⟩
      rw [hcarried] at hretried
      rw [carryOut_retryEach_cons h.going, hcarried]
      cases hretried with
      | @refreshed a o _ hrow hroom hto =>
          obtain ⟨ha, rfl⟩ := authority?_eq_some.1 hrow
          have hfate : ∀ b ∈ as, k.store.refreshes b = n.store.refreshes b ∧
              k.store.breaksOff b = n.store.breaksOff b :=
            fun b hb => hto.fate_eq fun hne => hid (hne ▸ hb)
          obtain ⟨os, m, hm, hbatch⟩ := ih hto.ready hothers fun b hb =>
            (hfate b hb).2.trans (hrest b hb)
          have hrefreshes : n.store.refreshes a.id = true := by
            simp [refreshes, hrow, hroom]
          refine ⟨o :: os, m, by simp [hm, Except.toOption], hbatch.ready, ?_,
            hbatch.done_cons ha hto hid, fun b hb hne => ?_⟩
          · rw [List.filter_cons_of_pos hrefreshes, List.map_cons, hbatch.outcomes, hto.outcome,
              List.filter_congr fun b hb => (hfate b hb).1]
          · rw [List.map_cons, hto.outcome] at hne
            have hsame := hto.sameView b hb (List.ne_of_not_mem_cons hne)
            exact hsame.trans (hbatch.others b hsame.row (List.not_mem_of_not_mem_cons hne))
      | givenUp hrefused hsound hready hkept =>
          obtain ⟨os, m, hm, hbatch⟩ := ih hready hothers (hkept ▸ hrest)
          refine ⟨os, m, by simp [hm, Except.toOption], hbatch.ready, ?_, hkept ▸ hbatch.done,
            hkept ▸ hbatch.others⟩
          rw [List.filter_cons_of_neg (by rw [hrefused]; decide), hbatch.outcomes, hkept]
      | brokenOff hbreaks hready hkept =>
          rw [hfirst] at hbreaks
          contradiction

/-- **A batch breaks off if one of its refreshes does**, wherever that one is in the list. -/
theorem Ready.retryEach_breaks [Arithmetic] (h : n.Ready) (hnodup : as.Nodup) (hid : id ∈ as)
    (hbreaks : n.store.breaksOff id = true) : (n.carryOut (μ.retryEach as)).1 = none := by
  induction as generalizing n with
  | nil => exact absurd hid List.not_mem_nil
  | cons b bs ih =>
      obtain ⟨hb, hothers⟩ := List.nodup_cons.1 hnodup
      have hretried := h.retried μ b
      rcases hcarried : n.carryOut (μ.retry b) with ⟨answer, k⟩
      rw [hcarried] at hretried
      rw [carryOut_retryEach_cons h.going, hcarried]
      cases hretried with
      | @refreshed a o _ hrow hroom hto =>
          have hsound : n.store.breaksOff b = false := by
            simp [breaksOff, hrow, hroom]
          have hlater : id ∈ bs := (List.mem_cons.1 hid).resolve_left fun hsame => by
            rw [hsame, hsound] at hbreaks
            contradiction
          have hne : id ≠ a.id := fun hsame => hb ((authority?_eq_some.1 hrow).2 ▸ hsame ▸ hlater)
          have hnone := ih hto.ready hothers hlater ((hto.fate_eq hne).2.trans hbreaks)
          simp [hnone]
      | givenUp hrefused hsound hready hkept =>
          have hlater : id ∈ bs := (List.mem_cons.1 hid).resolve_left fun hsame => by
            rw [hsame, hsound] at hbreaks
            contradiction
          have hnone := ih hready hothers hlater (hkept ▸ hbreaks)
          simp [hnone]
      | brokenOff => rfl

/-! ### Ids that no authority has -/

/-- **Ids that no authority has change nothing.** -/
theorem Ready.retryEach_filter [Arithmetic] (h : n.Ready) (as : List Id) (hcore : n.core = m.core) :
    (n.carryOut (μ.retryEach (as.filter n.store.knows))).1 =
        (m.carryOut (μ.retryEach as)).1 ∧
      (n.carryOut (μ.retryEach (as.filter n.store.knows))).2.core =
        (m.carryOut (μ.retryEach as)).2.core := by
  induction as generalizing n m with
  | nil => exact ⟨rfl, hcore⟩
  | cons id as ih =>
      have hm : m.Ready := h.of_core hcore
      rw [carryOut_retryEach_cons hm.going]
      cases hrow : n.store.authority? id with
      | none =>
          rw [List.filter_cons_of_neg (by simp [knows, hrow])]
          obtain ⟨k, hk, hkcore⟩ := hm.retry_unknown (μ := μ) (store_of_core hcore ▸ hrow)
          obtain ⟨hanswer, hrest⟩ := ih h (hcore.trans hkcore.symm)
          rw [hk, hanswer, hrest]
          simp [Except.toOption]
      | some a =>
          rw [List.filter_cons_of_pos (by simp [knows, hrow]), carryOut_retryEach_cons h.going]
          obtain ⟨hanswer, hkcore⟩ := carryOut_core (μ.retry id) hcore
          have hretried := h.retried μ id
          rcases hcarried : n.carryOut (μ.retry id) with ⟨answer, k⟩
          rw [hcarried] at hretried hanswer hkcore
          rw [← hanswer]
          cases hretried with
          | refreshed _ _ hto =>
              have hrest := ih hto.ready hkcore
              rw [hto.knows] at hrest
              simp only [Option.elim_some, hrest.1, hrest.2, and_self]
          | givenUp _ _ hready hkept =>
              have hrest := ih hready hkcore
              rw [hkept] at hrest
              simp only [Option.elim_some, hrest.1, hrest.2, and_self]
          | brokenOff => exact ⟨rfl, hkcore⟩

/-! ### Sessions that cannot be written to -/

theorem refreshOnce_blocked [Arithmetic] (id : Id) (h : n.writable ≠ .ok ()) :
    ∃ f, f.breaksOff = false ∧ n.refreshOnce id = (.error f, n) := by
  by_cases hclosed : n.closed = true
  · exact ⟨.storage .poolClosed, rfl, by simp [refreshOnce, hclosed]⟩
  by_cases hlocked : n.locked = true
  · exact ⟨.lockContention id, rfl, by simp [refreshOnce, hclosed, hlocked]⟩
  · refine absurd ?_ h
    rw [writable, readable, Bool.eq_false_iff.2 hclosed, Bool.eq_false_iff.2 hlocked]
    rfl

/-- However often it is tried, nothing is written. -/
theorem carryOut_retryFrom_blocked [Arithmetic] (id : Id) {number left : ℕ}
    (h : n.writable ≠ .ok ()) :
    ∃ f k, n.carryOut (μ.retryFrom id number left) = (some (.error f), k) ∧ k.core = n.core := by
  induction left generalizing number with
  | zero =>
      obtain ⟨f, hsound, hf⟩ := refreshOnce_blocked id h
      rw [Maintainer.retryFrom, carryOut_attempt, hf, brokeOff, hsound]
      exact ⟨f, _, rfl, rfl⟩
  | succ left ih =>
      obtain ⟨f, hsound, hf⟩ := refreshOnce_blocked id h
      rw [Maintainer.retryFrom, carryOut_attempt, hf, brokeOff, hsound]
      dsimp only
      split
      · contradiction
      split
      · rw [carryOut]
        split
        · exact ⟨f, _, rfl, rfl⟩
        · exact ih
      · exact ⟨f, _, rfl, rfl⟩

theorem retryEach_blocked [Arithmetic] (as : List Id) (hgoing : n.cancelled = false)
    (h : n.writable ≠ .ok ()) :
    ∃ k, n.carryOut (μ.retryEach as) = (some [], k) ∧ k.core = n.core := by
  induction as generalizing n with
  | nil => exact ⟨n, rfl, rfl⟩
  | cons id as ih =>
      obtain ⟨f, k, hk, hcore⟩ := carryOut_retryFrom_blocked (μ := μ) id h
      have hcancelled : k.cancelled = false := (cancelled_of_core hcore).trans hgoing
      have hwritable : k.writable ≠ .ok () := by
        rw [writable_of_core hcore]
        exact h
      obtain ⟨m, hm, hmcore⟩ := ih hcancelled hwritable
      refine ⟨m, ?_, hmcore.trans hcore⟩
      rw [carryOut_retryEach_cons hgoing, Maintainer.retry, hk]
      simp [hm, Except.toOption]

/-! ### Two batches -/

theorem answer_refreshMany_of_some [Arithmetic]
    (h : n.carryOut (n.settings.maintainer.retryEach as.eraseDups) = (some os, m)) :
    n.answer (.refreshMany as) = (.ok (.outcomes os), m) := by
  rw [answer, refreshMany, Maintainer.retryAll, h]

/-- A batch that answers with outcomes did not break off. -/
theorem answer_refreshMany_ok [Arithmetic] {reply : Reply}
    (h : n.answer (.refreshMany as) = (.ok reply, m)) : ∃ os, reply = .outcomes os ∧
      n.carryOut (n.settings.maintainer.retryEach as.eraseDups) = (some os, m) := by
  rw [answer, refreshMany, Maintainer.retryAll] at h
  rcases hcarried : n.carryOut (n.settings.maintainer.retryEach as.eraseDups) with ⟨answer, k⟩
  rw [hcarried] at h
  cases answer <;> cases h
  exact ⟨_, rfl, rfl⟩

theorem answer_refreshMany_snd [Arithmetic] (n : Session) (as : List Id) :
    (n.answer (.refreshMany as)).2 =
      (n.carryOut (n.settings.maintainer.retryEach as.eraseDups)).2 := by
  rw [answer, refreshMany, Maintainer.retryAll]
  rcases n.carryOut (n.settings.maintainer.retryEach as.eraseDups) with ⟨_ | os, m⟩ <;> rfl

theorem answer_refreshMany_of_none [Arithmetic]
    (h : (n.carryOut (n.settings.maintainer.retryEach as.eraseDups)).1 = none) :
    (n.answer (.refreshMany as)).1 = .error .overflow := by
  rw [answer, refreshMany, Maintainer.retryAll]
  rcases hcarried : n.carryOut (n.settings.maintainer.retryEach as.eraseDups) with ⟨answer, m⟩
  rw [hcarried] at h
  cases h
  rfl

theorem Batch.exists_outcome [Arithmetic] (h : Batch n as os m) (hid : id ∈ as)
    (hrefreshes : n.store.refreshes id = true) : ∃ o ∈ os, o.authority = id := by
  have hmem : id ∈ os.map RefreshOutcome.authority := by
    rw [h.outcomes]
    exact List.mem_filter.2 ⟨hid, hrefreshes⟩
  exact List.mem_map.1 hmem

/-- Two batches from the same store do the same for an authority that both refresh. -/
theorem Batch.agree [Arithmetic] {n' m' : Session} {os' : List RefreshOutcome} (h : Batch n as os m)
    (h' : Batch n' bs os' m') (hstore : n'.store = n.store) (has : id ∈ as) (hbs : id ∈ bs)
    (hrefreshes : n.store.refreshes id = true) :
    ∃ o ∈ os, ∃ o' ∈ os', o.authority = id ∧ o'.authority = id ∧
      o'.created = o.created ∧ o'.removed = o.removed ∧ o'.added = o.added ∧ o'.count = o.count ∧
        m'.store.bucketItems id = m.store.bucketItems id := by
  obtain ⟨o, ho, rfl⟩ := h.exists_outcome has hrefreshes
  obtain ⟨o', ho', hsame⟩ := h'.exists_outcome hbs (hstore ▸ hrefreshes)
  obtain ⟨a, ha, hdue⟩ := h.done o ho
  obtain ⟨a', ha', hdue'⟩ := h'.done o' ho'
  -- what was due is determined by the store and the row of the authority
  rw [hsame, hstore] at ha'
  cases ha.symm.trans ha'
  rw [hstore, ← hdue, hsame] at hdue'
  simp only [Renewal.mk.injEq] at hdue'
  exact ⟨o, ho, o', ho', rfl, hsame, hdue'⟩

/-- A batch leaves the collection of an authority as it is that it does not refresh. -/
theorem Batch.bucketItems_eq [Arithmetic] (h : Batch n as os m)
    (hknown : n.store.knows id = true) (hrefused : n.store.refreshes id = false) :
    m.store.bucketItems id = n.store.bucketItems id := by
  obtain ⟨a, hrow⟩ := Option.isSome_iff_exists.1 hknown
  obtain ⟨ha, rfl⟩ := authority?_eq_some.1 hrow
  refine (h.others a ha fun hmem => ?_).bucketItems_eq ha
  rw [h.outcomes, List.mem_filter, hrefused] at hmem
  exact absurd hmem.2 Bool.false_ne_true

/-- **The order of a batch does not matter**, nor do repetitions and ids that no authority has.
Take two batches from the same store that name the same authorities.  Either both break off, or both
report the same for each authority that is there and has numbers left, with one outcome for each of
these in the order in which they are first named, leave the collections of all authorities with the
same references, and do the same without the ids that no authority has.  A session that cannot be
written to stays as it is, whatever the batch. -/
theorem Ready.order_irrelevant [Arithmetic] {n n' : Session} (h : n.Ready) (h' : n'.Ready)
    (hstore : n'.store = n.store) (as bs : List Id) (hsame : ∀ id, id ∈ as ↔ id ∈ bs) :
    ((∀ id ∈ as, n.store.breaksOff id = false) →
      ∃ os m os' m' k, n.answer (.refreshMany as) = (.ok (.outcomes os), m) ∧
        n'.answer (.refreshMany bs) = (.ok (.outcomes os'), m') ∧
        (∀ id ∈ as, n.store.refreshes id = true →
          ∃ o ∈ os, ∃ o' ∈ os', o.authority = id ∧ o'.authority = id ∧
            o'.created = o.created ∧ o'.removed = o.removed ∧ o'.added = o.added ∧
              o'.count = o.count ∧ m'.store.bucketItems id = m.store.bucketItems id) ∧
        (∀ id ∈ as, n.store.knows id = true → n.store.refreshes id = false →
          m.store.bucketItems id = n.store.bucketItems id ∧
            m'.store.bucketItems id = n.store.bucketItems id) ∧
        (os.map RefreshOutcome.authority).Nodup ∧
        os.map RefreshOutcome.authority = as.eraseDups.filter n.store.refreshes ∧
        os'.map RefreshOutcome.authority = bs.eraseDups.filter n.store.refreshes ∧
        n.answer (.refreshMany (as.filter n.store.knows)) = (.ok (.outcomes os), k) ∧
        k.store = m.store) ∧
    ((∃ id ∈ as, n.store.breaksOff id = true) →
      (n.answer (.refreshMany as)).1 = .error .overflow ∧
        (n'.answer (.refreshMany bs)).1 = .error .overflow) ∧
    ∀ l : Session, l.cancelled = false → l.writable ≠ .ok () →
      ∃ k, l.answer (.refreshMany as) = (.ok (.outcomes []), k) ∧ k.store = l.store := by
  refine ⟨fun hsound => ?_, ?_, fun l hgoing hblocked => ?_⟩
  · obtain ⟨os, m, hm, hbatch⟩ := h.retryEach (μ := n.settings.maintainer) (nodup_eraseDups as)
      fun id hid => hsound id (List.mem_eraseDups.1 hid)
    obtain ⟨os', m', hm', hbatch'⟩ :=
      h'.retryEach (μ := n'.settings.maintainer) (nodup_eraseDups bs) fun id hid => by
        rw [hstore]
        exact hsound id ((hsame id).2 (List.mem_eraseDups.1 hid))
    obtain ⟨houtcomes, hcore⟩ :=
      h.retryEach_filter (μ := n.settings.maintainer) as.eraseDups rfl
    rw [hm, ← eraseDups_filter] at houtcomes hcore
    refine ⟨os, m, os', m',
      (n.carryOut (n.settings.maintainer.retryEach (as.filter n.store.knows).eraseDups)).2,
      answer_refreshMany_of_some hm, answer_refreshMany_of_some hm',
      fun id hid hrefreshes => ?_, fun id hid hknown hrefused => ?_, ?_, hbatch.outcomes, ?_,
      answer_refreshMany_of_some (Prod.ext houtcomes rfl), store_of_core hcore⟩
    · exact hbatch.agree hbatch' hstore (List.mem_eraseDups.2 hid)
        (List.mem_eraseDups.2 ((hsame id).1 hid)) hrefreshes
    · refine ⟨hbatch.bucketItems_eq hknown hrefused, ?_⟩
      rw [← hstore] at hknown hrefused ⊢
      exact hbatch'.bucketItems_eq hknown hrefused
    · rw [hbatch.outcomes]
      exact (nodup_eraseDups as).filter _
    · rw [hbatch'.outcomes, hstore]
  · rintro ⟨id, hid, hbreaks⟩
    exact ⟨answer_refreshMany_of_none
        (h.retryEach_breaks (nodup_eraseDups as) (List.mem_eraseDups.2 hid) hbreaks),
      answer_refreshMany_of_none (h'.retryEach_breaks (nodup_eraseDups bs)
        (List.mem_eraseDups.2 ((hsame id).1 hid)) (hstore ▸ hbreaks))⟩
  · obtain ⟨k, hk, hcore⟩ :=
      retryEach_blocked (μ := l.settings.maintainer) as.eraseDups hgoing hblocked
    exact ⟨k, answer_refreshMany_of_some hk, store_of_core hcore⟩

/-- Two works of an author, of which a translator translated one, for examples. -/
def translated : List Operation := Operation.authored ++ [
  .createManifestation (.create "essay" 0 "Essay" Manifestation.published),
  .createAuthority (.create "translator" 0 "Translator"),
  .addInvolvement ⟨"author", "essay", .author, 0⟩,
  .addInvolvement ⟨"translator", "work", .translator, 0⟩]

theorem order_irrelevant_translated : ∃ s, Operation.runAll .empty translated = .ok s ∧
    ∃ os m os' m',
      ({ trial with store := s } : Session).answer
          (.refreshMany ["nobody", "translator", "author", "translator"]) =
        (.ok (.outcomes os), m) ∧
      ({ trial with store := s, now := 9 } : Session).answer
          (.refreshMany ["author", "nobody", "translator"]) = (.ok (.outcomes os'), m') ∧
      os.map RefreshOutcome.authority = ["translator", "author"] ∧
      os'.map RefreshOutcome.authority = ["author", "translator"] ∧
      m'.store.bucketItems "author" = m.store.bucketItems "author" ∧
      m'.store.bucketItems "translator" = m.store.bucketItems "translator" := by
  obtain ⟨s, hs, hcollections, hslots, hauthor, htranslator, hnobody, hroom⟩ :
      ∃ s, Operation.runAll .empty translated = .ok s ∧ s.collections.rows = [] ∧
        s.slots.rows = [] ∧ s.knows "author" = true ∧ s.knows "translator" = true ∧
          s.knows "nobody" = false ∧ ∀ a ∈ s.authorities.rows,
            s.highest a + s.manifestations.rows.length < Word.last :=
    exists_eq_ok_of_any (by decide +kernel)
  have hrefreshes : s.refreshes = s.knows := funext fun id => (refreshes_eq_knows hroom id).1
  have hreached : s.ReachedGiving fun id => Text.isBlank id = false := by
    refine ReachedGiving.empty.runAll (fun op hop id hid => ?_) hs
    simp only [translated, Operation.authored, List.cons_append, List.nil_append, List.mem_cons,
      List.not_mem_nil, or_false] at hop
    -- none of these operations is given ids
    rcases hop with rfl | rfl | rfl | rfl | rfl | rfl | rfl <;> exact False.elim hid
  have hready : ({ trial with store := s } : Session).Ready :=
    .of_bare hreached hcollections hslots rfl rfl rfl rfl
  have hlater : ({ trial with store := s, now := 9 } : Session).Ready :=
    .of_bare hreached hcollections hslots rfl rfl rfl rfl
  obtain ⟨os, m, os', m', k, hm, hm', hagree, -, -, hfirst, hsecond, -⟩ :=
    (Ready.order_irrelevant hready hlater rfl
      ["nobody", "translator", "author", "translator"] ["author", "nobody", "translator"]
      (by simp; tauto)).1 fun id _ => (refreshes_eq_knows hroom id).2
  obtain ⟨-, -, -, -, -, -, -, -, -, -, hitems⟩ := hagree "author" (by simp) (hrefreshes ▸ hauthor)
  obtain ⟨-, -, -, -, -, -, -, -, -, -, hitems'⟩ :=
    hagree "translator" (by simp) (hrefreshes ▸ htranslator)
  refine ⟨s, hs, os, m, os', m', hm, hm', ?_, ?_, hitems, hitems'⟩
  · rw [hfirst, hrefreshes]
    simp [List.eraseDups_cons, hauthor, htranslator, hnobody]
  · rw [hsecond, hrefreshes]
    simp [List.eraseDups_cons, hauthor, htranslator, hnobody]

/-- A translator of the first work beside an author whose numbers ran out, for examples. -/
def shared (before : List Operation) : List Operation := before ++ [
  .createAuthority (.create "translator" 8 "Translator"),
  .addInvolvement ⟨"translator", "work", .translator, 8⟩]

/-- Where sums are checked, a batch that is to refresh an author behind whom the numbers ran out
breaks off, and who was refreshed by then depends on the order.  Where the highest number is no word
there is no outcome for the author, in whatever order. -/
theorem order_relevant_behind_last : ∃ s t,
    Operation.runAll .empty (shared continued) = .ok s ∧
    Operation.runAll .empty (shared overtaken) = .ok t ∧ s.Reachable ∧ t.Reachable ∧
    s.knows "author" = true ∧ t.knows "author" = true ∧
    (∃ m m', ({ trial with store := s } : Session).answer (.refreshMany ["author", "translator"]) =
        (.error .overflow, m) ∧
      ({ trial with store := s } : Session).answer (.refreshMany ["translator", "author"]) =
        (.error .overflow, m') ∧
      m.store.bucketItems "translator" = [] ∧
      m'.store.bucketItems "translator" = [.manifestation "work"]) ∧
    ∃ os m, ({ trial with store := t } : Session).answer (.refreshMany ["author", "translator"]) =
        (.ok (.outcomes os), m) ∧ os.map RefreshOutcome.authority = ["translator"] := by
  obtain ⟨s, hs, hknows, hfirst, hfirst', hsecond, hsecond'⟩ : ∃ s,
      Operation.runAll .empty (shared continued) = .ok s ∧ s.knows "author" = true ∧
      (({ trial with store := s } : Session).answer
        (.refreshMany ["author", "translator"])).1.map (fun _ => ()) = .error .overflow ∧
      (({ trial with store := s } : Session).answer
        (.refreshMany ["author", "translator"])).2.store.bucketItems "translator" = [] ∧
      (({ trial with store := s } : Session).answer
        (.refreshMany ["translator", "author"])).1.map (fun _ => ()) = .error .overflow ∧
      (({ trial with store := s } : Session).answer
        (.refreshMany ["translator", "author"])).2.store.bucketItems "translator" =
          [.manifestation "work"] := exists_eq_ok_of_any (by decide +kernel)
  obtain ⟨t, ht, hknows', hrefreshes⟩ : ∃ t, Operation.runAll .empty (shared overtaken) = .ok t ∧
      t.knows "author" = true ∧
      ((({ trial with store := t } : Session).carryOut
        (trial.settings.maintainer.retryEach ["author", "translator"].eraseDups)).1.any fun os =>
          os.map RefreshOutcome.authority == ["translator"]) = true :=
    exists_eq_ok_of_any (by decide +kernel)
  obtain ⟨os, hos, houtcomes⟩ := (Option.any_eq_true _ _).1 hrefreshes
  exact ⟨s, t, hs, ht, .runAll .empty hs, .runAll .empty ht, hknows, hknows',
    ⟨_, _, Prod.ext (map_eq_error.1 hfirst) rfl, Prod.ext (map_eq_error.1 hsecond) rfl, hfirst',
      hsecond'⟩,
    os, _, answer_refreshMany_of_some (Prod.ext hos rfl), eq_of_beq houtcomes⟩

end Session

end Anthology
