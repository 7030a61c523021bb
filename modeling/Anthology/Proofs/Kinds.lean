/-
**The kind `uncollected` is for the upkeep alone, and for good.**

No operation turns an uncollected collection into one of another kind or the other way round, and
none but a refresh makes an uncollected collection.  The refresh reports that it made it, and it has
linked the authority to it.

A refresh comes by itself, in a batch, or in the background, where it may be tried several times
and is followed by others.  The attempts that fail leave the store, so each of these is a chain of
refreshes that succeeded, with their reports, also where it breaks off.  What one refresh does is
carried along the chain: refreshes take no collection away, and they undo no link.

Main definitions:

* `Anthology.Store.SameKinds` — no collection became uncollected or ceased to be;
* `Anthology.Store.NewBuckets` — the uncollected collections that are new were reported and linked;
* `Anthology.Store.RefreshRun` — refreshes one after the other;
* `Anthology.Operation.outcomes`, `Anthology.Session.responses` — what operations and the upkeep in
  the background report.

Main results:

* `Anthology.Store.RefreshRun.kinds` — what a chain of refreshes keeps;
* `Anthology.Session.retry_refreshRun`, `Anthology.Session.respond_refreshRun` — the upkeep is such
  a chain;
* `Anthology.Store.Reachable.kinds_permanent` — **the kind is for the upkeep alone, and for good**.
-/

import Anthology.Proofs.Batch

set_option relaxedAutoImplicit false
set_option autoImplicit false

namespace Anthology

namespace Store

variable {s t u : Store} {now : Time} {a c : Id} {o : RefreshOutcome} {os ps : List RefreshOutcome}

/-! ### Kinds and links -/

/-- A collection that is in both stores is uncollected in both or in neither. -/
def SameKinds (s t : Store) : Prop := ∀ c old row, s.collection? c = some old →
  t.collection? c = some row → (row.kind = .uncollected ↔ old.kind = .uncollected)

/-- The authority is linked to the collection. -/
def LinkedTo (s : Store) (a c : Id) : Prop :=
  ∃ row, s.authority? a = some row ∧ row.uncollected = some c

/-- Of each uncollected collection that is new in the store `t` a refresh reported that it made it,
and the refreshed authority is linked to it. -/
def NewBuckets (s t : Store) (os : List RefreshOutcome) : Prop := ∀ c row,
  s.collection? c = none → t.collection? c = some row → row.kind = .uncollected →
    ∃ o ∈ os, o.created = true ∧ o.collection = c ∧ t.LinkedTo o.authority c

theorem KindsEdited.sameKinds (h : s.KindsEdited t) : s.SameKinds t := by
  intro c old row hold hrow
  obtain ⟨hmem, rfl⟩ := collection?_eq_some.1 hrow
  rcases h row hmem with ⟨old', hold', hid, hsame⟩ | ⟨hmissing, -⟩
  · have hsameRow : old' = old := by
      refine Table.eq_of_key_eq hold' (collection?_eq_some.1 hold).1 ?_
      exact hid.trans (collection?_eq_some.1 hold).2.symm
    rw [← isUncollected_iff, ← isUncollected_iff, ← hsame, hsameRow]
  · rw [hasCollection_of_collection? hold] at hmissing
    contradiction

theorem KindsEdited.newBuckets (h : s.KindsEdited t) : s.NewBuckets t os := by
  intro c row hnone hrow hkind
  exfalso
  obtain ⟨hmem, rfl⟩ := collection?_eq_some.1 hrow
  rcases h row hmem with ⟨old, hold, hid, -⟩ | ⟨-, hother⟩
  · rw [collection?_eq_some.2 ⟨hold, hid⟩] at hnone
    contradiction
  · rw [isUncollected_iff.2 hkind] at hother
    contradiction

/-! ### One refresh -/

section Refreshed

variable {fresh : ℕ → Id} {x : Authority} {kept : List Slot} {works : List Manifestation}
  (h : Refreshed s now fresh x kept works o t)

include h

/-- Of a collection that is there a refresh writes the number only. -/
theorem Refreshed.exists_row {old : Collection} (hold : s.collection? c = some old) :
    ∃ row, t.collection? c = some row ∧ SameButCount old row := by
  by_cases hc : c = o.collection
  · subst hc
    obtain ⟨old', row, hrow, hsame, -, -, hbefore⟩ := h.bucket
    rcases hbefore with hbefore | ⟨hnone, -⟩
    · cases hold.symm.trans hbefore
      exact ⟨row, hrow, hsame⟩
    · rw [hnone] at hold
      contradiction
  · obtain ⟨row, hrow, hsame, -⟩ := (h.otherCollections c hc).2 old hold
    exact ⟨row, hrow, hsame⟩

theorem Refreshed.sameKinds : s.SameKinds t := by
  intro c old row hold hrow
  obtain ⟨row', hrow', hsame⟩ := h.exists_row hold
  cases hrow.symm.trans hrow'
  rw [hsame]

theorem Refreshed.linkedTo (hx : x ∈ s.authorities.rows) : t.LinkedTo x.id o.collection := by
  refine ⟨linkedRow now o.collection x, authority?_eq_some.2 ⟨?_, rfl⟩, rfl⟩
  rw [h.authorities]
  exact List.mem_map.2 ⟨x, hx, if_pos rfl⟩

/-- **A refresh reports the collection that it makes**, and links the authority to it. -/
theorem Refreshed.newBuckets (hl : s.Lawful) (hx : x ∈ s.authorities.rows) :
    s.NewBuckets t [o] := by
  intro c row hnone hrow _
  have hbucket : c = o.collection := by
    by_contra hc
    rw [(h.otherCollections c hc).1 hnone] at hrow
    contradiction
  subst hbucket
  refine ⟨o, List.mem_cons_self, ?_, rfl, h.authority ▸ h.linkedTo hx⟩
  rw [h.created, Option.isNone_iff_eq_none]
  -- a link leads to a collection that is there, and this one was not
  by_contra hlink
  obtain ⟨d, hd⟩ := Option.ne_none_iff_exists'.1 hlink
  obtain ⟨old, hold⟩ := exists_collection?_iff.2 (hl.link x hx d hd)
  rw [h.linked d hd, hold] at hnone
  contradiction

/-- A refresh undoes no link, because the authority keeps the link that it had. -/
theorem Refreshed.keeps_link (hx : x ∈ s.authorities.rows) {b d : Id} (hlink : s.LinkedTo b d) :
    t.LinkedTo b d := by
  obtain ⟨row, hrow, hd⟩ := hlink
  obtain ⟨hmem, rfl⟩ := authority?_eq_some.1 hrow
  by_cases hid : row.id = x.id
  · cases Table.eq_of_key_eq hmem hx hid
    rw [← h.linked d hd]
    exact h.linkedTo hx
  · refine ⟨row, authority?_eq_some.2 ⟨?_, rfl⟩, hd⟩
    rw [h.authorities]
    exact List.mem_map.2 ⟨row, hmem, if_neg hid⟩

end Refreshed

/-! ### Refreshes one after the other -/

/-- Refreshes lead from the store `s` to the store `t`, with the listed reports. -/
inductive RefreshRun [Arithmetic] : Store → List RefreshOutcome → Store → Prop
  | nil (s : Store) : RefreshRun s [] s
  | cons {s t u : Store} {now : Time} {fresh : ℕ → Id} {a : Id} {o : RefreshOutcome}
      {os : List RefreshOutcome} (refresh : s.refresh now fresh a = .ok (o, t))
      (rest : RefreshRun t os u) : RefreshRun s (o :: os) u

theorem RefreshRun.append [Arithmetic] (h : RefreshRun s os t) (h' : RefreshRun t ps u) :
    RefreshRun s (os ++ ps) u := by
  induction h with
  | nil s => exact h'
  | cons hrefresh rest ih => exact .cons hrefresh (ih h')

theorem Reachable.refresh [Arithmetic] (h : s.Reachable) {fresh : ℕ → Id}
    (hrefresh : s.refresh now fresh a = .ok (o, t)) : t.Reachable :=
  h.leads (.of_result (.refresh now fresh a) rfl hrefresh)

/-- What refreshes one after the other keep. -/
structure KindsKept (s t : Store) (os : List RefreshOutcome) : Prop where
  same : s.SameKinds t
  new : s.NewBuckets t os
  stay : ∀ c, s.hasCollection c = true → t.hasCollection c = true
  links : ∀ a c, s.LinkedTo a c → t.LinkedTo a c

theorem KindsKept.refl (s : Store) : KindsKept s s [] := by
  have hsame : s.KindsInherited s := .of_eq rfl
  exact ⟨hsame.edited.sameKinds, hsame.edited.newBuckets, fun _ hc => hc, fun _ _ h => h⟩

/-- A collection that is in the first and in the last store is in the one between. -/
theorem KindsKept.trans (h : KindsKept s t os) (h' : KindsKept t u ps) :
    KindsKept s u (os ++ ps) := by
  have hsame : s.SameKinds u := by
    intro c old row hold hrow
    obtain ⟨mid, hmid⟩ := exists_collection?_iff.2 (h.stay c (hasCollection_of_collection? hold))
    rw [h'.same c mid row hmid hrow, h.same c old mid hold hmid]
  refine ⟨hsame, ?_, fun c hc => h'.stay c (h.stay c hc), fun b d hbd =>
    h'.links b d (h.links b d hbd)⟩
  intro c row hnone hrow hkind
  cases hmid : t.collection? c with
  | none =>
      obtain ⟨o, ho, hmade⟩ := h'.new c row hmid hrow hkind
      exact ⟨o, List.mem_append_right os ho, hmade⟩
  | some mid =>
      have hmidKind : mid.kind = .uncollected := (h'.same c mid row hmid hrow).1 hkind
      obtain ⟨o, ho, hcreated, hcollection, hlink⟩ := h.new c mid hnone hmid hmidKind
      exact ⟨o, List.mem_append_left ps ho, hcreated, hcollection, h'.links _ _ hlink⟩

theorem Reachable.refresh_kinds [Arithmetic] (h : s.Reachable) {fresh : ℕ → Id}
    (hrefresh : s.refresh now fresh a = .ok (o, t)) : KindsKept s t [o] := by
  obtain ⟨x, kept, works, hx, hrefreshed⟩ := h.refreshed hrefresh
  obtain ⟨hmem, -⟩ := authority?_eq_some.1 hx
  refine ⟨hrefreshed.sameKinds, hrefreshed.newBuckets h.lawful hmem, ?_, ?_⟩
  · intro c hc
    obtain ⟨old, hold⟩ := exists_collection?_iff.2 hc
    obtain ⟨row, hrow, -⟩ := hrefreshed.exists_row hold
    exact hasCollection_of_collection? hrow
  · intro b d hbd
    exact hrefreshed.keeps_link hmem hbd

/-- **What one refresh keeps, a chain of refreshes keeps.** -/
theorem RefreshRun.kinds [Arithmetic] (hrun : RefreshRun s os t)
    (h : s.Reachable) : KindsKept s t os := by
  induction hrun with
  | nil s => exact .refl s
  | cons hrefresh rest ih => exact (h.refresh_kinds hrefresh).trans (ih (h.refresh hrefresh))

end Store

/-! ### The upkeep as a chain of refreshes -/

/-- What an operation reports of refreshes: a refresh reports one, if it succeeds. -/
def Operation.outcomes [Arithmetic] (s : Store) : Operation → List RefreshOutcome
  | refresh now fresh a => (s.refresh now fresh a).toOption.toList.map Prod.fst
  | _ => []

namespace Session

open Store

variable {n m : Session} {μ : Maintainer} {as : List Id}

/-- What the upkeep in the background reports of its refreshes of the authorities, one after the
other, until it breaks off. -/
def responses [Arithmetic] (n : Session) : List Id → List RefreshOutcome
  | [] => []
  | a :: as =>
    if n.halted then []
    else
      ((n.carryOut (n.settings.maintainer.retry a)).1.bind Except.toOption).toList ++
        (n.attend a).responses as

/-- An attempt that fails leaves the store. -/
theorem refreshOnce_refreshRun [Arithmetic] (n : Session) (a : Id) :
    RefreshRun n.store (n.refreshOnce a).1.toOption.toList (n.refreshOnce a).2.store := by
  unfold refreshOnce
  split
  · exact .nil _
  · split
    · exact .nil _
    · dsimp only
      split
      · rename_i hrefresh
        exact .cons hrefresh (.nil _)
      · exact .nil _

theorem retryFrom_refreshRun [Arithmetic] (n : Session) (μ : Maintainer) (a : Id)
    (number left : ℕ) :
    RefreshRun n.store ((n.carryOut (μ.retryFrom a number left)).1.bind Except.toOption).toList
      (n.carryOut (μ.retryFrom a number left)).2.store := by
  induction left generalizing n number with
  | zero =>
      have hfirst := n.refreshOnce_refreshRun a
      rw [Maintainer.retryFrom, carryOut_attempt]
      rcases hattempt : n.refreshOnce a with ⟨answer, m⟩
      rw [hattempt] at hfirst
      cases answer with
      | ok o => exact hfirst
      | error f => split <;> exact hfirst
  | succ left ih =>
      have hfirst := n.refreshOnce_refreshRun a
      rw [Maintainer.retryFrom, carryOut_attempt]
      rcases hattempt : n.refreshOnce a with ⟨answer, m⟩
      rw [hattempt] at hfirst
      cases answer with
      | ok o => exact hfirst
      | error f =>
          -- the attempt that failed reports nothing, and the next one starts from where it ended
          split
          · exact hfirst
          dsimp only
          split
          · rw [carryOut]
            split
            · exact hfirst
            · exact hfirst.append (ih m (number + 1))
          · exact hfirst

/-- **A refresh with its repetitions is one refresh or none**, and reports which. -/
theorem retry_refreshRun [Arithmetic] (n : Session) (μ : Maintainer) (a : Id) :
    RefreshRun n.store ((n.carryOut (μ.retry a)).1.bind Except.toOption).toList
      (n.carryOut (μ.retry a)).2.store :=
  n.retryFrom_refreshRun μ a 1 (μ.maxAttempts - 1)

/-- A batch is a chain of refreshes, which it reports unless it breaks off. -/
theorem retryEach_refreshRun [Arithmetic] (n : Session) (μ : Maintainer) (as : List Id) : ∃ os,
    (∀ ps, (n.carryOut (μ.retryEach as)).1 = some ps → ps = os) ∧
      RefreshRun n.store os (n.carryOut (μ.retryEach as)).2.store := by
  induction as generalizing n with
  | nil => exact ⟨[], fun ps hps => (Option.some.inj hps).symm, .nil _⟩
  | cons a as ih =>
      cases hgoing : n.cancelled with
      | true =>
          rw [Maintainer.retryEach, carryOut, hgoing]
          exact ⟨[], fun ps hps => (Option.some.inj hps).symm, .nil _⟩
      | false =>
          have hfirst := n.retry_refreshRun μ a
          rw [carryOut_retryEach_cons hgoing]
          rcases hcarried : n.carryOut (μ.retry a) with ⟨answer, m⟩
          rw [hcarried] at hfirst
          cases answer with
          | none => exact ⟨[], fun _ hps => (by cases hps), hfirst⟩
          | some answer =>
              obtain ⟨os, hos, hrest⟩ := ih m
              refine ⟨answer.toOption.toList ++ os, fun ps hps => ?_, hfirst.append hrest⟩
              obtain ⟨rest, hrest, rfl⟩ := Option.map_eq_some_iff.1 hps
              rw [hos rest hrest]

theorem respond_refreshRun [Arithmetic] (n : Session) (as : List Id) :
    RefreshRun n.store (n.responses as) (n.respond as).store := by
  induction as generalizing n with
  | nil => exact .nil _
  | cons a as ih =>
      cases hhalted : n.halted with
      | true =>
          rw [responses, hhalted, respond_halted hhalted]
          exact .nil _
      | false =>
          rw [responses, hhalted, respond_cons hhalted]
          exact (n.retry_refreshRun n.settings.maintainer a).append (ih (n.attend a))

end Session

namespace Store

variable {s t : Store}

/-- An operation makes no collection uncollected and ends it for none, and reports those that it
makes. -/
theorem Reachable.run_kinds [Arithmetic] (h : s.Reachable) {op : Operation}
    (hrun : op.run s = .ok t) :
    s.SameKinds t ∧ s.NewBuckets t (op.outcomes s) := by
  by_cases hop : ∃ now fresh a, op = .refresh now fresh a
  · obtain ⟨now, fresh, a, rfl⟩ := hop
    obtain ⟨⟨o, t⟩, hrefresh, rfl⟩ := map_eq_ok.1 hrun
    have houtcomes : (Operation.refresh now fresh a).outcomes s = [o] := by
      rw [Operation.outcomes, hrefresh]
      rfl
    have hkept := h.refresh_kinds hrefresh
    rw [houtcomes]
    exact ⟨hkept.same, hkept.new⟩
  · have hedited : s.KindsEdited t := by
      refine kindsEdited_run hrun ?_
      intro now fresh a hrefresh
      exact hop ⟨now, fresh, a, hrefresh⟩
    exact ⟨hedited.sameKinds, hedited.newBuckets⟩

/-- **The kind `uncollected` is for the upkeep alone, and for good.**  Whatever operation succeeds,
a collection that is there before and after it is uncollected after it exactly when it was before;
and a collection that is new and uncollected was made by a refresh that reports so and has linked
the authority to it.  The same holds of a batch, also of one that breaks off and reports nothing of
its refreshes, and of what the upkeep does in the background. -/
theorem Reachable.kinds_permanent [Arithmetic] (h : s.Reachable) :
    (∀ (op : Operation) (t : Store), op.run s = .ok t →
      s.SameKinds t ∧ s.NewBuckets t (op.outcomes s)) ∧
    (∀ (n m : Session) (as : List Id) (os : List RefreshOutcome), n.store = s →
      n.answer (.refreshMany as) = (.ok (.outcomes os), m) →
        s.SameKinds m.store ∧ s.NewBuckets m.store os) ∧
    (∀ (n m : Session) (as : List Id) (f : Fault), n.store = s →
      n.answer (.refreshMany as) = (.error f, m) →
        ∃ os, RefreshRun s os m.store ∧ s.SameKinds m.store ∧ s.NewBuckets m.store os) ∧
    ∀ (n : Session) (as : List Id), n.store = s →
      s.SameKinds (n.respond as).store ∧ s.NewBuckets (n.respond as).store (n.responses as) := by
  refine ⟨fun op t hrun => h.run_kinds hrun, ?_, ?_, ?_⟩
  · rintro n m as os rfl hanswer
    obtain ⟨ps, hps, hrun⟩ := n.retryEach_refreshRun n.settings.maintainer as.eraseDups
    obtain ⟨_, hreply, hcarried⟩ := Session.answer_refreshMany_ok hanswer
    cases hreply
    rw [hcarried] at hps hrun
    obtain rfl := hps os rfl
    have hkept := hrun.kinds h
    exact ⟨hkept.same, hkept.new⟩
  · rintro n m as f rfl hanswer
    obtain ⟨os, -, hrun⟩ := n.retryEach_refreshRun n.settings.maintainer as.eraseDups
    rw [← Session.answer_refreshMany_snd, hanswer] at hrun
    have hkept := hrun.kinds h
    exact ⟨os, hrun, hkept.same, hkept.new⟩
  · rintro n as rfl
    have hkept := (n.respond_refreshRun as).kinds h
    exact ⟨hkept.same, hkept.new⟩

theorem kinds_permanent_authored : ∃ s t row, Operation.runAll .empty Operation.authored = .ok s ∧
    (Operation.refresh 1 (lettered 'x') "author").run s = .ok t ∧
    s.collection? (lettered 'x' 0) = none ∧ t.collection? (lettered 'x' 0) = some row ∧
    row.kind = .uncollected ∧ s.SameKinds t ∧
    ∃ o ∈ (Operation.refresh 1 (lettered 'x') "author").outcomes s, o.created = true ∧
      o.collection = lettered 'x' 0 ∧ t.LinkedTo o.authority (lettered 'x' 0) := by
  obtain ⟨s, hs, hnone, hrefresh⟩ : ∃ s, Operation.runAll .empty Operation.authored = .ok s ∧
      s.collection? (lettered 'x' 0) = none ∧
        ((Operation.refresh 1 (lettered 'x') "author").run s).toOption.any (fun t =>
          decide (∃ row ∈ t.collections.rows, row.id = lettered 'x' 0 ∧
            row.kind = .uncollected)) = true := exists_eq_ok_of_any (by decide +kernel)
  obtain ⟨t, ht, row, hmem, hid, hkind⟩ := exists_eq_ok_of_any hrefresh
  have hrow := collection?_eq_some.2 ⟨hmem, hid⟩
  obtain ⟨hsame, hnew⟩ := (Reachable.kinds_permanent (.runAll .empty hs)).1 _ t ht
  exact ⟨s, t, row, hs, ht, hnone, hrow, hkind, hsame, hnew _ row hnone hrow hkind⟩

end Store

end Anthology
