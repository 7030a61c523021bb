/-
**How often a refresh is repeated.**

A refresh that fails for a reason that may pass is attempted again after a wait.  The attempts end
with the first that succeeds, with the first that fails for a reason that will not pass, with the
last that is allowed, or with the one whose wait is broken off because the upkeep is cancelled; of
these the earliest decides.  Its answer is the answer of the whole, and it is announced once.

The answers to the attempts and the moments of cancellation are taken as they come: a routine is
played against a sequence of answers and a sequence of flags, one for each wait.  Nothing is asked
of either sequence.  What a session makes of a routine is such a play, unless an attempt breaks off,
to which there is no answer.

Main definitions:

* `Anthology.Deed` — what a routine does;
* `Anthology.Routine.play` — a routine on given answers and flags;
* `Anthology.Maintainer.IsLast` — what ends the attempts;
* `Anthology.Maintainer.Tried` — so many attempts, the waits between them, and the announcement.

Main results:

* `Anthology.Session.carryOut_played` — a session plays the routines that it carries out;
* `Anthology.Maintainer.retry_play` — attempts that are not the last bring the next;
* `Anthology.Maintainer.retry_tried` — **the first reason to stop decides**.
-/

import Anthology.Proofs.Upkeep
import Mathlib.Data.Stream.Init
import Mathlib.Order.Nat

set_option relaxedAutoImplicit false
set_option autoImplicit false

namespace Anthology

/-! ### Plays -/

/-- What a routine does. -/
inductive Deed where
  | called (authority : Id)
  /-- A wait, and whether cancellation broke it off. -/
  | waited (span : Duration) (broken : Bool)
  | announced (event : Event)
  | reported (entry : LogEntry)

namespace Deed

/-- The authority of a call. -/
def call? : Deed → Option Id
  | called a => some a
  | _ => none

/-- The span of a wait to its end. -/
def wait? : Deed → Option Duration
  | waited span false => some span
  | _ => none

def event? : Deed → Option Event
  | announced e => some e
  | _ => none

def entry? : Deed → Option LogEntry
  | reported entry => some entry
  | _ => none

end Deed

namespace Routine

variable {α : Type}

/-- What a routine does, and its value, where the attempts are answered and the upkeep is found
cancelled or not as the sequences say. -/
def play : Routine α → Stream' (Except Fault RefreshOutcome) → Stream' Bool → List Deed × α
  | done a, _, _ => ([], a)
  | attempt a next, answers, cancels =>
    ((next answers.head).play answers.tail cancels).map (.called a :: ·) id
  | pause span next, answers, cancels =>
    ((next cancels.head).play answers cancels.tail).map (.waited span cancels.head :: ·) id
  | unlessCancelled next, answers, cancels => (next cancels.head).play answers cancels.tail
  | announce e next, answers, cancels => (next.play answers cancels).map (.announced e :: ·) id
  | report entry next, answers, cancels => (next.play answers cancels).map (.reported entry :: ·) id

end Routine

/-- **A session plays the routines that it carries out** to their end: some answers and flags bring
the same value, the same announcements and the same log.  None of the answers breaks off. -/
theorem Session.carryOut_played [Arithmetic] {α : Type} (n : Session) (r : Routine α) {a : α}
    (h : (n.carryOut r).1 = some a) : ∃ answers cancels, a = (r.play answers cancels).2 ∧
    (∀ k, brokeOff (answers.get k) = false) ∧
    (n.carryOut r).2.announced =
      ((r.play answers cancels).1.filterMap Deed.event?).reverse ++ n.announced ∧
    (n.carryOut r).2.logged =
      ((r.play answers cancels).1.filterMap Deed.entry?).reverse ++ n.logged := by
  induction r generalizing n with
  | done b =>
      exact ⟨.const (.error (.notFound "" "")), .const false, (Option.some.inj h).symm,
        fun _ => rfl, rfl, rfl⟩
  | attempt b next ih =>
      obtain ⟨answer, store, ids, hattempt⟩ := n.exists_refreshOnce b
      rw [carryOut_attempt, hattempt] at h ⊢
      by_cases hbroke : brokeOff answer = true
      · rw [if_pos hbroke] at h
        contradiction
      · rw [if_neg hbroke] at h ⊢
        obtain ⟨answers, cancels, hvalue, hsound, hplay⟩ := ih answer { n with store, ids } h
        refine ⟨.cons answer answers, cancels, hvalue, fun k => ?_, hplay⟩
        cases k with
        | zero => exact Bool.eq_false_iff.2 hbroke
        | succ k => exact hsound k
  | pause span next ih =>
      obtain ⟨answers, cancels, hplay⟩ := ih n.cancelled n h
      exact ⟨answers, .cons n.cancelled cancels, hplay⟩
  | unlessCancelled next ih =>
      obtain ⟨answers, cancels, hplay⟩ := ih n.cancelled n h
      exact ⟨answers, .cons n.cancelled cancels, hplay⟩
  | announce e next ih =>
      obtain ⟨answers, cancels, hvalue, hsound, hannounced, hlogged⟩ := ih (n.announce e) h
      refine ⟨answers, cancels, hvalue, hsound, ?_, hlogged⟩
      rw [carryOut, hannounced]
      simp [Routine.play, Deed.event?, announce]
  | report entry next ih =>
      obtain ⟨answers, cancels, hvalue, hsound, hannounced, hlogged⟩ := ih (n.log entry) h
      refine ⟨answers, cancels, hvalue, hsound, hannounced, ?_⟩
      rw [carryOut, hlogged]
      simp [Routine.play, Deed.entry?, log]

namespace Maintainer

variable {m : Maintainer} {a : Id} {answers : Stream' (Except Fault RefreshOutcome)}
  {cancels : Stream' Bool} {j k n : ℕ}

/-! ### The course of the attempts -/

/-- The attempt with the given number, counted from one, ends the refresh: it succeeds, it fails for
a reason that will not pass, no more attempts are allowed, or the wait after it is broken off. -/
def IsLast (m : Maintainer) (answers : Stream' (Except Fault RefreshOutcome))
    (cancels : Stream' Bool) (k : ℕ) : Prop :=
  1 ≤ k ∧
    ((∃ o, answers.get (k - 1) = .ok o) ∨
      (∃ f, answers.get (k - 1) = .error f ∧ f.isRetryable = false) ∨
      max 1 m.maxAttempts ≤ k ∨ cancels.get (k - 1) = true)

/-- So many attempts, each with the whole wait after it. -/
def rounds (m : Maintainer) (a : Id) (k : ℕ) : List Deed :=
  (List.range k).flatMap fun i => [.called a, .waited (m.backoff (i + 1)) false]

/-- What is announced at the end of so many attempts, the last of which had the answer. -/
def outcomeEvent (a : Id) (n : ℕ) : Except Fault RefreshOutcome → Event
  | .ok o => .authority (.refreshed a o.collection o.added o.removed)
  | .error f => .authority (.refreshFailed a f.message n)

/-- What follows the last of so many attempts.  Where one more would have been made, a wait was
broken off. -/
def ending (m : Maintainer) (a : Id) (n : ℕ) (answer : Except Fault RefreshOutcome) : List Deed :=
  (match answer with
    | .ok _ => []
    | .error f =>
      (if f.isRetryable && n < m.maxAttempts then [.waited (m.backoff n) true] else []) ++
        [.reported (.refreshFailed a n f)]) ++
    [.announced (outcomeEvent a n answer)]

/-- The refresh is over after `n` attempts, with what was done in its course and with its answer. -/
structure Tried (m : Maintainer) (a : Id) (answers : Stream' (Except Fault RefreshOutcome))
    (cancels : Stream' Bool) (n : ℕ) (course : List Deed × Except Fault RefreshOutcome) :
    Prop where
  /-- The first attempt that gives a reason to stop is the last. -/
  last : IsLeast {k | m.IsLast answers cancels k} n
  answer : course.2 = answers.get (n - 1)
  deeds : course.1 = m.rounds a (n - 1) ++ .called a :: m.ending a n (answers.get (n - 1))
  calls : course.1.filterMap Deed.call? = List.replicate n a
  /-- Between the calls each wait runs its time. -/
  waits : course.1.filterMap Deed.wait? = (List.range (n - 1)).map fun i => m.backoff (i + 1)
  /-- The end is announced once. -/
  events : course.1.filterMap Deed.event? = [outcomeEvent a n (answers.get (n - 1))]

theorem rounds_succ (m : Maintainer) (a : Id) (k : ℕ) :
    m.rounds a (k + 1) = m.rounds a k ++ [.called a, .waited (m.backoff (k + 1)) false] := by
  simp only [rounds, List.range_succ, List.flatMap_append, List.flatMap_singleton]

theorem calls_rounds (m : Maintainer) (a : Id) (k : ℕ) :
    (m.rounds a k).filterMap Deed.call? = List.replicate k a := by
  induction k with
  | zero => rfl
  | succ k ih =>
      rw [rounds_succ, List.filterMap_append, ih, List.replicate_succ']
      rfl

theorem waits_rounds (m : Maintainer) (a : Id) (k : ℕ) :
    (m.rounds a k).filterMap Deed.wait? = (List.range k).map fun i => m.backoff (i + 1) := by
  induction k with
  | zero => rfl
  | succ k ih =>
      rw [rounds_succ, List.filterMap_append, ih, List.range_succ, List.map_append]
      rfl

theorem events_rounds (m : Maintainer) (a : Id) (k : ℕ) :
    (m.rounds a k).filterMap Deed.event? = [] := by
  induction k with
  | zero => rfl
  | succ k ih =>
      rw [rounds_succ, List.filterMap_append, ih]
      rfl

/-- The ending calls nothing, waits for no time to its end, and announces once. -/
theorem ending_views (m : Maintainer) (a : Id) (n : ℕ) (answer : Except Fault RefreshOutcome) :
    (m.ending a n answer).filterMap Deed.call? = [] ∧
    (m.ending a n answer).filterMap Deed.wait? = [] ∧
    (m.ending a n answer).filterMap Deed.event? = [outcomeEvent a n answer] := by
  cases answer with
  | ok o => exact ⟨rfl, rfl, rfl⟩
  | error f =>
      simp only [ending]
      cases f.isRetryable && n < m.maxAttempts <;> exact ⟨rfl, rfl, rfl⟩

/-! ### One attempt after another -/

/-- An attempt that is not the last brings a whole wait and the next attempt. -/
theorem retryFrom_play_succ (h : ¬ m.IsLast answers cancels (j + 1)) :
    (m.retryFrom a (j + 1) (m.maxAttempts - 1 - j)).play (answers.drop j) (cancels.drop j) =
      ((m.retryFrom a (j + 2) (m.maxAttempts - 1 - (j + 1))).play (answers.drop (j + 1))
        (cancels.drop (j + 1))).map
          ([.called a, .waited (m.backoff (j + 1)) false] ++ ·) id := by
  simp only [IsLast, Nat.add_sub_cancel, not_and, not_or, not_exists] at h
  obtain ⟨hfails, hretryable, hallowed, hgoing⟩ := h (by omega)
  obtain ⟨left, hleft⟩ : ∃ left, m.maxAttempts - 1 - j = left + 1 :=
    Nat.exists_eq_succ_of_ne_zero (by omega)
  have hnext : m.maxAttempts - 1 - (j + 1) = left := by omega
  cases hanswer : answers.get j with
  | ok o => exact absurd hanswer (hfails o)
  | error f =>
      have hf : f.isRetryable = true := by simpa using hretryable f hanswer
      have hcancel : cancels.get j = false := by simpa using hgoing
      rw [hleft, hnext, retryFrom, Routine.play, Stream'.head_drop, Stream'.tail_drop', hanswer]
      simp only [hf, if_true, Routine.play, Stream'.head_drop, Stream'.tail_drop', hcancel,
        Bool.false_eq_true, if_false]
      rfl

/-- The last attempt brings the end. -/
theorem retryFrom_play_last (h : m.IsLast answers cancels (j + 1)) :
    (m.retryFrom a (j + 1) (m.maxAttempts - 1 - j)).play (answers.drop j) (cancels.drop j) =
      (.called a :: m.ending a (j + 1) (answers.get j), answers.get j) := by
  obtain ⟨-, hlast⟩ := h
  rw [Nat.add_sub_cancel] at hlast
  cases hleft : m.maxAttempts - 1 - j with
  | zero =>
      have hnoMore : ¬ j + 1 < m.maxAttempts := by omega
      rw [retryFrom, Routine.play, Stream'.head_drop, Stream'.tail_drop']
      cases answers.get j with
      | ok o => rfl
      | error f => simp [ending, hnoMore, Routine.giveUp, Routine.play, outcomeEvent]
  | succ left =>
      have hmore : j + 1 < m.maxAttempts := by omega
      rw [retryFrom, Routine.play, Stream'.head_drop, Stream'.tail_drop']
      cases hanswer : answers.get j with
      | ok o => rfl
      | error f =>
          cases hf : f.isRetryable with
          | false => simp [hf, ending, Routine.giveUp, Routine.play, outcomeEvent]
          | true =>
              -- only cancellation is left as a reason to stop
              have hcancel : cancels.get j = true := by
                rcases hlast with ⟨o, ho⟩ | ⟨g, hg, hfinal⟩ | hend | hcancel
                · cases ho.symm.trans hanswer
                · cases hg.symm.trans hanswer
                  cases hf.symm.trans hfinal
                · omega
                · exact hcancel
              simp [hf, hcancel, hmore, ending, Routine.giveUp, Routine.play, outcomeEvent]

/-- **Attempts that are not the last bring the next**, each after its whole wait. -/
theorem retry_play (hnone : ∀ k, 1 ≤ k → k ≤ j → ¬ m.IsLast answers cancels k) :
    (m.retry a).play answers cancels =
      ((m.retryFrom a (j + 1) (m.maxAttempts - 1 - j)).play (answers.drop j)
        (cancels.drop j)).map (m.rounds a j ++ ·) id := by
  induction j with
  | zero => rfl
  | succ j ih =>
      have hbefore : ∀ k, 1 ≤ k → k ≤ j → ¬ m.IsLast answers cancels k := by
        intro k hk hkj
        exact hnone k hk (by omega)
      have hnot : ¬ m.IsLast answers cancels (j + 1) := hnone (j + 1) (by omega) (Nat.le_refl _)
      rw [ih hbefore, retryFrom_play_succ hnot, Prod.map_map, rounds_succ]
      simp only [Function.comp_def, List.append_assoc]
      rfl

theorem exists_isLast (m : Maintainer) (answers : Stream' (Except Fault RefreshOutcome))
    (cancels : Stream' Bool) : ∃ n, IsLeast {k | m.IsLast answers cancels k} n := by
  classical
  have hsome : ∃ k, m.IsLast answers cancels k :=
    ⟨max 1 m.maxAttempts, Nat.le_max_left _ _, .inr (.inr (.inl (Nat.le_refl _)))⟩
  exact ⟨Nat.find hsome, Nat.isLeast_find hsome⟩

/-- **The first reason to stop decides.**  Whatever the attempts answer and whenever the upkeep is
cancelled, a refresh is over after the first attempt that succeeds, fails for a reason that will not
pass, is the last that is allowed, or has its wait broken off.  It waits its time after each attempt
before that one, has the answer of that one, and announces it once. -/
theorem retry_tried (m : Maintainer) (a : Id) (answers : Stream' (Except Fault RefreshOutcome))
    (cancels : Stream' Bool) :
    ∃ n, m.Tried a answers cancels n ((m.retry a).play answers cancels) := by
  obtain ⟨n, hlast⟩ := m.exists_isLast answers cancels
  obtain ⟨j, rfl⟩ : ∃ j, n = j + 1 := ⟨n - 1, by have := hlast.1.1; omega⟩
  have hnone : ∀ k, 1 ≤ k → k ≤ j → ¬ m.IsLast answers cancels k := by
    intro k _ hkj hk
    have hleast := hlast.2 hk
    omega
  have hplay : (m.retry a).play answers cancels =
      (m.rounds a j ++ .called a :: m.ending a (j + 1) (answers.get j), answers.get j) := by
    rw [retry_play hnone, retryFrom_play_last hlast.1]
    rfl
  obtain ⟨hcalls, hwaits, hevents⟩ := m.ending_views a (j + 1) (answers.get j)
  refine ⟨j + 1, ?_⟩
  rw [hplay]
  refine {
    last := hlast
    answer := rfl
    deeds := rfl
    calls := ?calls
    waits := ?waits
    events := ?events }
  case calls =>
    rw [List.filterMap_append, calls_rounds, List.filterMap_cons, hcalls, List.replicate_succ']
    rfl
  case waits =>
    rw [List.filterMap_append, waits_rounds, List.filterMap_cons, hwaits]
    exact List.append_nil _
  case events =>
    rw [List.filterMap_append, events_rounds, List.filterMap_cons, hevents]
    rfl

end Maintainer

end Anthology
