/-
**Operations that fail half way.**

A statement that fails finds the statements before it carried out.  In a batch the references in
front of the one that is refused have their slots by then; a collection that is made in its place
has its row when its slot is refused, and a refresh has made and linked a collection when one of its
slots is.  That nothing of it is left is due to the transaction alone.

Main definitions:

* `Anthology.Transaction.Interrupted` — rows had been written when the course failed.

Main results:

* `Anthology.Transaction.course_bind_eq_error` — where a chain fails;
* `Anthology.Transaction.course_appendMany_eq_error` — **a batch that is refused had been written up
  to the refused reference**;
* `Anthology.Transaction.exists_interrupted` — the operations do fail half way.
-/

import Anthology.Proofs.Transaction

set_option relaxedAutoImplicit false
set_option autoImplicit false

namespace Anthology

namespace Transaction

variable {α β : Type} {s t : Store} {now : Time} {fresh : ℕ → Id} {c : Id}

/-! ### Where a course fails -/

theorem course_bind_eq_error {x : Transaction α} {k : α → Transaction β} {f : Fault} :
    (x >>= k).course s = (.error f, t) ↔
      x.course s = (.error f, t) ∨
        ∃ a u, x.commit s = .ok (a, u) ∧ (k a).course u = (.error f, t) := by
  rw [course_bind, commit]
  rcases x.course s with ⟨_ | a, u⟩ <;> simp

/-- A statement that fails leaves the rows as it found them. -/
theorem course_look_bind_eq_error {g : Store → Except Fault α} {k : α → Transaction β}
    {f : Fault} :
    (look g >>= k).course s = (.error f, t) ↔
      (g s = .error f ∧ t = s) ∨ ∃ a, g s = .ok a ∧ (k a).course s = (.error f, t) := by
  rw [course_bind, look, course_statement]
  rcases g s with g | a <;> simp [bind, Except.bind, pure, Except.pure, eq_comm]

theorem course_write_bind_eq_error {g : Store → Except Fault Store} {k : Unit → Transaction β}
    {f : Fault} :
    (write g >>= k).course s = (.error f, t) ↔
      (g s = .error f ∧ t = s) ∨ ∃ u, g s = .ok u ∧ (k ()).course u = (.error f, t) := by
  rw [course_bind, write, course_statement]
  rcases g s with g | u <;> simp [bind, Except.bind, pure, Except.pure, eq_comm]

theorem course_pure_ne_error {a : α} {f : Fault} :
    (pure a : Transaction α).course s ≠ (.error f, t) := by
  intro h
  cases h

/-- A recount writes cached numbers only, also where it fails. -/
theorem course_refreshCounts_slots (cs : List Id) (s : Store) :
    ((refreshCounts now cs).course s).2.slots = s.slots := by
  induction cs generalizing s with
  | nil => rfl
  | cons c cs ih =>
      rw [refreshCounts, course_bind, course_statement]
      cases h : s.refreshCount now c with
      | error f => rfl
      | ok r =>
          obtain ⟨row, -, -, ht⟩ := Store.refreshCount_eq_ok.1 h
          refine (ih r.2).trans ?_
          rw [ht]
          rfl

theorem course_propagateIf_slots {affected : Bool} {x : Except Fault Unit}
    (h : (propagateIf now affected c).course s = (x, t)) : t.slots = s.slots := by
  have hslots : ((propagateIf now affected c).course s).2.slots = s.slots := by
    cases affected
    · rfl
    · exact course_refreshCounts_slots (s.upward c) s
  rwa [h] at hslots

/-- The references in front of the one that is refused have their slots by then, and so has one
behind which no number is left. -/
theorem course_appendFrom_eq_error [Arithmetic] {seqno : Int} {k : ℕ} {rs : List ItemRef}
    {f : Fault} (h : (appendFrom now fresh c seqno k rs).course s = (.error f, t)) :
    ∃ done rest, rs = done ++ rest ∧ (done = [] ∨ 0 < seqno) ∧
      t.slots.rows = s.slots.rows ++ Store.appended now fresh c seqno k done := by
  induction rs generalizing s seqno k with
  | nil => exact absurd h course_pure_ne_error
  | cons r rs ih =>
      have hrefused : t = s → ∃ done rest, r :: rs = done ++ rest ∧ (done = [] ∨ 0 < seqno) ∧
          t.slots.rows = s.slots.rows ++ Store.appended now fresh c seqno k done := by
        rintro rfl
        exact ⟨[], r :: rs, rfl, .inl rfl, (List.append_nil _).symm⟩
      rcases course_look_bind_eq_error.1 h with ⟨-, ht⟩ | ⟨_, -, h⟩
      · exact hrefused ht
      rcases course_look_bind_eq_error.1 h with ⟨-, ht⟩ | ⟨_, -, h⟩
      · exact hrefused ht
      rcases course_write_bind_eq_error.1 h with ⟨-, ht⟩ | ⟨u, hinsert, h⟩
      · exact hrefused ht
      obtain ⟨hpos, -, -, slots, hrows, rfl⟩ :=
        Store.putSlot_eq_ok.1 (Store.insertSlot_eq_ok.1 hinsert).2
      rcases course_look_bind_eq_error.1 h with ⟨-, rfl⟩ | ⟨next, hnext, h⟩
      · refine ⟨[r], rs, rfl, .inr hpos, ?_⟩
        rw [Store.appended_cons]
        exact hrows
      rcases course_bind_eq_error.1 h with h | ⟨_, _, -, h⟩
      · obtain ⟨done, rest, rfl, hdone, hslots⟩ := ih h
        -- a number at the other end of the words was given to no slot
        have happended : Store.appended now fresh c next (k + 1) done =
            Store.appended now fresh c (seqno + 1) (k + 1) done := by
          rcases hdone with rfl | hdone
          · rfl
          · rw [(Word.next_of_pos hnext hdone).2]
        refine ⟨r :: done, rest, rfl, .inr hpos, ?_⟩
        rw [hslots, hrows, List.append_assoc, Store.appended_cons, happended]
        rfl
      · exact absurd h course_pure_ne_error

/-- **A batch that is refused had been written up to the refused reference.** -/
theorem course_appendMany_eq_error [Arithmetic] {rs : List ItemRef} {f : Fault}
    (h : (appendMany now fresh c rs).course s = (.error f, t)) :
    ∃ done rest, rs = done ++ rest ∧
      t.slots.rows = s.slots.rows ++ Store.appended now fresh c (s.maxSeqno c + 1) 0 done := by
  have hrefused : t = s → ∃ done rest, rs = done ++ rest ∧
      t.slots.rows = s.slots.rows ++ Store.appended now fresh c (s.maxSeqno c + 1) 0 done := by
    rintro rfl
    exact ⟨[], rs, rfl, (List.append_nil _).symm⟩
  rcases course_look_bind_eq_error.1 h with ⟨-, ht⟩ | ⟨_, -, h⟩
  · exact hrefused ht
  rcases course_bind_eq_error.1 h with h | ⟨slots, u, hu, h⟩
  · rcases course_look_bind_eq_error.1 h with ⟨-, ht⟩ | ⟨n, hn, h⟩
    · exact hrefused ht
    obtain ⟨done, rest, hrs, hdone, hslots⟩ := course_appendFrom_eq_error h
    rcases hdone with rfl | hdone
    · exact ⟨[], rest, hrs, hslots⟩
    · rw [(Store.nextPlace_of_pos hn hdone).2] at hslots
      exact ⟨done, rest, hrs, hslots⟩
  · -- all references have their slots, and the recount adds none
    rw [commit_appendRefs] at hu
    obtain ⟨rfl, ⟨table, hrows, rfl⟩, -⟩ := Store.appendRefs_eq_ok hu
    refine ⟨rs, [], (List.append_nil rs).symm, ?_⟩
    rcases course_bind_eq_error.1 h with h | ⟨_, _, -, h⟩
    · rw [course_propagateIf_slots h]
      exact hrows
    · exact absurd h course_pure_ne_error

/-- The course fails, and by then it has written collections or slots. -/
def Interrupted (x : Transaction α) (s : Store) : Prop :=
  (x.course s).1.isOk = false ∧
    s.collections.size + s.slots.size <
      (x.course s).2.collections.size + (x.course s).2.slots.size

instance {x : Transaction α} : Decidable (x.Interrupted s) := inferInstanceAs (Decidable (_ ∧ _))

/-- **Each of these operations may fail with rows written before**, in a store that operations lead
to: because a reference of the batch leads nowhere, or because an id is taken. -/
theorem exists_interrupted [i : Arithmetic] : ∃ s : Store, s.Reachable ∧
    (∃ fresh rs, (appendMany 0 fresh "shelf" rs).Interrupted s) ∧
    (∃ fresh, (addPeriodicalIssue 0 fresh "shelf" "Issue").Interrupted s) ∧
    (∃ fresh, (createPeriodicalWithIssue 0 fresh "Journal" "Issue").Interrupted s) ∧
    ∃ fresh, (refresh 0 fresh "author").Interrupted s := by
  obtain ⟨s, hrun, hbatch, hissue, hperiodical, hrefresh⟩ : ∃ s,
      Operation.runAll .empty (Operation.authored ++ [
        .createCollection (.create "shelf" 0 "Shelf" .other),
        .addItem 0 "slot" "shelf" .empty .unset]) = .ok s ∧
      (appendMany 0 (fun _ => "new") "shelf" [.empty, .collection "missing"]).Interrupted s ∧
      (addPeriodicalIssue 0 (fun _ => "slot") "shelf" "Issue").Interrupted s ∧
      (createPeriodicalWithIssue 0 (fun _ => "new") "Journal" "Issue").Interrupted s ∧
      (refresh 0 (fun _ => "slot") "author").Interrupted s :=
    -- the runs come to the same however sums are made
    exists_eq_ok_of_any (by rcases i with ⟨_ | _⟩ <;> decide +kernel)
  exact ⟨s, .runAll .empty hrun, ⟨_, _, hbatch⟩, ⟨_, hissue⟩, ⟨_, hperiodical⟩, _, hrefresh⟩

end Transaction

end Anthology
