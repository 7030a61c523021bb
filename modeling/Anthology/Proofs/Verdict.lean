/-
**The verdict on a cycle is exact.**

The guard is asked before a reference is written, about the store as it is then.  Two things might
therefore go wrong.  The walk might not come to an end, or end with the wrong answer, where there is
a cycle already.  And where a slot is pointed elsewhere or moved, the guard still sees the old
reference of the slot, which the write is about to take away; a way that leads through it might be
the only reason for a refusal.

Neither happens.  A search depth first, which drops what it has met before, ends on every store
after little more steps than there are slots, and with the verdict of the guard.  And a shortest way
from the new reference back to its owner uses no reference out of the owner and none to the target,
and the reference that the write takes away is one of these.

Main definitions:

* `Anthology.Walk.seek`, `Anthology.Store.search` — the search depth first, step by step;
* `Anthology.Store.Cyclic` — a collection contains itself;
* `Anthology.Placement` — the operations that put a reference somewhere, with and without the guard;
* `Anthology.Store.Rewired` — one reference more, and perhaps one less.

Main results:

* `Anthology.Walk.seek_spec` — the search ends, and finds exactly what can be reached;
* `Anthology.Store.guard_eq_error` — what the guard refuses, and with which fault;
* `Anthology.Store.Rewired.cyclic_iff` — the guard judges the store that will be;
* `Anthology.Store.refused_iff_cyclic` — **the verdict is exact**, that of the guard on every store
  and that of the operations on every store without a cycle.
-/

import Anthology.Proofs.Progress

set_option relaxedAutoImplicit false
set_option autoImplicit false

namespace Anthology

open Relation (ReflTransGen TransGen)

/-! ### Searching depth first -/

namespace Walk

variable {α : Type} [DecidableEq α] {next : α → List α} {goal : α}

/-- Whether `goal` is a neighbour of something that is met from the stack on, where `seen` was met
before.  The neighbours of what is newly met go on top of the stack, without those that were met
already.  There is no answer if the steps do not suffice. -/
def seek (next : α → List α) (goal : α) : ℕ → List α → List α → Option Bool
  | 0, _, _ => none
  | _ + 1, [], _ => some false
  | steps + 1, a :: stack, seen =>
    if a ∈ seen then seek next goal steps stack seen
    else if goal ∈ next a then some true
    else
      let onward := (next a).filter fun b => b ∉ seen ++ [a]
      seek next goal steps (onward.reverse ++ stack) (seen ++ [a])

/-- The answer of a search: yes, and the goal can be reached from the stack, or no, and it cannot,
neither from the stack nor from what was met before. -/
def Answered (next : α → List α) (goal : α) (stack seen : List α) (answer : Option Bool) : Prop :=
  (answer = some true ∧ ∃ a ∈ stack, TransGen (fun a b => b ∈ next a) a goal) ∨
    (answer = some false ∧ ∀ a, a ∈ seen ∨ a ∈ stack → ¬ TransGen (fun a b => b ∈ next a) a goal)

omit [DecidableEq α] in
/-- What is closed under neighbours, and has no goal among them, leads to no goal. -/
theorem not_transGen_of_closed {seen : List α}
    (hseen : ∀ a ∈ seen, goal ∉ next a ∧ ∀ b ∈ next a, b ∈ seen) {a : α} (ha : a ∈ seen) :
    ¬ TransGen (fun a b => b ∈ next a) a goal := by
  intro h
  induction h using TransGen.head_induction_on with
  | single h => exact (hseen _ ha).1 h
  | head h _ ih => exact ih ((hseen _ ha).2 _ h)

/-- **The search ends, with the right answer.**  Each element is expanded once, so where it has no
more neighbours than it occurs in the list `keys`, one step for each element of the stack, for each
key that was not met yet and for the empty stack is enough. -/
theorem seek_spec {keys : List α} (hkeys : ∀ a, (next a).length ≤ keys.count a) {steps : ℕ}
    {stack seen : List α}
    (hsteps : stack.length + (keys.filter fun k => decide (k ∉ seen)).length < steps)
    (hseen : ∀ a ∈ seen, goal ∉ next a ∧ ∀ b ∈ next a, b ∈ seen ∨ b ∈ stack) :
    Answered next goal stack seen (seek next goal steps stack seen) := by
  fun_induction seek next goal steps stack seen with
  | case1 => omega
  | case2 steps seen =>
      have hclosed : ∀ a ∈ seen, goal ∉ next a ∧ ∀ b ∈ next a, b ∈ seen := fun a ha =>
        ⟨(hseen a ha).1, fun b hb => ((hseen a ha).2 b hb).resolve_right List.not_mem_nil⟩
      refine .inr ⟨rfl, fun a ha => not_transGen_of_closed hclosed ?_⟩
      exact ha.resolve_right List.not_mem_nil
  | case3 steps a stack seen ha ih =>
      -- `a` was met before, so only the stack gets shorter
      have hstep : stack.length + (keys.filter fun k => decide (k ∉ seen)).length < steps := by
        simp only [List.length_cons] at hsteps
        omega
      have hrest : ∀ b, b ∈ seen ∨ b ∈ a :: stack → b ∈ seen ∨ b ∈ stack := by
        rintro b (hb | hb)
        · exact .inl hb
        · rcases List.mem_cons.1 hb with rfl | hb
          · exact .inl ha
          · exact .inr hb
      rcases ih hstep fun c hc => ⟨(hseen c hc).1, fun b hb => hrest b ((hseen c hc).2 b hb)⟩ with
        ⟨hyes, b, hb, hreach⟩ | ⟨hno, hnone⟩
      · exact .inl ⟨hyes, b, List.mem_cons_of_mem a hb, hreach⟩
      · exact .inr ⟨hno, fun b hb => hnone b (hrest b hb)⟩
  | case4 steps a stack seen ha hgoal =>
      exact .inl ⟨rfl, a, List.mem_cons_self, .single hgoal⟩
  | case5 steps a stack seen ha hgoal onward ih =>
      -- the keys that equal `a` pay for its neighbours
      have hspent : (keys.filter fun k => decide (k ∉ seen ++ [a])).length + keys.count a =
          (keys.filter fun k => decide (k ∉ seen)).length := length_filter_append_add_count ha
      have hstep : (onward.reverse ++ stack).length +
          (keys.filter fun k => decide (k ∉ seen ++ [a])).length < steps := by
        have hneighbours := hkeys a
        have honward : onward.length ≤ (next a).length := List.length_filter_le _ _
        simp only [List.length_cons, List.length_append, List.length_reverse] at hsteps ⊢
        omega
      have honward : ∀ b ∈ next a, b ∈ seen ++ [a] ∨ b ∈ onward.reverse ++ stack := by
        intro b hb
        by_cases hmet : b ∈ seen ++ [a]
        · exact .inl hmet
        · refine .inr (List.mem_append_left _ (List.mem_reverse.2 (List.mem_filter.2 ⟨hb, ?_⟩)))
          exact decide_eq_true hmet
      have hrest : ∀ b, b ∈ seen ∨ b ∈ a :: stack →
          b ∈ seen ++ [a] ∨ b ∈ onward.reverse ++ stack := by
        rintro b (hb | hb)
        · exact .inl (List.mem_append_left _ hb)
        · rcases List.mem_cons.1 hb with rfl | hb
          · exact .inl (List.mem_append_right _ List.mem_cons_self)
          · exact .inr (List.mem_append_right _ hb)
      have hseen' : ∀ c ∈ seen ++ [a],
          goal ∉ next c ∧ ∀ b ∈ next c, b ∈ seen ++ [a] ∨ b ∈ onward.reverse ++ stack := by
        intro c hc
        rcases List.mem_append.1 hc with hc | hc
        · exact ⟨(hseen c hc).1, fun b hb => hrest b ((hseen c hc).2 b hb)⟩
        · cases List.mem_singleton.1 hc
          exact ⟨hgoal, honward⟩
      rcases ih hstep hseen' with ⟨hyes, b, hb, hreach⟩ | ⟨hno, hnone⟩
      · refine .inl ⟨hyes, ?_⟩
        rcases List.mem_append.1 hb with hb | hb
        · have hba : b ∈ next a := (List.mem_filter.1 (List.mem_reverse.1 hb)).1
          exact ⟨a, List.mem_cons_self, .head hba hreach⟩
        · exact ⟨b, List.mem_cons_of_mem a hb, hreach⟩
      · exact .inr ⟨hno, fun b hb => hnone b (hrest b hb)⟩

end Walk

namespace Store

variable {s t : Store} {now : Time} {c d id o : Id} {r : ItemRef}

/-! ### The guard -/

theorem refers_eq (s : Store) : s.Refers = fun a b => b ∈ s.childrenOf a := by
  funext a b
  exact propext refers_iff

theorem transGen_refers_iff : TransGen s.Refers c d ↔ ∃ e, e ∈ s.childrenOf c ∧ s.Contains e d := by
  simp only [refers_eq, Relation.TransGen.head'_iff, contains_iff]

/-- What a collection contains is the collection itself, or it is reached through references. -/
theorem contains_iff_transGen : s.Contains c d ↔ c = d ∨ TransGen s.Refers c d := by
  rw [transGen_refers_iff]
  constructor
  · intro h
    cases h with
    | refl => exact .inl rfl
    | step h rest => exact .inr ⟨_, h, rest⟩
  · rintro (rfl | ⟨e, he, hed⟩)
    · exact .refl c
    · exact .step he hed

/-- **What the guard refuses**: a reference to the owner, or to a collection from which the owner is
reached. -/
theorem guard_eq_error {f : Fault} :
    s.guard c r = .error f ↔
      ∃ d, r = .collection d ∧ (d = c ∨ TransGen s.Refers d c) ∧ f = .cycle "item" c d := by
  cases r with
  | collection d => simp [guard, ensure_eq_error, mem_downward, contains_iff_transGen]
  | empty => simp [guard]
  | manifestation m => simp [guard]

theorem exists_guard_eq_error :
    (∃ f, s.guard c r = .error f) ↔ ∃ d, r = .collection d ∧ s.Contains d c := by
  simp only [guard_eq_error, contains_iff_transGen]
  exact ⟨fun ⟨_, d, hr, hd, _⟩ => ⟨d, hr, hd⟩, fun ⟨d, hr, hd⟩ => ⟨_, d, hr, hd, rfl⟩⟩

/-- Whether the collection `owner` is met depth first from `child` on, or is `child` itself, found
out in so many steps at most. -/
def search (s : Store) (owner child : Id) (steps : ℕ) : Option Bool :=
  if child = owner then some true else Walk.seek s.childrenOf owner steps [child] []

/-- **The search ends with the verdict of the guard**, also where there are cycles. -/
theorem search_ends (s : Store) (c d : Id) {steps : ℕ} (hsteps : s.slots.size + 2 ≤ steps) :
    ∃ found, s.search c d steps = some found ∧
      (found = true ↔ ∃ f, s.guard c (.collection d) = .error f) := by
  have hverdict : (∃ f, s.guard c (.collection d) = .error f) ↔
      d = c ∨ TransGen (fun a b => b ∈ s.childrenOf a) d c := by
    rw [exists_guard_eq_error, ← refers_eq, ← contains_iff_transGen]
    simp
  rw [hverdict, search]
  split
  · rename_i hself
    exact ⟨true, rfl, by simp [hself]⟩
  rename_i hother
  have hstart : [d].length + ((s.slots.rows.map Slot.owner).filter
      fun k => decide (k ∉ ([] : List Id))).length < steps := by
    have hle := List.length_filter_le (fun k => decide (k ∉ ([] : List Id)))
      (s.slots.rows.map Slot.owner)
    simp only [List.length_map, List.length_singleton] at hle ⊢
    simp only [Table.size] at hsteps
    omega
  have hspec : Walk.Answered s.childrenOf c [d] [] (Walk.seek s.childrenOf c steps [d] []) :=
    Walk.seek_spec s.length_childrenOf_le hstart (by simp)
  rcases hspec with ⟨hyes, e, he, hreach⟩ | ⟨hno, hnone⟩
  · cases List.mem_singleton.1 he
    exact ⟨true, hyes, by simp [hreach]⟩
  · have hreach := hnone d (.inr List.mem_cons_self)
    exact ⟨false, hno, by simp [hother, hreach]⟩

/-! ### One reference more, and perhaps one less -/

/-- A collection contains itself in one step or more. -/
def Cyclic (s : Store) : Prop := ∃ c, TransGen s.Refers c c

theorem acyclic_iff : s.Acyclic ↔ ¬ s.Cyclic := by
  simp only [Acyclic, Cyclic, transGen_refers_iff]
  push Not
  rfl

/-- A reference from `o` to `r` is written, and what is taken away for it, if anything, comes from
`o` too or leads to the same place. -/
structure Rewired (s t : Store) (o : Id) (r : ItemRef) : Prop where
  old : ∀ c d, t.Refers c d → s.Refers c d ∨ c = o ∧ r = .collection d
  new : ∀ d, r = .collection d → t.Refers o d
  lost : ∀ c d, s.Refers c d → t.Refers c d ∨ c = o ∨ r = .collection d

/-- A way that was there to the owner is still there, or there is one from the new target: its last
part, if what was taken away led to that target, and no part of it, if that came from the owner. -/
theorem Rewired.contains (h : Rewired s t o (.collection d)) (hco : s.Contains c o) :
    t.Contains c o ∨ t.Contains d o := by
  induction hco with
  | refl c => exact .inl (.refl c)
  | step hstep _ ih =>
      rcases ih h with hrest | hrest
      · rcases h.lost _ _ (refers_iff.2 hstep) with hkept | rfl | hr
        · exact .inl (.step (refers_iff.1 hkept) hrest)
        · exact .inl (.refl _)
        · cases hr
          exact .inr hrest
      · exact .inr hrest

/-- **The guard judges the store that will be**, although it looks at the one that is. -/
theorem Rewired.cyclic_iff (h : Rewired s t o r) (ha : ¬ s.Cyclic) :
    t.Cyclic ↔ ∃ f, s.guard o r = .error f := by
  rw [exists_guard_eq_error]
  constructor
  · intro hcyclic
    by_contra hguard
    push Not at hguard
    refine acyclic_iff.1 ((acyclic_iff.2 ha).of_edges hguard fun c d hd => ?_) hcyclic
    exact (h.old c d (refers_iff.2 hd)).imp refers_iff.1 id
  · rintro ⟨d, rfl, hdo⟩
    refine ⟨o, transGen_refers_iff.2 ⟨d, refers_iff.1 (h.new d rfl), ?_⟩⟩
    exact (h.contains hdo).elim id id

/-! ### Writes of one reference -/

theorem rewired_putSlot {x : Slot} (h : s.putSlot x = .ok t) : Rewired s t x.owner x.item := by
  obtain ⟨-, -, -, slots, hslots, rfl⟩ := putSlot_eq_ok.1 h
  have hmem : ∀ y, y ∈ slots.rows ↔ y ∈ s.slots.rows ∨ y = x := by simp [hslots]
  refine ⟨fun c d hcd => ?_, fun d hr => ⟨x, (hmem x).2 (.inr rfl), rfl, hr⟩, fun c d hcd => ?_⟩
  · obtain ⟨y, hy, howner, hitem⟩ := hcd
    rcases (hmem y).1 hy with hy | rfl
    · exact .inl ⟨y, hy, howner, hitem⟩
    · exact .inr ⟨howner.symm, hitem⟩
  · obtain ⟨y, hy, howner, hitem⟩ := hcd
    exact .inl ⟨y, (hmem y).2 (.inl hy), howner, hitem⟩

/-- A slot gets another target, or another owner, but not both. -/
theorem rewired_editSlot {f : Slot → Slot} {hf : ∀ x, (f x).id = x.id} {x : Slot}
    (hx : s.slot? id = some x) (hkeep : x.owner = (f x).owner ∨ (f x).item = x.item) :
    Rewired s (s.editSlot id f hf) (f x).owner (f x).item := by
  refine ⟨fun c d hcd => ?_, fun d hr => ⟨f x, mem_editSlot.2 (.inr ⟨x, hx, rfl⟩), rfl, hr⟩,
    fun c d hcd => ?_⟩
  · obtain ⟨y, hy, howner, hitem⟩ := hcd
    rcases mem_editSlot.1 hy with ⟨hy, -⟩ | ⟨z, hz, rfl⟩
    · exact .inl ⟨y, hy, howner, hitem⟩
    · cases hx.symm.trans hz
      exact .inr ⟨howner.symm, hitem⟩
  · obtain ⟨y, hy, howner, hitem⟩ := hcd
    by_cases hid : y.id = id
    · cases hx.symm.trans (slot?_eq_some.2 ⟨hy, hid⟩)
      exact .inr (hkeep.imp howner.symm.trans fun h => h.trans hitem)
    · exact .inl ⟨y, mem_editSlot.2 (.inl ⟨hy, hid⟩), howner, hitem⟩

theorem Relabelled.refers_iff (h : s.Relabelled t) : t.Refers c d ↔ s.Refers c d := by
  obtain ⟨f, hf, howner, hitem, -, rfl⟩ := h
  simp only [Refers, Table.rows_update, List.mem_map, exists_exists_and_eq_and, howner, hitem]

/-- Where the others make room for it first, a slot that is moved keeps its target. -/
theorem rewired_moved {dest : Id} {seqno : Int} {x : Slot} (hx : s.slot? id = some x) :
    Rewired s ((s.shiftFrom now dest seqno id).editSlot id (moved now dest seqno) fun _ => rfl)
      dest x.item := by
  have hfound : (s.shiftFrom now dest seqno id).slot? id = some x := by
    obtain ⟨hmem, hid⟩ := slot?_eq_some.1 hx
    exact slot?_eq_some.2 ⟨List.mem_map.2 ⟨x, hmem, if_neg fun h => h.2.2 hid⟩, hid⟩
  have hshift : s.Relabelled (s.shiftFrom now dest seqno id) := shiftFrom_relabelled s dest seqno id
  have hrewired : Rewired (s.shiftFrom now dest seqno id)
      ((s.shiftFrom now dest seqno id).editSlot id (moved now dest seqno) fun _ => rfl)
      dest x.item := rewired_editSlot hfound (.inr rfl)
  exact ⟨fun c d hcd => (hrewired.old c d hcd).imp_left hshift.refers_iff.1, hrewired.new,
    fun c d hcd => hrewired.lost c d (hshift.refers_iff.2 hcd)⟩

/-! ### Recounts -/

/-- A recount fails only because a collection is missing. -/
theorem refreshCounts_fault {cs : List Id} {f : Fault} (h : s.refreshCounts now cs = .error f) :
    f = .storage .noRow := by
  induction cs generalizing s with
  | nil => cases h
  | cons c cs ih =>
      rcases bind_eq_error.1 h with h | ⟨_, -, h⟩
      · unfold refreshCount at h
        split at h <;> cases h
        rfl
      · exact ih h

theorem propagateIf_fault {affected : Bool} {f : Fault}
    (h : s.propagateIf now affected c = .error f) : f = .storage .noRow := by
  unfold propagateIf at h
  split at h
  · exact refreshCounts_fault h
  · cases h

theorem exists_propagateIf (howned : s.Owned) (hc : s.hasCollection c = true) (affected : Bool) :
    ∃ t, s.propagateIf now affected c = .ok t ∧ t.slots = s.slots ∧ t.Owned ∧
      ∀ d, t.hasCollection d = s.hasCollection d := by
  refine ⟨_, propagateIf_eq_ok.2 ⟨fun _ d hd => hd.hasCollection howned hc, rfl⟩, rfl,
    fun x hx => ?_, fun d => recount_hasCollection⟩
  exact recount_hasCollection.trans (howned x hx)

theorem Owned.putSlot {x : Slot} (h : s.Owned) (hput : s.putSlot x = .ok t) : t.Owned := by
  obtain ⟨-, -, howner, slots, hslots, rfl⟩ := putSlot_eq_ok.1 hput
  intro y hy
  have hy' : y ∈ s.slots.rows ++ [x] := hslots ▸ hy
  rcases List.mem_append.1 hy' with hy' | hy'
  · exact h y hy'
  · exact List.mem_singleton.1 hy' ▸ howner

theorem Owned.editSlot {f : Slot → Slot} {hf : ∀ x, (f x).id = x.id} (h : s.Owned)
    (hplaced : ∀ x, s.slot? id = some x → s.hasCollection (f x).owner = true) :
    (s.editSlot id f hf).Owned := by
  intro y hy
  rcases mem_editSlot.1 hy with ⟨hy, -⟩ | ⟨x, hx, rfl⟩
  · exact h y hy
  · exact hplaced x hx

theorem Owned.relabelled (h : s.Owned) (hst : s.Relabelled t) : t.Owned := by
  obtain ⟨f, hf, howner, -, -, rfl⟩ := hst
  intro y hy
  obtain ⟨x, hx, rfl⟩ := List.mem_map.1 hy
  rw [howner]
  exact h x hx

end Store

/-! ### Operations that put a reference somewhere -/

/-- An operation that puts a reference somewhere, by a new slot or by one that is there. -/
inductive Placement where
  | add (id c : Id) (r : ItemRef) (a : SlotAttrs)
  | append (id c : Id) (r : ItemRef)
  | retarget (id : Id) (r : ItemRef)
  | transplant (id dest : Id) (rank : Int)

namespace Placement

open Store

variable {s t : Store} {now : Time}

def run [Arithmetic] (s : Store) (now : Time) : Placement → Except Fault (Slot × Store)
  | add id c r a => s.addItem now id c r a
  | append id c r => s.appendItem now id c r
  | retarget id r => s.retargetItem now id r
  | transplant id dest rank => s.transplant now id dest rank

/-- A new slot, where nothing looks for cycles. -/
def unguardedAdd [Arithmetic] (s : Store) (now : Time) (id c : Id) (r : ItemRef) (a : SlotAttrs) :
    Except Fault Store := do
  let _ ← s.requireCollection c
  s.requireTarget r
  let seqno ← s.placeFor c a.seqno
  s.insertSlot { Slot.create id now c r seqno with altTitle := a.altTitle, markdown := a.markdown }

/-- What the operation writes where nothing looks for cycles, before anything is counted anew.  Its
other checks are made. -/
def unguarded [Arithmetic] (s : Store) (now : Time) : Placement → Except Fault Store
  | add id c r a => unguardedAdd s now id c r a
  | append id c r => unguardedAdd s now id c r .unset
  | retarget id r => do
    let _ ← s.requireSlot id
    s.requireTarget r
    return s.editSlot id (pointed now r) (pointed_id r)
  | transplant id dest rank => do
    let _ ← s.requireSlot id
    let _ ← s.requireCollection dest
    let seqno ← seqnoAt (← s.readSlots dest) rank
    ensure (decide (0 < seqno)) (.violated .seqnoPositive)
    return (s.shiftFrom now dest seqno id).editSlot id (moved now dest seqno) (moved_id dest seqno)

/-- The outcome of an operation that asks the guard for a reference from `o` to `r`, writes `t` and
counts anew, where a recount is stopped only by a missing collection. -/
structure Guarded (s t : Store) (o : Id) (r : ItemRef) (outcome : Except Fault (Slot × Store)) :
    Prop where
  rewired : Rewired s t o r
  refused : ∀ f, s.guard o r = .error f → outcome = .error f
  fault : ∀ f, outcome = .error f → s.guard o r = .error f ∨ f = .storage .noRow
  passed : s.guard o r = .ok () → s.Owned → ∃ x s', outcome = .ok (x, s') ∧ s'.slots = t.slots

/-- The guard comes first, and the recounts come last. -/
theorem Guarded.of_bind {o : Id} {r : ItemRef} {x : Slot} {counted : Except Fault Store}
    {outcome : Except Fault (Slot × Store)} (rewired : Rewired s t o r)
    (h : outcome = s.guard o r >>= fun _ => counted >>= fun u => pure (x, u))
    (hfault : ∀ f, counted = .error f → f = .storage .noRow)
    (hcounted : s.Owned → ∃ u, counted = .ok u ∧ u.slots = t.slots) :
    Guarded s t o r outcome := by
  subst h
  refine ⟨rewired, fun f hf => ?_, fun f hf => ?_, fun hguard howned => ?_⟩
  · rw [hf]
    rfl
  · rcases bind_eq_error.1 hf with hf | ⟨_, -, hf⟩
    · exact .inl hf
    · rcases bind_eq_error.1 hf with hf | ⟨_, -, hf⟩
      · exact .inr (hfault f hf)
      · exact absurd hf pure_ne_error
  · obtain ⟨u, hu, hslots⟩ := hcounted howned
    rw [hguard, hu]
    exact ⟨x, u, rfl, hslots⟩

theorem guarded_add [Arithmetic] {id c : Id} {r : ItemRef} {a : SlotAttrs}
    (h : unguardedAdd s now id c r a = .ok t) : Guarded s t c r (s.addItem now id c r a) := by
  simp only [unguardedAdd, bind_eq_ok] at h
  obtain ⟨row, hrow, _, htarget, seqno, hseqno, hinsert⟩ := h
  generalize hx : { Slot.create id now c r seqno with
    altTitle := a.altTitle, markdown := a.markdown } = x at hinsert
  obtain ⟨-, hput⟩ := insertSlot_eq_ok.1 hinsert
  have hrewired : Rewired s t c r := by
    subst hx
    exact rewired_putSlot hput
  have hrun : s.addItem now id c r a = s.guard c r >>= fun _ =>
      t.propagateIf now r.affectsCount c >>= fun u => pure (x, u) := by
    rw [addItem, hrow, htarget, hseqno]
    show (s.guard c r >>= fun _ => s.insertSlot _ >>= _) = _
    rw [hx, hinsert]
    rfl
  refine .of_bind hrewired hrun (fun f hf => propagateIf_fault hf) fun howned => ?_
  have hc : t.hasCollection c = true := by
    obtain ⟨-, -, -, slots, -, rfl⟩ := putSlot_eq_ok.1 hput
    exact hasCollection_of_collection? (requireCollection_eq_ok.1 hrow)
  obtain ⟨u, hu, hslots, -⟩ := exists_propagateIf (howned.putSlot hput) hc r.affectsCount
  exact ⟨u, hu, hslots⟩

theorem guarded_retarget {id : Id} {r : ItemRef} {old : Slot} (hfound : s.requireSlot id = .ok old)
    (htarget : s.requireTarget r = .ok ()) :
    Guarded s (s.editSlot id (pointed now r) fun _ => rfl) old.owner r
      (s.retargetItem now id r) := by
  obtain ⟨hold, -⟩ := requireSlot_eq_ok.1 hfound
  have hrun : s.retargetItem now id r = s.guard old.owner r >>= fun _ =>
      (s.editSlot id (pointed now r) fun _ => rfl).propagateIf now
        (old.item.affectsCount || r.affectsCount) old.owner >>= fun u =>
          pure (pointed now r old, u) := by
    rw [retargetItem, hfound, htarget]
    rfl
  refine .of_bind (rewired_editSlot hold (.inl rfl)) hrun (fun f hf => propagateIf_fault hf)
    fun howned => ?_
  have hc : s.hasCollection old.owner = true := howned old (slot?_eq_some.1 hold).1
  have howned' : (s.editSlot id (pointed now r) fun _ => rfl).Owned :=
    howned.editSlot fun x hx => howned x (slot?_eq_some.1 hx).1
  obtain ⟨u, hu, hslots, -⟩ :=
    exists_propagateIf howned' hc (old.item.affectsCount || r.affectsCount)
  exact ⟨u, hu, hslots⟩

theorem guarded_transplant [Arithmetic] {id dest : Id} {rank n : Int} {old : Slot}
    (hfound : s.requireSlot id = .ok old) (hdest : s.hasCollection dest = true)
    (hread : s.readSlots dest = .ok (s.orderedSlots dest))
    (hn : seqnoAt (s.orderedSlots dest) rank = .ok n) (hpos : 0 < n) :
    Guarded s ((s.shiftFrom now dest n id).editSlot id (moved now dest n) fun _ => rfl) dest
      old.item (s.transplant now id dest rank) := by
  obtain ⟨hold, -⟩ := requireSlot_eq_ok.1 hfound
  generalize ht : ((s.shiftFrom now dest n id).editSlot id (moved now dest n) fun _ => rfl) = t
  have hrewired : Rewired s t dest old.item := ht ▸ rewired_moved hold
  have hrun : s.transplant now id dest rank = s.guard dest old.item >>= fun _ =>
      (t.propagateIf now (old.item.affectsCount && old.owner != dest) old.owner >>= fun u =>
        u.propagateIf now (old.item.affectsCount && old.owner != dest) dest) >>= fun u =>
          pure (moved now dest n old, u) := by
    obtain ⟨row, hrow⟩ := exists_requireCollection hdest
    rw [Store.transplant, hfound, hrow, hread, ← ht]
    show (s.guard dest old.item >>= fun _ => seqnoAt (s.orderedSlots dest) rank >>= _) = _
    rw [hn]
    show (s.guard dest old.item >>= fun _ => ensure (decide (0 < n)) _ >>= _) = _
    rw [(ensure_eq_ok (u := ())).2 (decide_eq_true hpos)]
    simp only [bind_assoc]
    rfl
  refine .of_bind hrewired hrun (fun f hf => ?_) fun howned => ?_
  · rcases bind_eq_error.1 hf with hf | ⟨_, -, hf⟩ <;> exact propagateIf_fault hf
  · have howned' : t.Owned := ht ▸ (howned.relabelled (shiftFrom_relabelled ..)).editSlot
      fun x _ => hdest
    have hsource : t.hasCollection old.owner = true := ht ▸ howned old (slot?_eq_some.1 hold).1
    have hdest' : t.hasCollection dest = true := ht ▸ hdest
    obtain ⟨u, hu, huslots, huowned, hhas⟩ :=
      exists_propagateIf howned' hsource (old.item.affectsCount && old.owner != dest)
    obtain ⟨v, hv, hvslots, -, -⟩ := exists_propagateIf huowned ((hhas dest).trans hdest')
      (old.item.affectsCount && old.owner != dest)
    exact ⟨v, bind_eq_ok.2 ⟨u, hu, hv⟩, hvslots.trans huslots⟩

/-- Each of the operations asks the guard about the reference that it is to write. -/
theorem exists_guarded [Arithmetic] {p : Placement} (h : p.unguarded s now = .ok t) :
    ∃ o r, Guarded s t o r (p.run s now) := by
  cases p with
  | add id c r a => exact ⟨c, r, guarded_add h⟩
  | append id c r => exact ⟨c, r, guarded_add h⟩
  | retarget id r =>
      simp only [unguarded, bind_eq_ok, requireSlot_eq_ok, pure_eq_ok] at h
      obtain ⟨old, hold, _, htarget, rfl⟩ := h
      exact ⟨old.owner, r, guarded_retarget (requireSlot_eq_ok.2 hold) htarget⟩
  | transplant id dest rank =>
      simp only [unguarded, bind_eq_ok, requireSlot_eq_ok, requireCollection_eq_ok, readSlots_eq_ok,
        ensure_eq_ok, decide_eq_true_eq, pure_eq_ok] at h
      obtain ⟨old, hold, row, hrow, _, ⟨hread, rfl⟩, n, hn, _, hpos, rfl⟩ := h
      exact ⟨dest, old.item, guarded_transplant (requireSlot_eq_ok.2 hold)
        (hasCollection_of_collection? hrow) (readSlots_eq_ok.2 ⟨hread, rfl⟩) hn hpos⟩

end Placement

namespace Store

/-- **The verdict on a cycle is exact.**  On every store, also on one with cycles, the guard refuses
exactly the references to the owner and to what the owner is reached from, and a search depth first
ends with its verdict.  On a store without a cycle an operation that puts a reference somewhere, and
whose other checks pass, is refused for a cycle exactly when there would be one after it; otherwise
it succeeds, as long as every slot belongs to a collection that exists. -/
theorem refused_iff_cyclic [Arithmetic] (s : Store) :
    (∀ c r f, s.guard c r = .error f ↔
      ∃ d, r = .collection d ∧ (d = c ∨ TransGen s.Refers d c) ∧ f = .cycle "item" c d) ∧
    (∀ c d steps, s.slots.size + 2 ≤ steps → ∃ found, s.search c d steps = some found ∧
      (found = true ↔ ∃ f, s.guard c (.collection d) = .error f)) ∧
    (¬ s.Cyclic → ∀ now (p : Placement) t, p.unguarded s now = .ok t →
      ((∃ c d, p.run s now = .error (.cycle "item" c d)) ↔ t.Cyclic) ∧
      (s.Owned → ¬ t.Cyclic → ∃ x s', p.run s now = .ok (x, s') ∧ s'.slots = t.slots)) := by
  refine ⟨fun c r f => guard_eq_error, fun c d steps hsteps => search_ends s c d hsteps,
    fun ha now p t ht => ?_⟩
  obtain ⟨o, r, hguarded⟩ := Placement.exists_guarded ht
  have hcyclic := hguarded.rewired.cyclic_iff ha
  constructor
  · rw [hcyclic]
    constructor
    · rintro ⟨c, d, hrun⟩
      rcases hguarded.fault _ hrun with hguard | hfault
      · exact ⟨_, hguard⟩
      · cases hfault
    · rintro ⟨f, hguard⟩
      obtain ⟨d, -, -, rfl⟩ := guard_eq_error.1 hguard
      exact ⟨o, d, hguarded.refused _ hguard⟩
  · intro howned hnot
    refine hguarded.passed ?_ howned
    cases hguard : s.guard o r with
    | ok => rfl
    | error f => exact absurd (hcyclic.2 ⟨f, hguard⟩) hnot

theorem refused_iff_cyclic_nested : ∃ s,
    Operation.runAll .empty [
      .createCollection (.create "series" 0 "Series" .series),
      .createCollection (.create "volume" 0 "Volume" .volume),
      .createCollection (.create "part" 0 "Part" .other),
      .addItem 0 "outer" "series" (.collection "volume") .unset,
      .addItem 0 "inner" "volume" (.collection "part") .unset] = .ok s ∧
    ¬ s.Cyclic ∧ s.Owned ∧
    -- the reference to the part would give way to one to the series
    (∃ t, (Placement.retarget "inner" (.collection "series")).unguarded s 1 = .ok t ∧ t.Cyclic ∧
      ∃ c d, s.retargetItem 1 "inner" (.collection "series") = .error (.cycle "item" c d)) ∧
    -- the part moves up
    ∃ t x s', (Placement.transplant "inner" "series" 1).unguarded s 1 = .ok t ∧ ¬ t.Cyclic ∧
      s.transplant 1 "inner" "series" 1 = .ok (x, s') ∧ s'.slots = t.slots := by
  obtain ⟨s, hrun, hretarget, htransplant, hpasses⟩ : ∃ s, Operation.runAll .empty [
      .createCollection (.create "series" 0 "Series" .series),
      .createCollection (.create "volume" 0 "Volume" .volume),
      .createCollection (.create "part" 0 "Part" .other),
      .addItem 0 "outer" "series" (.collection "volume") .unset,
      .addItem 0 "inner" "volume" (.collection "part") .unset] = .ok s ∧
      (((Placement.retarget "inner" (.collection "series")).unguarded s 1).toOption.any fun t =>
        decide (t.Refers "series" "volume" ∧ t.Refers "volume" "series")) = true ∧
      ((Placement.transplant "inner" "series" 1).unguarded s 1).isOk = true ∧
      (s.transplant 1 "inner" "series" 1).isOk = true := exists_eq_ok_of_any (by decide +kernel)
  have hreachable : s.Reachable := .runAll .empty hrun
  have ha : ¬ s.Cyclic := acyclic_iff.1 hreachable.acyclic
  obtain ⟨-, -, hverdict⟩ := refused_iff_cyclic s
  obtain ⟨t, ht, hdown, hup⟩ := exists_eq_ok_of_any hretarget
  have hcyclic : t.Cyclic := ⟨"series", .tail (.single hdown) hup⟩
  refine ⟨s, hrun, ha, hreachable.lawful.owner,
    ⟨t, ht, hcyclic, (hverdict ha 1 _ t ht).1.2 hcyclic⟩, ?_⟩
  cases hu : (Placement.transplant "inner" "series" 1).unguarded s 1 with
  | error f => simp [hu, Except.isOk, Except.toBool] at htransplant
  | ok u =>
      obtain ⟨hiff, hpassed⟩ := hverdict ha 1 _ u hu
      have hnot : ¬ u.Cyclic := by
        intro hcycle
        obtain ⟨c, d, hfault⟩ := hiff.2 hcycle
        rw [Placement.run] at hfault
        simp [hfault, Except.isOk, Except.toBool] at hpasses
      obtain ⟨x, s', hok, hslots⟩ := hpassed hreachable.lawful.owner hnot
      exact ⟨u, x, s', rfl, hnot, hok, hslots⟩

end Store

end Anthology
