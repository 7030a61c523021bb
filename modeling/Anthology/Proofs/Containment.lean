/-
**Containment is what the walks find.**

The guard and the recount both walk along the slots with a bounded number of steps.  Here the bound
is shown to be enough: a walk expands each element once, and every slot is left by from one element
only, so the number of slots bounds the length of all queues together.  Therefore the walks find
exactly the collections below and above the one they start from, and the guard refuses exactly the
references that would close a cycle.

Main results:

* `Anthology.Walk.mem_visit_iff` — with enough steps a walk finds exactly what can be reached;
* `Anthology.Store.mem_downward`, `Anthology.Store.mem_upward` — the collections below and above;
* `Anthology.Store.guard_eq_ok` — what the guard lets pass;
* `Anthology.Store.Acyclic.of_edges` — **one guarded reference closes no cycle**.
-/

import Anthology.Proofs.Outcome
import Mathlib.Data.List.Count
import Mathlib.Logic.Relation

set_option relaxedAutoImplicit false
set_option autoImplicit false

namespace Anthology

open Relation (ReflTransGen)

/-! ### Lists without repetitions -/

theorem nodup_eraseDups {α : Type} [BEq α] [LawfulBEq α] (l : List α) : l.eraseDups.Nodup := by
  induction h : l.length using Nat.strongRecOn generalizing l with
  | ind n ih =>
      cases l with
      | nil => exact List.nodup_nil
      | cons a l =>
          have hle := List.length_filter_le (fun b => !b == a) l
          simp only [List.length_cons] at h
          rw [List.eraseDups_cons, List.nodup_cons]
          exact ⟨by simp [List.mem_eraseDups], ih _ (by omega) _ rfl⟩

/-! ### Walks find what can be reached -/

namespace Walk

variable {α : Type} [DecidableEq α] {next : α → List α}

/-- What a walk finds was visited before, or it can be reached from the queue. -/
theorem mem_visit_elim {fuel : ℕ} {todo seen : List α} {b : α}
    (h : b ∈ visit next fuel todo seen) :
    b ∈ seen ∨ ∃ a ∈ todo, ReflTransGen (fun a b => b ∈ next a) a b := by
  fun_induction visit next fuel todo seen with
  | case1 => exact .inl h
  | case2 => exact .inl h
  | case3 fuel a todo seen ha ih =>
      rcases ih h with hb | ⟨c, hc, hcb⟩
      · exact .inl hb
      · exact .inr ⟨c, List.mem_cons_of_mem a hc, hcb⟩
  | case4 fuel a todo seen ha ih =>
      rcases ih h with hb | ⟨c, hc, hcb⟩
      · rcases List.mem_append.1 hb with hb | hb
        · exact .inl hb
        · exact .inr ⟨a, List.mem_cons_self, List.mem_singleton.1 hb ▸ .refl⟩
      · rcases List.mem_append.1 hc with hc | hc
        · exact .inr ⟨c, List.mem_cons_of_mem a hc, hcb⟩
        · exact .inr ⟨a, List.mem_cons_self, .head hc hcb⟩

/-- The keys outside `seen` are those that equal a further element `a` and the others. -/
theorem length_filter_append_add_count {keys seen : List α} {a : α} (ha : a ∉ seen) :
    (keys.filter fun k => decide (k ∉ seen ++ [a])).length + keys.count a =
      (keys.filter fun k => decide (k ∉ seen)).length := by
  induction keys with
  | nil => rfl
  | cons k keys ih =>
      by_cases hk : k = a
      · subst hk
        have hout : k ∉ seen := ha
        simp only [List.mem_append, List.mem_singleton, or_true, not_true_eq_false, decide_false,
          Bool.false_eq_true, not_false_eq_true, List.filter_cons_of_neg, List.count_cons_self,
          hout, decide_true, List.filter_cons_of_pos, List.length_cons] at ih ⊢
        omega
      · by_cases hs : k ∈ seen
        · simp_all
        · simp_all
          omega

/-- Where each element has no more neighbours than it occurs in the list `keys`, one step for each
element of the queue and for each key that was not visited yet is enough: the walk works its queue
off, and what it has found in the end is closed under neighbours. -/
theorem visit_closed {keys : List α} (hkeys : ∀ a, (next a).length ≤ keys.count a) {fuel : ℕ}
    {todo seen : List α}
    (hfuel : todo.length + (keys.filter fun k => decide (k ∉ seen)).length ≤ fuel)
    (hseen : ∀ a ∈ seen, ∀ b ∈ next a, b ∈ seen ∨ b ∈ todo) :
    (∀ a ∈ todo, a ∈ visit next fuel todo seen) ∧
      ∀ a ∈ visit next fuel todo seen, ∀ b ∈ next a, b ∈ visit next fuel todo seen := by
  fun_induction visit next fuel todo seen with
  | case1 todo seen =>
      -- without steps left there is no queue either
      have htodo : todo = [] := List.length_eq_zero_iff.1 (by omega)
      subst htodo
      exact ⟨by simp, fun a ha b hb => (hseen a ha b hb).resolve_right List.not_mem_nil⟩
  | case2 fuel seen =>
      exact ⟨by simp, fun a ha b hb => (hseen a ha b hb).resolve_right List.not_mem_nil⟩
  | case3 fuel a todo seen ha ih =>
      -- `a` was visited before, so only the queue gets shorter
      have hstep : todo.length + (keys.filter fun k => decide (k ∉ seen)).length ≤ fuel := by
        simp only [List.length_cons] at hfuel
        omega
      obtain ⟨hsub, hclosed⟩ := ih hstep fun c hc b hb => by
        rcases hseen c hc b hb with h | h
        · exact .inl h
        · rcases List.mem_cons.1 h with rfl | h
          · exact .inl ha
          · exact .inr h
      refine ⟨fun c hc => ?_, hclosed⟩
      rcases List.mem_cons.1 hc with rfl | hc
      · exact mem_visit_of_mem ha
      · exact hsub c hc
  | case4 fuel a todo seen ha ih =>
      -- the keys that equal `a` pay for its neighbours
      have hspent : (keys.filter fun k => decide (k ∉ seen ++ [a])).length + keys.count a =
          (keys.filter fun k => decide (k ∉ seen)).length := length_filter_append_add_count ha
      have hstep : (todo ++ next a).length +
          (keys.filter fun k => decide (k ∉ seen ++ [a])).length ≤ fuel := by
        have := hkeys a
        simp only [List.length_cons, List.length_append] at hfuel ⊢
        omega
      obtain ⟨hsub, hclosed⟩ := ih hstep fun c hc b hb => by
        rcases List.mem_append.1 hc with hc | hc
        · rcases hseen c hc b hb with h | h
          · exact .inl (List.mem_append_left _ h)
          · rcases List.mem_cons.1 h with rfl | h
            · exact .inl (List.mem_append_right _ List.mem_cons_self)
            · exact .inr (List.mem_append_left _ h)
        · rw [List.mem_singleton.1 hc] at hb
          exact .inr (List.mem_append_right _ hb)
      refine ⟨fun c hc => ?_, hclosed⟩
      rcases List.mem_cons.1 hc with rfl | hc
      · exact mem_visit_of_mem (List.mem_append_right _ List.mem_cons_self)
      · exact hsub c (List.mem_append_left _ hc)

/-- **With enough steps a walk from one element finds exactly what can be reached from it.** -/
theorem mem_visit_iff {keys : List α} (hkeys : ∀ a, (next a).length ≤ keys.count a) {fuel : ℕ}
    (hfuel : keys.length + 1 ≤ fuel) {a b : α} :
    b ∈ visit next fuel [a] [] ↔ ReflTransGen (fun a b => b ∈ next a) a b := by
  constructor
  · intro h
    obtain ⟨c, hc, hcb⟩ := (mem_visit_elim h).resolve_left List.not_mem_nil
    rwa [List.mem_singleton.1 hc] at hcb
  · -- nothing was visited yet, so all keys are left to pay with
    have hstart : [a].length + (keys.filter fun k => decide (k ∉ ([] : List α))).length ≤ fuel := by
      have := List.length_filter_le (fun k => decide (k ∉ ([] : List α))) keys
      simp only [List.length_singleton]
      omega
    obtain ⟨htodo, hclosed⟩ := visit_closed hkeys hstart (by simp)
    intro h
    induction h with
    | refl => exact htodo a List.mem_cons_self
    | tail _ hbc ih => exact hclosed _ ih _ hbc

end Walk

namespace Store

variable {s t : Store} {c d e : Id}

/-! ### Containment -/

theorem contains_iff : s.Contains c d ↔ ReflTransGen (fun a b => b ∈ s.childrenOf a) c d := by
  constructor
  · intro h
    induction h with
    | refl => exact .refl
    | step h _ ih => exact .head h ih
  · intro h
    induction h using ReflTransGen.head_induction_on with
    | refl => exact .refl d
    | head h _ ih => exact .step h ih

theorem Contains.trans (h : s.Contains c d) (h' : s.Contains d e) : s.Contains c e :=
  contains_iff.2 ((contains_iff.1 h).trans (contains_iff.1 h'))

theorem Contains.mono (hst : ∀ c d, d ∈ s.childrenOf c → d ∈ t.childrenOf c)
    (h : s.Contains c d) : t.Contains c d := by
  induction h with
  | refl c => exact .refl c
  | step h _ ih => exact .step (hst _ _ h) ih

/-- A slot is left by from its owner only. -/
theorem length_childrenOf_le (s : Store) (c : Id) :
    (s.childrenOf c).length ≤ (s.slots.rows.map Slot.owner).count c := by
  calc (s.childrenOf c).length
      ≤ (s.slotsOf c).length := List.length_filterMap_le _ _
    _ = (s.slots.rows.map Slot.owner).count c := by
        rw [slotsOf, List.count, List.countP_map, List.countP_eq_length_filter]
        rfl

theorem length_eraseDups_le {α : Type} [BEq α] (l : List α) : l.eraseDups.length ≤ l.length := by
  induction h : l.length using Nat.strongRecOn generalizing l with
  | ind n ih =>
      cases l with
      | nil => simp
      | cons a l =>
          rw [List.eraseDups_cons, List.length_cons]
          simp only [List.length_cons] at h
          have hle := List.length_filter_le (fun b => !b == a) l
          have := ih _ (by omega) (l.filter fun b => !b == a) rfl
          omega

/-- A slot is left by upwards from what it refers to only. -/
theorem length_parentsOf_le (s : Store) (c : Id) :
    (s.parentsOf c).length ≤ (s.slots.rows.filterMap fun x => x.item.collection?).count c := by
  calc (s.parentsOf c).length
      ≤ ((s.slots.rows.filter fun x => x.item == .collection c).map Slot.owner).length := by
        rw [parentsOf, holdersOf, distinct, List.length_mergeSort]
        exact length_eraseDups_le _
    _ = (s.slots.rows.filterMap fun x => x.item.collection?).count c := by
        rw [List.length_map, List.count, List.countP_filterMap, List.countP_eq_length_filter]
        congr 1
        refine List.filter_congr fun x _ => ?_
        cases x.item <;> simp [ItemRef.collection?]

/-- **The walk downwards finds exactly what a collection contains.** -/
theorem mem_downward : d ∈ s.downward c ↔ s.Contains c d := by
  rw [downward, contains_iff]
  exact Walk.mem_visit_iff s.length_childrenOf_le (by simp [walkBound, Table.size])

/-- **The walk upwards finds exactly the collections that contain one.** -/
theorem mem_upward : d ∈ s.upward c ↔ s.Contains d c := by
  have hconverse : (fun a b => b ∈ s.parentsOf a) =
      Function.swap fun a b => b ∈ s.childrenOf a := by
    funext a b
    exact propext mem_childrenOf_iff_mem_parentsOf.symm
  rw [upward, contains_iff, ← Relation.reflTransGen_swap, ← hconverse]
  refine Walk.mem_visit_iff s.length_parentsOf_le ?_
  have := List.length_filterMap_le (fun x : Slot => x.item.collection?) s.slots.rows
  simp only [walkBound, Table.size]
  omega

/-! ### The guard -/

/-- **What the guard lets pass**: any reference but one to a collection that contains the owner. -/
theorem guard_eq_ok {r : ItemRef} {u : Unit} :
    s.guard c r = .ok u ↔ ∀ d, r = .collection d → ¬ s.Contains d c := by
  cases r with
  | collection d => simp [guard, ensure_eq_ok, mem_downward]
  | empty => simp [guard]
  | manifestation m => simp [guard]

/-! ### Stores without cycles -/

/-- With one more reference, from `o` to `r`, what contains another did so before, or it contains
`o`, and the other is contained in what `r` refers to. -/
theorem Contains.of_edges {o : Id} {r : ItemRef}
    (hst : ∀ c d, d ∈ t.childrenOf c → d ∈ s.childrenOf c ∨ c = o ∧ r = .collection d)
    (h : t.Contains c e) :
    s.Contains c e ∨ s.Contains c o ∧ ∃ d, r = .collection d ∧ s.Contains d e := by
  induction h with
  | refl c => exact .inl (.refl c)
  | @step c d e h _ ih =>
      rcases hst _ _ h with hold | ⟨rfl, rfl⟩
      · rcases ih with hde | ⟨hdo, hr⟩
        · exact .inl (.step hold hde)
        · exact .inr ⟨.step hold hdo, hr⟩
      · rcases ih with hde | ⟨-, hr⟩
        · exact .inr ⟨.refl c, d, rfl, hde⟩
        · exact .inr ⟨.refl c, hr⟩

/-- **One guarded reference closes no cycle.**  The other references may be fewer than before. -/
theorem Acyclic.of_edges {o : Id} {r : ItemRef} (ha : s.Acyclic)
    (hguard : ∀ d, r = .collection d → ¬ s.Contains d o)
    (hst : ∀ c d, d ∈ t.childrenOf c → d ∈ s.childrenOf c ∨ c = o ∧ r = .collection d) :
    t.Acyclic := by
  intro c d hd hdc
  rcases hst c d hd with hold | ⟨rfl, rfl⟩
  · -- the way back leads through the new reference, whose target then contains its owner
    rcases hdc.of_edges hst with hdc | ⟨hdo, f, hf, hfc⟩
    · exact ha c d hold hdc
    · exact hguard f hf (hfc.trans (.step hold hdo))
  · -- the new reference is the first on the way, and its target leads back to its owner
    rcases hdc.of_edges hst with hdc | ⟨hdc, -⟩
    · exact hguard d rfl hdc
    · exact hguard d rfl hdc

end Store

end Anthology
