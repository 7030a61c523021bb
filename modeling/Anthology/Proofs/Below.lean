/-
**Counting along a stack comes to an end.**

The works of a collection are counted along a stack.  What is reached along two ways is put there
twice and looked into twice, as it has to be.  But for the same reason the search for what can be
reached gives no bound here: nothing is marked, the walk would go round in a cycle for ever, and
without cycles it may still look into a collection far more often than there are slots.

It ends all the same where there are no cycles, and with the number of a recursion along the
containment that stops at a given depth.  What the walk has added up and what the stack is still
worth make the same sum at each turn.  And a collection may be given a weight, a power of the number
of slots whose exponent is the number of collections below it, which is more than the weights of all
collections that its slots refer to.

Main definitions:

* `Anthology.Store.countWithin` — the number of works by recursion, down to a given depth;
* `Anthology.Store.below`, `Anthology.Store.weight` — what bounds the turns of the walk.

Main results:

* `Anthology.Store.Acyclic.induction` — induction along the containment;
* `Anthology.Store.tally_eq` — what the walk adds up, from any stack;
* `Anthology.Store.Acyclic.countBelow_eq_within` — **the walk ends**, with the number of the
  recursion;
* `Anthology.Store.countBelow_childless` — a collection that refers to no other needs two turns.
-/

import Anthology.Proofs.Containment
import Mathlib.Algebra.Order.BigOperators.Group.List
import Mathlib.Algebra.Order.Ring.Nat
import Mathlib.Data.Finset.Card

set_option relaxedAutoImplicit false
set_option autoImplicit false

namespace Anthology

namespace Store

variable {s : Store} {c d : Id}

/-! ### The collections below -/

theorem mem_subCollections :
    d ∈ s.subCollections c ↔ d ∈ s.childrenOf c ∧ s.hasCollection d = true := List.mem_filter

/-- The collections that one contains, without itself. -/
def below (s : Store) (c : Id) : Finset Id :=
  (s.collections.rows.map Collection.id).toFinset.filter fun d => d ∈ s.downward c ∧ d ≠ c

theorem mem_below :
    d ∈ s.below c ↔ s.hasCollection d = true ∧ s.Contains c d ∧ d ≠ c := by
  rw [below, Finset.mem_filter, List.mem_toFinset, mem_downward, hasCollection_iff, List.mem_map]

theorem card_below_le (s : Store) (c : Id) : (s.below c).card ≤ s.collections.size := by
  calc (s.below c).card
      ≤ (s.collections.rows.map Collection.id).toFinset.card := Finset.card_filter_le _ _
    _ ≤ (s.collections.rows.map Collection.id).length := List.toFinset_card_le _
    _ = s.collections.size := List.length_map _

/-- Without cycles there is less below what a slot refers to than below its owner. -/
theorem Acyclic.card_below_lt (ha : s.Acyclic) (hd : d ∈ s.subCollections c) :
    (s.below d).card < (s.below c).card := by
  obtain ⟨hchild, hhas⟩ := mem_subCollections.1 hd
  have hne : d ≠ c := by
    rintro rfl
    exact ha d d hchild (.refl d)
  refine Finset.card_lt_card ((Finset.ssubset_iff_of_subset fun e he => ?_).2
    ⟨d, mem_below.2 ⟨hhas, .step hchild (.refl d), hne⟩, fun hself => ?_⟩)
  · obtain ⟨hhas', hde, -⟩ := mem_below.1 he
    refine mem_below.2 ⟨hhas', .step hchild hde, fun heq => ?_⟩
    -- what is below `d` and is `c` again would close a cycle
    exact ha c d hchild (heq ▸ hde)
  · exact (mem_below.1 hself).2.2 rfl

/-- **Induction along the containment.** -/
theorem Acyclic.induction {P : Id → Prop} (ha : s.Acyclic)
    (step : ∀ c, (∀ d ∈ s.subCollections c, P d) → P c) (c : Id) : P c := by
  induction hcard : (s.below c).card using Nat.strong_induction_on generalizing c with
  | _ k ih =>
      subst hcard
      exact step c fun d hd => ih _ (ha.card_below_lt hd) d rfl

/-! ### The recursion -/

/-- The works that are reached from a collection through at most `depth - 1` others, once for each
way down. -/
def countWithin (s : Store) : ℕ → Id → ℕ
  | 0, _ => 0
  | depth + 1, c => s.worksIn c + ((s.subCollections c).map (s.countWithin depth)).sum

/-- The number does not depend on the depth, as long as it goes beyond all collections below. -/
theorem Acyclic.countWithin_eq (ha : s.Acyclic) (c : Id) :
    ∀ {m n : ℕ}, (s.below c).card < m → (s.below c).card < n →
      s.countWithin m c = s.countWithin n c := by
  induction c using ha.induction with
  | step c ih =>
      intro m n hm hn
      obtain ⟨m, rfl⟩ : ∃ k, m = k + 1 := ⟨m - 1, by omega⟩
      obtain ⟨n, rfl⟩ : ∃ k, n = k + 1 := ⟨n - 1, by omega⟩
      have hsub : (s.subCollections c).map (s.countWithin m) =
          (s.subCollections c).map (s.countWithin n) := by
        refine List.map_congr_left fun d hd => ?_
        have hlt := ha.card_below_lt hd
        exact ih d hd (by omega) (by omega)
      rw [countWithin, countWithin, hsub]

/-- The number of works by recursion, so deep that it reaches everything below. -/
def countDeep (s : Store) (c : Id) : ℕ := s.countWithin (s.collections.size + 1) c

theorem Acyclic.countDeep_eq (ha : s.Acyclic) (c : Id) :
    s.countDeep c = s.worksIn c + ((s.subCollections c).map s.countDeep).sum := by
  have hsub : (s.subCollections c).map (s.countWithin s.collections.size) =
      (s.subCollections c).map s.countDeep := by
    refine List.map_congr_left fun d hd => ?_
    have hlt := ha.card_below_lt hd
    have hle := s.card_below_le c
    exact ha.countWithin_eq d (by omega) (by omega)
  rw [countDeep, countWithin, hsub]

/-! ### The walk along the stack -/

/-- What is still to be counted from a stack on. -/
def uncounted (s : Store) (stack : List Id) : ℕ := (stack.map s.countDeep).sum

/-- The weight of a collection, which is more than that of all collections its slots refer to. -/
def weight (s : Store) (c : Id) : ℕ := (s.slots.size + 1) ^ (s.below c).card

theorem length_subCollections_le (s : Store) (c : Id) :
    (s.subCollections c).length ≤ s.slots.size := by
  calc (s.subCollections c).length
      ≤ (s.childrenOf c).length := List.length_filter_le _ _
    _ ≤ (s.slotsOf c).length := List.length_filterMap_le _ _
    _ ≤ s.slots.size := List.length_filter_le _ _

theorem Acyclic.sum_weight_lt (ha : s.Acyclic) (c : Id) :
    ((s.subCollections c).map s.weight).sum < s.weight c := by
  cases hcard : (s.below c).card with
  | zero =>
      -- nothing is below, so the slots refer to no collection
      have hnone : s.subCollections c = [] := by
        refine List.eq_nil_iff_forall_not_mem.2 fun d hd => ?_
        have hlt := ha.card_below_lt hd
        omega
      rw [hnone]
      exact Nat.pow_pos (Nat.succ_pos _)
  | succ k =>
      have hle : ∀ n ∈ (s.subCollections c).map s.weight, n ≤ (s.slots.size + 1) ^ k := by
        intro n hn
        obtain ⟨d, hd, rfl⟩ := List.mem_map.1 hn
        have hlt := ha.card_below_lt hd
        exact Nat.pow_le_pow_right (Nat.succ_pos _) (by omega)
      calc ((s.subCollections c).map s.weight).sum
          ≤ (s.subCollections c).length * (s.slots.size + 1) ^ k := by
            simpa using List.sum_le_card_nsmul _ _ hle
        _ ≤ s.slots.size * (s.slots.size + 1) ^ k :=
            Nat.mul_le_mul_right _ (s.length_subCollections_le c)
        _ < (s.slots.size + 1) * (s.slots.size + 1) ^ k :=
            Nat.mul_lt_mul_of_pos_right (Nat.lt_succ_self _) (Nat.pow_pos (Nat.succ_pos _))
        _ = s.weight c := by rw [weight, hcard, pow_succ, Nat.mul_comm]

/-- A turn of the walk adds as much as it takes off the stack. -/
theorem Acyclic.uncounted_turn (ha : s.Acyclic) (c : Id) (stack : List Id) :
    s.worksIn c + s.uncounted ((s.subCollections c).reverse ++ stack) =
      s.uncounted (c :: stack) := by
  simp only [uncounted, List.map_append, List.map_reverse, List.sum_append, List.sum_reverse,
    List.map_cons, List.sum_cons, ha.countDeep_eq c]
  omega

/-- **The walk adds up what is still uncounted**, if it may take more turns than the stack has
weight. -/
theorem tally_eq (ha : s.Acyclic) {turns works : ℕ} {stack : List Id}
    (hturns : (stack.map s.weight).sum < turns) :
    s.tally turns stack works = some (works + s.uncounted stack) := by
  fun_induction tally s turns stack works with
  | case1 => omega
  | case2 turns works => rfl
  | case3 turns c stack works ih =>
      have hlt := ha.sum_weight_lt c
      rw [ih ?_, ← ha.uncounted_turn c stack, Nat.add_assoc]
      simp only [List.map_append, List.map_reverse, List.sum_append, List.sum_reverse,
        List.map_cons, List.sum_cons] at hturns ⊢
      omega

/-- **The walk ends**, with the number of the recursion. -/
theorem Acyclic.tally_of_turns (ha : s.Acyclic) (c : Id) {turns : ℕ}
    (hturns : (s.slots.size + 1) ^ s.collections.size < turns) :
    s.tally turns [c] 0 = some (s.countDeep c) := by
  have hweight : s.weight c ≤ (s.slots.size + 1) ^ s.collections.size :=
    Nat.pow_le_pow_right (Nat.succ_pos _) (s.card_below_le c)
  rw [tally_eq ha (by simpa using hweight.trans_lt hturns)]
  simp [uncounted]

/-- **The store counts as the recursion does**, where no collection contains itself. -/
theorem Acyclic.countBelow_eq_within (ha : s.Acyclic) (c : Id) :
    s.countBelow c = s.countWithin (s.collections.size + 1) c := by
  have hturns : (s.slots.size + 1) ^ s.collections.size < s.turns := Nat.lt_succ_self _
  rw [countBelow, ha.tally_of_turns c hturns, Option.getD_some, countDeep]

/-- A collection that refers to no other is counted in two turns, wherever there are cycles. -/
theorem countBelow_childless (h : s.subCollections c = []) : s.countBelow c = s.worksIn c := by
  obtain ⟨turns, hturns⟩ : ∃ k, s.turns = k + 2 :=
    Nat.exists_eq_add_of_le' (Nat.succ_le_succ (Nat.pow_pos (Nat.succ_pos _)))
  rw [countBelow, hturns, tally, h, List.reverse_nil, List.nil_append, tally, Nat.zero_add,
    Option.getD_some]

end Store

end Anthology
