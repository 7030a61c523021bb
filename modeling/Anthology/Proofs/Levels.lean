/-
**Walks by levels go by distance.**

A walk by levels marks whatever it meets, and goes on with those elements only that pass a test.
What fails the test stays marked, but nothing is reached through it.  After `n` levels two things
are known of such a walk: the level holds exactly what is reached in `n` steps and not in fewer, and
of what passes the test exactly that is marked which is reached in at most `n` steps.

The rest follows from these two.  No element comes twice, because it has one distance.  None is
missed, because along a shortest way every distance up to the last occurs, so the walk meets an
empty level only when nothing is left.  And it does meet one, because every other level uses up
elements that pass the test and were not marked before.

Main definitions:

* `Anthology.Walk.Steps`, `Anthology.Walk.AtDistance`, `Anthology.Walk.distance` — ways of a given
  length and of the least length;
* `Anthology.Walk.Follows` — a level is expanded along a relation;
* `Anthology.Walk.Frontier` — what is known after so many levels.

Main results:

* `Anthology.Walk.Frontier.next` — what one more level does;
* `Anthology.Walk.pairwise_levels` — **no element comes twice, nor a farther one before a nearer**;
* `Anthology.Walk.mem_levels_iff` — **the walk finds exactly what can be reached**;
* `Anthology.Walk.levels_eq_of_le` — the walk ends by itself.
-/

import Anthology.Proofs.Containment
import Mathlib.Data.Finset.Card
import Mathlib.Order.Lattice.Nat

set_option relaxedAutoImplicit false
set_option autoImplicit false

namespace Anthology.Walk

open Relation (ReflTransGen)

variable {α : Type} {r : α → α → Prop} {a b c root : α} {m n : ℕ}

/-! ### Distances -/

/-- The element is reached from `a` in exactly so many steps. -/
inductive Steps (r : α → α → Prop) (a : α) : ℕ → α → Prop
  | here : Steps r a 0 a
  | onward {n : ℕ} {b c : α} (before : Steps r a n b) (step : r b c) : Steps r a (n + 1) c

theorem exists_steps_iff : (∃ n, Steps r a n b) ↔ ReflTransGen r a b := by
  constructor
  · rintro ⟨n, h⟩
    induction h with
    | here => exact .refl
    | onward _ step ih => exact ih.tail step
  · intro h
    induction h with
    | refl => exact ⟨0, .here⟩
    | tail _ step ih =>
        obtain ⟨n, h⟩ := ih
        exact ⟨n + 1, h.onward step⟩

theorem Steps.head (step : r a b) (h : Steps r b n c) : Steps r a (n + 1) c := by
  induction h with
  | here => exact Steps.here.onward step
  | onward _ last ih => exact ih.onward last

/-- A way back has the same length. -/
theorem Steps.swap (h : Steps r a n b) : Steps (Function.swap r) b n a := by
  induction h with
  | here => exact .here
  | onward _ step ih => exact ih.head step

theorem steps_swap_iff : Steps (Function.swap r) b n a ↔ Steps r a n b := ⟨Steps.swap, Steps.swap⟩

/-- The element is reached from `a` in so many steps, and not in fewer. -/
structure AtDistance (r : α → α → Prop) (a : α) (n : ℕ) (b : α) : Prop where
  steps : Steps r a n b
  least : ∀ m, Steps r a m b → n ≤ m

theorem AtDistance.unique (h : AtDistance r a m b) (h' : AtDistance r a n b) : m = n :=
  Nat.le_antisymm (h.least n h'.steps) (h'.least m h.steps)

theorem Steps.exists_atDistance (h : Steps r a m b) : ∃ n ≤ m, AtDistance r a n b := by
  classical
  have hsome : ∃ n, Steps r a n b := ⟨m, h⟩
  exact ⟨Nat.find hsome, Nat.find_min' hsome h, Nat.find_spec hsome,
    fun k hk => Nat.find_min' hsome hk⟩

/-- On a shortest way the last element but one is at a distance that is less by one. -/
theorem AtDistance.exists_before (h : AtDistance r a (n + 1) c) :
    ∃ b, AtDistance r a n b ∧ r b c := by
  obtain ⟨hsteps, hleast⟩ := h
  cases hsteps with
  | @onward _ b _ before step =>
      refine ⟨b, ⟨before, fun m hm => ?_⟩, step⟩
      have hle := hleast (m + 1) (hm.onward step)
      omega

/-- On a shortest way every distance up to the last occurs. -/
theorem AtDistance.exists_of_le (h : AtDistance r a m b) (hnm : n ≤ m) :
    ∃ c, AtDistance r a n c := by
  induction hk : m - n generalizing m b with
  | zero =>
      obtain rfl : n = m := by omega
      exact ⟨b, h⟩
  | succ k ih =>
      obtain ⟨m, rfl⟩ : ∃ l, m = l + 1 := ⟨m - 1, by omega⟩
      obtain ⟨c, hc, -⟩ := h.exists_before
      exact ih hc (by omega) (by omega)

/-- The length of a shortest way. -/
noncomputable def distance (r : α → α → Prop) (a b : α) : ℕ := sInf {n | Steps r a n b}

theorem AtDistance.distance_eq (h : AtDistance r a n b) : distance r a b = n := by
  have hsome : {n | Steps r a n b}.Nonempty := ⟨n, h.steps⟩
  have hleast : Steps r a (distance r a b) b := Nat.sInf_mem hsome
  exact Nat.le_antisymm (Nat.sInf_le h.steps) (h.least _ hleast)

/-- A way back is as short. -/
theorem distance_swap : distance (Function.swap r) b a = distance r a b := by
  simp only [distance, steps_swap_iff]

/-! ### One level -/

variable [DecidableEq α] {expand : List α → List α} {keep : α → Bool} {level seen : List α}

/-- A level is expanded to what its elements lead to; of this, what passes the test is what they
lead to along the relation. -/
def Follows (expand : List α → List α) (keep : α → Bool) (r : α → α → Prop) : Prop :=
  ∀ level b, b ∈ expand level ∧ keep b = true ↔ ∃ a ∈ level, r a b

/-- What a level leads to and was not marked before. -/
def found (expand : List α → List α) (level seen : List α) : List α :=
  (expand level).eraseDups.filter fun b => b ∉ seen

theorem mem_found : b ∈ found expand level seen ↔ b ∈ expand level ∧ b ∉ seen := by
  simp [found, List.mem_eraseDups]

theorem nodup_found : (found expand level seen).Nodup := (nodup_eraseDups _).filter _

theorem levels_cons (fuel : ℕ) : levels expand keep (fuel + 1) (a :: level) seen =
    (a :: level) :: levels expand keep fuel ((found expand (a :: level) seen).filter keep)
      (seen ++ found expand (a :: level) seen) := rfl

/-- The first level is that of the root alone. -/
theorem flatten_levels_root (fuel : ℕ) : (levels expand keep (fuel + 1) [root] seen).flatten =
    root :: (levels expand keep (fuel + 1) [root] seen).tail.flatten := rfl

/-- What is known after `n` levels from `root`. -/
structure Frontier (r : α → α → Prop) (keep : α → Bool) (root : α) (n : ℕ)
    (level seen : List α) : Prop where
  mem_level : ∀ b, b ∈ level ↔ AtDistance r root n b
  mem_seen : ∀ b, keep b = true → (b ∈ seen ↔ ∃ m ≤ n, Steps r root m b)
  nodup : level.Nodup

omit [DecidableEq α] in
theorem Frontier.start (r : α → α → Prop) (keep : α → Bool) (root : α) :
    Frontier r keep root 0 [root] [root] := by
  have hzero : ∀ b, Steps r root 0 b ↔ b = root := by
    intro b
    constructor
    · rintro ⟨⟩
      rfl
    · rintro rfl
      exact .here
  refine ⟨fun b => ?_, fun b _ => ?_, List.nodup_singleton root⟩
  · rw [List.mem_singleton, ← hzero]
    exact ⟨fun h => ⟨h, fun m _ => Nat.zero_le m⟩, AtDistance.steps⟩
  · simp [hzero]

/-- **One more level is one more step.** -/
theorem Frontier.next (hr : Follows expand keep r) (h : Frontier r keep root n level seen) :
    Frontier r keep root (n + 1) ((found expand level seen).filter keep)
      (seen ++ found expand level seen) := by
  have hlevel : ∀ b, b ∈ (found expand level seen).filter keep ↔
      AtDistance r root (n + 1) b := by
    intro b
    rw [List.mem_filter, mem_found]
    constructor
    · rintro ⟨⟨hexpand, hnew⟩, hkeep⟩
      obtain ⟨a, ha, hab⟩ := (hr level b).1 ⟨hexpand, hkeep⟩
      refine ⟨((h.mem_level a).1 ha).steps.onward hab, fun m hm =>
        Nat.lt_of_not_le fun hle => hnew ?_⟩
      exact (h.mem_seen b hkeep).2 ⟨m, hle, hm⟩
    · intro hb
      obtain ⟨a, ha, hab⟩ := hb.exists_before
      obtain ⟨hexpand, hkeep⟩ := (hr level b).2 ⟨a, (h.mem_level a).2 ha, hab⟩
      refine ⟨⟨hexpand, fun hold => ?_⟩, hkeep⟩
      obtain ⟨m, hle, hm⟩ := (h.mem_seen b hkeep).1 hold
      have hlt := hb.least m hm
      omega
  refine ⟨hlevel, fun b hkeep => ?_, nodup_found.filter keep⟩
  rw [List.mem_append]
  constructor
  · rintro (hold | hfound)
    · obtain ⟨m, hle, hm⟩ := (h.mem_seen b hkeep).1 hold
      exact ⟨m, by omega, hm⟩
    · exact ⟨n + 1, Nat.le_refl _, ((hlevel b).1 (List.mem_filter.2 ⟨hfound, hkeep⟩)).steps⟩
  · rintro ⟨m, hle, hm⟩
    obtain ⟨k, hk, hb⟩ := hm.exists_atDistance
    by_cases hkn : k ≤ n
    · exact .inl ((h.mem_seen b hkeep).2 ⟨k, hkn, hb.steps⟩)
    · -- what is no nearer is at the distance of the new level
      obtain rfl : k = n + 1 := by omega
      exact .inr (List.mem_filter.1 ((hlevel b).2 hb)).1

/-! ### All levels -/

theorem Frontier.of_mem_levels (hr : Follows expand keep r) {fuel : ℕ}
    (h : Frontier r keep root n level seen)
    (hb : b ∈ (levels expand keep fuel level seen).flatten) :
    ∃ m, n ≤ m ∧ AtDistance r root m b := by
  induction fuel generalizing n level seen with
  | zero => simp [levels] at hb
  | succ fuel ih =>
      cases level with
      | nil => simp at hb
      | cons a level =>
          rw [levels_cons, List.flatten_cons, List.mem_append] at hb
          rcases hb with hb | hb
          · exact ⟨n, Nat.le_refl n, (h.mem_level b).1 hb⟩
          · obtain ⟨m, hm, hdistance⟩ := ih (h.next hr) hb
            exact ⟨m, by omega, hdistance⟩

/-- **No element comes twice, nor a farther one before a nearer.** -/
theorem pairwise_levels (hr : Follows expand keep r) {fuel : ℕ}
    (h : Frontier r keep root n level seen) :
    (levels expand keep fuel level seen).flatten.Pairwise fun b c =>
      b ≠ c ∧ distance r root b ≤ distance r root c := by
  induction fuel generalizing n level seen with
  | zero => exact List.Pairwise.nil
  | succ fuel ih =>
      cases level with
      | nil => simp
      | cons a level =>
          have hhere : ∀ b ∈ a :: level, distance r root b = n := fun b hb =>
            ((h.mem_level b).1 hb).distance_eq
          rw [levels_cons, List.flatten_cons, List.pairwise_append]
          refine ⟨h.nodup.imp_of_mem fun hb hc hne => ⟨hne, ?_⟩, ih (h.next hr), ?_⟩
          · rw [hhere _ hb, hhere _ hc]
          · intro b hb c hc
            obtain ⟨m, hm, hc⟩ := (h.next hr).of_mem_levels hr hc
            have hlt : distance r root b < distance r root c := by
              rw [hhere b hb, hc.distance_eq]
              omega
            exact ⟨fun heq => hlt.ne (congrArg _ heq), hlt.le⟩

/-! ### Enough levels -/

variable {keys : Finset α}

/-- The elements that may still be found. -/
def unmarked (keys : Finset α) (seen : List α) : Finset α := keys.filter fun b => b ∉ seen

/-- A level that is not empty uses up elements that were unmarked. -/
theorem card_unmarked_lt (hkeys : ∀ b, keep b = true → b ∈ keys)
    (hnext : (found expand level seen).filter keep ≠ []) :
    (unmarked keys (seen ++ found expand level seen)).card < (unmarked keys seen).card := by
  obtain ⟨b, hb⟩ := List.exists_mem_of_ne_nil _ hnext
  obtain ⟨hfound, hkeep⟩ := List.mem_filter.1 hb
  refine Finset.card_lt_card ((Finset.ssubset_iff_of_subset fun c hc => ?_).2 ⟨b, ?_, ?_⟩)
  · obtain ⟨hc, hnot⟩ := Finset.mem_filter.1 hc
    exact Finset.mem_filter.2 ⟨hc, fun hold => hnot (List.mem_append_left _ hold)⟩
  · exact Finset.mem_filter.2 ⟨hkeys b hkeep, (mem_found.1 hfound).2⟩
  · exact fun hmem => (Finset.mem_filter.1 hmem).2 (List.mem_append_right _ hfound)

/-- **The walk ends by itself**: with one level for each element that may still be found it has met
an empty level, and more make no difference. -/
theorem levels_eq_of_le (hkeys : ∀ b, keep b = true → b ∈ keys) {fuel more : ℕ}
    (hfuel : level ≠ [] → (unmarked keys seen).card < fuel) (hle : fuel ≤ more) :
    levels expand keep more level seen = levels expand keep fuel level seen := by
  induction fuel generalizing level seen more with
  | zero =>
      have hnone : level = [] := by
        by_contra hne
        exact Nat.not_lt_zero _ (hfuel hne)
      rw [hnone, levels_nil, levels_nil]
  | succ fuel ih =>
      cases level with
      | nil => rw [levels_nil, levels_nil]
      | cons a level =>
          obtain ⟨more, rfl⟩ : ∃ k, more = k + 1 := ⟨more - 1, by omega⟩
          have hlt := hfuel (List.cons_ne_nil a level)
          rw [levels_cons, levels_cons, ih (fun hnext => ?_) (by omega)]
          have hused := card_unmarked_lt hkeys hnext
          omega

/-- With enough levels nothing is missed. -/
theorem Frontier.mem_levels (hr : Follows expand keep r) (hkeys : ∀ b, keep b = true → b ∈ keys)
    {fuel : ℕ} (h : Frontier r keep root n level seen)
    (hfuel : level ≠ [] → (unmarked keys seen).card < fuel) (hb : AtDistance r root m b)
    (hnm : n ≤ m) : b ∈ (levels expand keep fuel level seen).flatten := by
  -- something is at the distance of this level, so the walk has not ended
  obtain ⟨c, hc⟩ := hb.exists_of_le hnm
  have hsome : level ≠ [] := List.ne_nil_of_mem ((h.mem_level c).2 hc)
  induction fuel generalizing n level seen c with
  | zero => exact absurd (hfuel hsome) (Nat.not_lt_zero _)
  | succ fuel ih =>
      cases level with
      | nil => contradiction
      | cons a level =>
          rw [levels_cons, List.flatten_cons, List.mem_append]
          by_cases hhere : m = n
          · subst hhere
            exact .inl ((h.mem_level b).2 hb)
          · obtain ⟨c, hc⟩ := hb.exists_of_le (n := n + 1) (by omega)
            have hnext := (h.next hr).mem_level c |>.2 hc
            have hused : (unmarked keys (seen ++ found expand (a :: level) seen)).card <
                (unmarked keys seen).card := card_unmarked_lt hkeys (List.ne_nil_of_mem hnext)
            have hlt := hfuel hsome
            exact .inr (ih (h.next hr) (fun _ => by omega) (by omega) c hc
              (List.ne_nil_of_mem hnext))

/-- **The walk finds exactly what can be reached.** -/
theorem mem_levels_iff (hr : Follows expand keep r) (hkeys : ∀ b, keep b = true → b ∈ keys)
    {fuel : ℕ} (hfuel : keys.card < fuel) :
    b ∈ (levels expand keep fuel [root] [root]).flatten ↔ ReflTransGen r root b := by
  have hstart := Frontier.start r keep root
  rw [← exists_steps_iff]
  constructor
  · intro hb
    obtain ⟨m, -, hm⟩ := hstart.of_mem_levels hr hb
    exact ⟨m, hm.steps⟩
  · rintro ⟨m, hm⟩
    obtain ⟨k, -, hk⟩ := hm.exists_atDistance
    exact hstart.mem_levels hr hkeys
      (fun _ => (Finset.card_filter_le _ _).trans_lt hfuel) hk (Nat.zero_le k)

end Anthology.Walk
