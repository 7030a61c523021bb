/-
**How long the waits are.**

The wait after an attempt is the first one times a power of two.  The power is cut off at the
largest word, and the product at the longest duration.  A duration is kept as whole seconds and the
nanoseconds past them, in words, and so the product is calculated in pieces: the nanoseconds are
multiplied, the whole seconds among them are carried over, and the seconds are multiplied and added.
Where one of the last two does not fit into a word the longest duration is taken.  That the
nanoseconds fit is not looked at.

It need not be, because less than a second taken less than `2 ^ 32` times is a number of nanoseconds
far below `2 ^ 64`.  And the pieces are the product: the seconds fit into a word exactly where the
product does not pass the longest duration.  So the waits double until one of the two bounds is
reached, and settings that keep to their own bounds reach neither.

Main definitions:

* `Anthology.Overflow`, `Anthology.Word.hold` — what does not fit into a word;
* `Anthology.Duration.scaleInWords` — the product in pieces;
* `Anthology.Maintainer.Doubling` — what is known of the waits.

Main results:

* `Anthology.Duration.scaleInWords_eq` — **the pieces are the product**, and always fit;
* `Anthology.Maintainer.factor_eq` — the factor is a power of two that is cut off;
* `Anthology.Maintainer.doubling` — **the waits double up to the two bounds**.
-/

import Anthology.Proofs.Settings
import Mathlib.Algebra.Group.Nat.Defs

set_option relaxedAutoImplicit false
set_option autoImplicit false

namespace Anthology

/-! ### Numbers that fit into a word -/

/-- What does not fit into a word, where that is looked for and where it is not. -/
inductive Overflow
  | noticed
  | unnoticed
deriving DecidableEq

namespace Word

theorem count_eq (bits : ℕ) : count bits = 2 ^ bits := Nat.one_shiftLeft bits

/-- The number, if a word of so many bits holds it. -/
def hold (bits : ℕ) (o : Overflow) (n : ℕ) : Except Overflow ℕ :=
  if n < count bits then .ok n else .error o

theorem hold_of_lt {bits n : ℕ} (o : Overflow) (h : n < count bits) : hold bits o n = .ok n :=
  if_pos h

theorem hold_of_le {bits n : ℕ} (o : Overflow) (h : count bits ≤ n) :
    hold bits o n = .error o := if_neg (Nat.not_lt.2 h)

end Word

/-! ### Products in pieces -/

namespace Duration

variable {d : Duration} {k : ℕ}

/-- The seconds and the nanoseconds of the span `d` taken `k` times. -/
def scaledParts (d : Duration) (k : ℕ) : Except Overflow (ℕ × ℕ) := do
  let nanos ← Word.hold 64 .unnoticed (d.subsecond * k)
  let whole ← Word.hold 64 .noticed (d.seconds * k)
  let seconds ← Word.hold 64 .noticed (whole + nanos / nanosPerSecond)
  return (seconds, nanos % nanosPerSecond)

/-- The span `d` taken `k` times, in words, or the longest one where that does not fit. -/
def scaleInWords (d : Duration) (k : ℕ) : Except Overflow Duration :=
  match d.scaledParts k with
  | .ok (seconds, nanos) => .ok (.ofParts seconds nanos)
  | .error .noticed => .ok (.ofNanos maxNanos)
  | .error .unnoticed => .error .unnoticed

/-- The seconds of a product, with those that are carried over. -/
def scaledSeconds (d : Duration) (k : ℕ) : ℕ := d.seconds * k + d.subsecond * k / nanosPerSecond

/-- **The pieces of a product make it up.** -/
theorem nanos_mul_eq (d : Duration) (k : ℕ) :
    d.nanos * k = d.scaledSeconds k * nanosPerSecond + d.subsecond * k % nanosPerSecond := by
  have hparts : d.seconds * nanosPerSecond + d.subsecond = d.nanos := Nat.div_add_mod' _ _
  calc d.nanos * k
      = d.seconds * k * nanosPerSecond + d.subsecond * k := by
        rw [← hparts, Nat.add_mul, Nat.mul_right_comm]
    _ = d.scaledSeconds k * nanosPerSecond + d.subsecond * k % nanosPerSecond := by
        rw [scaledSeconds, Nat.add_mul, Nat.add_assoc, Nat.div_add_mod']

/-- A product passes the longest duration exactly where its seconds do not fit into a word. -/
theorem nanos_mul_le_iff : d.nanos * k ≤ maxNanos ↔ d.scaledSeconds k < Word.count 64 := by
  have hrest : d.subsecond * k % nanosPerSecond < nanosPerSecond := Nat.mod_lt _ (by decide)
  rw [nanos_mul_eq, maxNanos, nanosPerSecond] at *
  have hcount := Word.count_pos 64
  omega

/-- The nanoseconds of a product fit into a word. -/
theorem subsecond_mul_lt (d : Duration) (hk : k < Word.count 32) :
    d.subsecond * k < Word.count 64 := by
  have hsubsecond : d.subsecond < nanosPerSecond := Nat.mod_lt _ (by decide)
  calc d.subsecond * k
      ≤ nanosPerSecond * Word.count 32 := Nat.mul_le_mul (Nat.le_of_lt hsubsecond) (Nat.le_of_lt hk)
    _ < Word.count 64 := by decide

/-- Where the seconds of a product fit into a word, its pieces are calculated. -/
theorem scaledParts_of_lt (hk : k < Word.count 32) (h : d.scaledSeconds k < Word.count 64) :
    d.scaledParts k = .ok (d.scaledSeconds k, d.subsecond * k % nanosPerSecond) := by
  have hwhole : d.seconds * k < Word.count 64 := Nat.lt_of_le_of_lt (Nat.le_add_right _ _) h
  refine bind_eq_ok.2 ⟨_, Word.hold_of_lt _ (d.subsecond_mul_lt hk), ?_⟩
  refine bind_eq_ok.2 ⟨_, Word.hold_of_lt _ hwhole, ?_⟩
  exact bind_eq_ok.2 ⟨_, Word.hold_of_lt _ h, rfl⟩

/-- Where they do not, that is noticed. -/
theorem scaledParts_of_le (hk : k < Word.count 32) (h : Word.count 64 ≤ d.scaledSeconds k) :
    d.scaledParts k = .error .noticed := by
  refine bind_eq_error.2 (.inr ⟨_, Word.hold_of_lt _ (d.subsecond_mul_lt hk), ?_⟩)
  by_cases hwhole : d.seconds * k < Word.count 64
  · refine bind_eq_error.2 (.inr ⟨_, Word.hold_of_lt _ hwhole, ?_⟩)
    exact bind_eq_error.2 (.inl (Word.hold_of_le _ h))
  · exact bind_eq_error.2 (.inl (Word.hold_of_le _ (Nat.not_lt.1 hwhole)))

/-- **The product in pieces is the product**, and no word overflows unnoticed. -/
theorem scaleInWords_eq (d : Duration) (hk : k < Word.count 32) :
    d.scaleInWords k = .ok (d.scale k) := by
  unfold scaleInWords
  by_cases h : d.scaledSeconds k < Word.count 64
  · rw [scaledParts_of_lt hk h, scale, nanos_mul_eq]
    rfl
  · have hpasses : maxNanos ≤ d.nanos * k := by
      have hle := (nanos_mul_le_iff (d := d) (k := k)).not.2 h
      omega
    rw [scaledParts_of_le hk (Nat.not_lt.1 h)]
    refine congrArg Except.ok (Duration.ext ?_)
    rw [nanos_scale, nanos_ofNanos, Nat.min_self, Nat.min_eq_right hpasses]

end Duration

/-! ### The factor -/

namespace Maintainer

variable {a : ℕ}

/-- **The factor is a power of two**, or the largest word where that is smaller. -/
theorem factor_eq (a : ℕ) : factor a = min (2 ^ (max a 1 - 1)) (Word.count 32 - 1) := by
  have hexponent : max a 1 - 1 = a - 1 := by omega
  rw [factor, hexponent, ← Word.count_eq]
  have hcount : Word.count 32 = 2 * Word.count 31 := Word.count_succ 31
  have hpos : 0 < Word.count 31 := Word.count_pos 31
  split
  · have hle : Word.count (a - 1) ≤ Word.count 31 := Word.count_mono (by omega)
    show Word.count (a - 1) = _
    omega
  · have hle : Word.count 32 ≤ Word.count (a - 1) := Word.count_mono (by omega)
    omega

theorem factor_lt (a : ℕ) : factor a < Word.count 32 := by
  have hpos := Word.count_pos 32
  rw [factor_eq]
  omega

theorem one_le_factor (a : ℕ) : 1 ≤ factor a := by
  rw [factor_eq]
  exact Nat.le_min.2 ⟨Nat.one_le_two_pow, by decide⟩

/-- Up to the 32nd attempt the factor is not cut off. -/
theorem factor_of_le (ha : a ≤ 32) : factor a = 2 ^ (max a 1 - 1) := by
  have hle : 2 ^ (max a 1 - 1) ≤ 2 ^ 31 := Nat.pow_le_pow_right (by decide) (by omega)
  rw [factor_eq, Nat.min_eq_left]
  exact Nat.le_trans hle (by decide)

/-- From one attempt to the next the factor doubles. -/
theorem factor_succ (hpos : 1 ≤ a) (ha : a ≤ 31) : factor (a + 1) = 2 * factor a := by
  obtain ⟨n, rfl⟩ : ∃ n, a = n + 1 := ⟨a - 1, by omega⟩
  rw [factor_of_le (by omega), factor_of_le (by omega), Nat.max_eq_left (by omega),
    Nat.max_eq_left (by omega)]
  exact Nat.pow_succ'

/-! ### The waits -/

/-- What is known of the waits, where `a` and `b` count attempts. -/
structure Doubling (m : Maintainer) : Prop where
  /-- Each is calculated in words, and none of these overflows unnoticed. -/
  calculated : ∀ a, m.initialBackoff.scaleInWords (factor a) = .ok (m.backoff a)
  /-- In nanoseconds it is the first wait times a power of two, with the power cut off at the
  largest word and the product at the longest duration. -/
  nanos : ∀ a, (m.backoff a).nanos =
    min (m.initialBackoff.nanos * min (2 ^ (max a 1 - 1)) (Word.count 32 - 1)) maxNanos
  mono : ∀ a b, a ≤ b → (m.backoff a).nanos ≤ (m.backoff b).nanos
  initial_le : ∀ a, m.initialBackoff.nanos ≤ (m.backoff a).nanos
  doubles : ∀ a, 1 ≤ a → a ≤ 31 → 2 * (m.backoff a).nanos ≤ maxNanos →
    (m.backoff (a + 1)).nanos = 2 * (m.backoff a).nanos
  /-- Neither bound is reached with settings that are not refused. -/
  within : m.check = .ok () → ∀ a ≤ m.maxAttempts,
    (m.backoff a).nanos = m.initialBackoff.nanos * 2 ^ (max a 1 - 1) ∧
      2 ^ (max a 1 - 1) < Word.count 32 - 1 ∧ (m.backoff a).nanos < maxNanos

/-- **The waits double up to the two bounds.** -/
theorem doubling (m : Maintainer) : m.Doubling := by
  refine {
    calculated := fun a => Duration.scaleInWords_eq _ (factor_lt a)
    nanos := ?nanos
    mono := fun a b => m.backoff_mono
    initial_le := ?initial_le
    doubles := ?doubles
    within := ?within }
  case nanos =>
    intro a
    rw [backoff, Duration.nanos_scale, factor_eq]
  case initial_le =>
    intro a
    have hproduct := Nat.mul_le_mul_left m.initialBackoff.nanos (one_le_factor a)
    rw [Nat.mul_one] at hproduct
    exact Nat.le_min.2 ⟨hproduct, m.initialBackoff.nanos_le⟩
  case doubles =>
    intro a hpos ha hfits
    simp only [backoff, Duration.nanos_scale, factor_succ hpos ha, Nat.mul_left_comm _ 2] at hfits ⊢
    omega
  case within =>
    intro hcheck a ha
    obtain ⟨⟨-, hattempts⟩, hminute⟩ := check_eq_ok.1 hcheck
    have hpower : 2 ^ (max a 1 - 1) ≤ 2 ^ 19 := Nat.pow_le_pow_right (by decide) (by omega)
    have hproduct : m.initialBackoff.nanos * 2 ^ (max a 1 - 1) < maxNanos :=
      calc m.initialBackoff.nanos * 2 ^ (max a 1 - 1)
          ≤ 60 * nanosPerSecond * 2 ^ 19 := Nat.mul_le_mul hminute hpower
        _ < maxNanos := by decide
    have hwait : (m.backoff a).nanos = m.initialBackoff.nanos * 2 ^ (max a 1 - 1) := by
      rw [backoff, Duration.nanos_scale, factor_of_le (by omega), Nat.min_eq_left]
      exact Nat.le_of_lt hproduct
    exact ⟨hwait, Nat.lt_of_le_of_lt hpower (by decide), hwait ▸ hproduct⟩

/-- The longest wait that settings allow is more than three hundred days, and the next one would be
twice that. -/
theorem doubling_minute : (⟨true, 20, .ofSeconds 60⟩ : Maintainer).check = .ok () ∧
    ((⟨true, 20, .ofSeconds 60⟩ : Maintainer).backoff 20).seconds = 31457280 ∧
    ((⟨true, 20, .ofSeconds 60⟩ : Maintainer).backoff 21).seconds = 62914560 := by
  have hdoubling := doubling ⟨true, 20, .ofSeconds 60⟩
  have hcheck : (⟨true, 20, .ofSeconds 60⟩ : Maintainer).check = .ok () := by decide
  obtain ⟨hlast, -, hbelow⟩ := hdoubling.within hcheck 20 (Nat.le_refl 20)
  have hnext := hdoubling.doubles 20 (by decide) (by decide) (hlast ▸ by decide)
  refine ⟨hcheck, ?_, ?_⟩
  · rw [Duration.seconds, hlast]
    decide
  · rw [Duration.seconds, hnext, hlast]
    decide

end Maintainer

end Anthology
