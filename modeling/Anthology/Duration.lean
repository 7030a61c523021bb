/-
**Spans of time.**

A duration is a whole number of nanoseconds, at most `2 ^ 64 - 1` seconds and 999 999 999
nanoseconds.  The bound is part of the type, and arithmetic that would pass it stops there.

Main definitions:

* `Anthology.Duration` — a span of time within the bound;
* `Anthology.Duration.ofNanos` — the span of so many nanoseconds, or the longest one;
* `Anthology.Duration.scale` — a span taken so many times, or the longest one;
* `Anthology.Duration.waitMillis` — for how long a clock waits that ticks in milliseconds.

Main results:

* `Anthology.Duration.nanos_scale` — scaling is multiplication cut off at the bound;
* `Anthology.Duration.scale_mono` — a larger factor never gives a shorter span.
-/

import Anthology.Word

set_option relaxedAutoImplicit false
set_option autoImplicit false

namespace Anthology

/-! ### The type -/

/-- The nanoseconds of one second. -/
def nanosPerSecond : Nat := 1000000000

/-- The nanoseconds of the longest duration. -/
def maxNanos : Nat := (Word.count 64 - 1) * nanosPerSecond + (nanosPerSecond - 1)

/-- A span of time in nanoseconds. -/
@[ext] structure Duration where
  nanos : Nat
  nanos_le : nanos ≤ maxNanos
deriving DecidableEq

namespace Duration

/-- The span of `n` nanoseconds, or the longest one where `n` passes the bound. -/
def ofNanos (n : Nat) : Duration :=
  ⟨min n maxNanos, Nat.min_le_right _ _⟩

@[simp] theorem nanos_ofNanos (n : Nat) : (ofNanos n).nanos = min n maxNanos := rfl

instance : Inhabited Duration := ⟨ofNanos 0⟩

def ofSeconds (s : Nat) : Duration := ofNanos (s * nanosPerSecond)

def ofMillis (ms : Nat) : Duration := ofNanos (ms * 1000000)

/-- The span written as whole seconds and the nanoseconds left over. -/
def ofParts (seconds nanos : Nat) : Duration := ofNanos (seconds * nanosPerSecond + nanos)

/-- The whole seconds of a span. -/
def seconds (d : Duration) : Nat := d.nanos / nanosPerSecond

/-- The nanoseconds of a span past its last whole second. -/
def subsecond (d : Duration) : Nat := d.nanos % nanosPerSecond

theorem ofParts_seconds_subsecond (d : Duration) : ofParts d.seconds d.subsecond = d := by
  have h : d.seconds * nanosPerSecond + d.subsecond = d.nanos := by
    rw [seconds, subsecond, Nat.mul_comm]
    exact Nat.div_add_mod _ _
  ext
  rw [ofParts, nanos_ofNanos, h]
  exact Nat.min_eq_left d.nanos_le

/-! ### Arithmetic -/

/-- The span `d` taken `k` times, or the longest one. -/
def scale (d : Duration) (k : Nat) : Duration := ofNanos (d.nanos * k)

theorem nanos_scale (d : Duration) (k : Nat) : (d.scale k).nanos = min (d.nanos * k) maxNanos := rfl

theorem scale_mono (d : Duration) {j k : Nat} (h : j ≤ k) :
    (d.scale j).nanos ≤ (d.scale k).nanos := by
  have := Nat.mul_le_mul_left d.nanos h
  simp only [nanos_scale]
  omega

/-- The number of milliseconds after which a span has passed. -/
def ceilMillis (d : Duration) : Nat := (d.nanos + 999999) / 1000000

/-- The milliseconds of thirty years. -/
def thirtyYears : Nat := 30 * 365 * 86400 * 1000

/-- The number of milliseconds for which a clock that ticks in milliseconds waits.  No wait is
longer than thirty years. -/
def waitMillis (d : Duration) : Nat := min d.ceilMillis thirtyYears

/-- A clock never waits longer for a shorter span. -/
theorem waitMillis_mono {d e : Duration} (h : d.nanos ≤ e.nanos) : d.waitMillis ≤ e.waitMillis := by
  have : d.ceilMillis ≤ e.ceilMillis := Nat.div_le_div_right (by omega)
  simp only [waitMillis]
  omega

end Duration

end Anthology
