/-
**Settings of the upkeep.**

A refresh that fails for a reason that may pass is tried again, up to a number of attempts in all.
The wait before the first repetition is set, and each further wait is twice as long as the one
before it.  The factor is a 32-bit word: from the 33rd attempt on it is the largest word, and a
wait that would pass the longest duration is that duration.

Main definitions:

* `Anthology.Maintainer` — the settings;
* `Anthology.Maintainer.backoff` — the wait after an attempt that failed;
* `Anthology.Maintainer.check` — refuses settings out of bounds.

Main results:

* `Anthology.Maintainer.backoff_mono` — later waits are never shorter.
-/

import Anthology.Duration
import Anthology.Fault
import Anthology.Word

set_option relaxedAutoImplicit false
set_option autoImplicit false

namespace Anthology

/-- Settings of the upkeep of uncollected collections. -/
@[ext] structure Maintainer where
  /-- The upkeep runs in the background from the start. -/
  enabled : Bool
  /-- How often a refresh is attempted in all. -/
  maxAttempts : Nat
  /-- The wait before the first repetition. -/
  initialBackoff : Duration
deriving DecidableEq

namespace Maintainer

def default : Maintainer := ⟨true, 5, .ofMillis 100⟩

instance : Inhabited Maintainer := ⟨default⟩

/-! ### Waits -/

/-- By what the first wait is multiplied after the given attempt, counted from one: it doubles from
attempt to attempt. -/
def factor (attempt : Nat) : Nat :=
  if attempt - 1 < 32 then 1 <<< (attempt - 1) else Word.count 32 - 1

/-- The wait after the given attempt, counted from one. -/
def backoff (m : Maintainer) (attempt : Nat) : Duration := m.initialBackoff.scale (factor attempt)

theorem factor_mono {a b : Nat} (h : a ≤ b) : factor a ≤ factor b := by
  unfold factor
  split
  · rename_i ha
    split
    · exact Word.count_mono (by omega)
    · have h31 : Word.count (a - 1) ≤ Word.count 31 := Word.count_mono (by omega)
      exact Nat.le_trans h31 (by decide)
  · have hb : ¬ b - 1 < 32 := by omega
    simp only [if_neg hb, Nat.le_refl]

theorem backoff_mono (m : Maintainer) {a b : Nat} (h : a ≤ b) :
    (m.backoff a).nanos ≤ (m.backoff b).nanos :=
  m.initialBackoff.scale_mono (factor_mono h)

/-! ### Bounds -/

open SettingsFault (refuseUnless)

/-- Refuses settings out of bounds. -/
def check (m : Maintainer) : Except SettingsFault Unit := do
  refuseUnless (m.maxAttempts != 0) "Maintainer max_attempts must be at least 1"
  refuseUnless (decide (m.maxAttempts ≤ 20)) "Maintainer max_attempts exceeds maximum of 20"
  refuseUnless (decide (m.initialBackoff.nanos ≤ 60 * nanosPerSecond))
    "Maintainer initial_backoff exceeds maximum of 60 seconds"

end Maintainer

end Anthology
