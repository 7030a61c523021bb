/-
**How many pages there are.**

A page carries the number of all records and the number of all pages, and tells from the second
whether there is a page after it.  The number of pages is a quotient rounded up.  It is calculated
in a word of 64 bits and kept in one of 32, without a look at what is lost; so it is right as long
as the records fit on `2 ^ 32 - 1` pages.  Where they do not the number of pages starts from zero
again.  Then every page has a next one, but only the pages below the number that is left say so.

Main definitions:

* `Anthology.Page.Totals` — the totals of a page are right.

Main results:

* `Anthology.Page.totalPages_of` — the number of pages is the quotient rounded up, cut to a word;
* `Anthology.Page.isLeast_ceilDiv`, `Anthology.Page.lt_ceilDiv_iff` — what the quotient counts;
* `Anthology.Page.totals_iff` — **when the totals are right**;
* `Anthology.Page.totals_wrapped` — more records than pages can be counted.
-/

import Anthology.Page
import Mathlib.Algebra.Order.Floor.Div
import Mathlib.Order.Bounds.Basic

set_option relaxedAutoImplicit false
set_option autoImplicit false

namespace Anthology.Page

variable {α : Type} {items : List α} {total size n : ℕ} {r : PageRequest}

/-! ### The quotient -/

/-- The quotient rounded up is the least number of pages that hold all records. -/
theorem isLeast_ceilDiv (hsize : 0 < size) : IsLeast {k | total ≤ k * size} (total ⌈/⌉ size) := by
  have hleast := (gc_mul_ceilDiv hsize).isLeast_l (a := total)
  simpa only [Nat.mul_comm size] using hleast

/-- The pages that are counted are those that begin before the end. -/
theorem lt_ceilDiv_iff (hsize : 0 < size) : n < total ⌈/⌉ size ↔ n * size < total := by
  rw [← not_le, ceilDiv_le_iff_le_mul hsize, not_le, Nat.mul_comm]

/-- The number of pages fits into a word where the largest word of pages holds all records. -/
theorem ceilDiv_lt_iff (hsize : 0 < size) :
    total ⌈/⌉ size < Word.count 32 ↔ total ≤ (Word.count 32 - 1) * size := by
  have hcount := Word.count_pos 32
  rw [Nat.mul_comm, ← ceilDiv_le_iff_le_mul hsize]
  omega

/-! ### The number of pages -/

/-- **The number of pages is the quotient rounded up**, cut to a word. -/
theorem totalPages_of (hsize : 0 < r.pageSize) :
    (Page.of items total r).totalPages = total ⌈/⌉ r.pageSize % Word.count 32 := by
  show (if r.pageSize = 0 then 0 else (total + (r.pageSize - 1)) / r.pageSize % Word.count 32) = _
  rw [if_neg (Nat.ne_of_gt hsize), Nat.ceilDiv_eq_add_pred_div, Nat.add_sub_assoc hsize]

theorem hasNext_of : (Page.of items total r).hasNext = true ↔
    r.page + 1 < (Page.of items total r).totalPages := decide_eq_true_iff

/-! ### Right totals -/

/-- The totals of a page are right: it has a next one exactly where records stand behind it, and it
carries the least number of pages that hold all records. -/
structure Totals (p : Page α) : Prop where
  hasNext : p.hasNext = true ↔ (p.page + 1) * p.pageSize < p.total
  totalPages : IsLeast {k | p.total ≤ k * p.pageSize} p.totalPages

/-- **When the totals are right**: as long as the records fit on as many pages as a word counts.
Where they do not, a page tells rightly that there is a next one as long as it stands before the
number of pages that is left of the true one. -/
theorem totals_iff (items : List α) (total : ℕ) (hsize : 1 ≤ r.pageSize)
    (hpage : r.page + 1 < Word.count 32) :
    ((Page.of items total r).Totals ↔ total ≤ (Word.count 32 - 1) * r.pageSize) ∧
    (((Page.of items total r).hasNext = true ↔ (r.page + 1) * r.pageSize < total) ↔
      total ≤ (Word.count 32 - 1) * r.pageSize ∨
        r.page + 1 < total ⌈/⌉ r.pageSize % Word.count 32) := by
  have hpages : (Page.of items total r).totalPages = total ⌈/⌉ r.pageSize % Word.count 32 :=
    totalPages_of hsize
  rw [← ceilDiv_lt_iff hsize]
  constructor
  · constructor
    · intro htotals
      have hleast : (Page.of items total r).totalPages = total ⌈/⌉ r.pageSize :=
        htotals.totalPages.unique (isLeast_ceilDiv hsize)
      rw [← hleast, hpages]
      exact Nat.mod_lt _ (Word.count_pos 32)
    · intro hfits
      rw [Nat.mod_eq_of_lt hfits] at hpages
      refine ⟨?_, ?_⟩
      · rw [hasNext_of, hpages]
        exact lt_ceilDiv_iff hsize
      · rw [hpages]
        exact isLeast_ceilDiv hsize
  · rw [hasNext_of, hpages, ← lt_ceilDiv_iff hsize]
    constructor
    · intro htold
      by_cases hfits : total ⌈/⌉ r.pageSize < Word.count 32
      · exact .inl hfits
      · exact .inr (htold.2 (by omega))
    · rintro (hfits | htold)
      · rw [Nat.mod_eq_of_lt hfits]
      · exact ⟨fun _ => Nat.lt_of_lt_of_le htold (Nat.mod_le _ _), fun _ => htold⟩

/-- The last page before the numbers of pages end, in a listing that fills all of them. -/
theorem totals_iff_filled :
    (Page.of ["last"] (Word.count 32 - 1) ⟨Word.count 32 - 2, 1⟩).Totals :=
  (totals_iff ["last"] (Word.count 32 - 1) (by decide) (by decide)).1.2 (by decide)

/-- **More records than pages can be counted**, one on each: no page is counted, and the first page
has no next one. -/
theorem totals_wrapped :
    ¬ ∀ total, total < Word.count 64 → ∀ r : PageRequest, 1 ≤ r.pageSize →
      r.page + 1 < Word.count 32 → (Page.of ([] : List String) total r).Totals := by
  intro hright
  have htotals := hright (Word.count 32) (by decide) ⟨0, 1⟩ (by decide) (by decide)
  exact absurd (htotals.hasNext.2 (by decide)) (by decide)

end Anthology.Page
