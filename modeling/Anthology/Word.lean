/-
**Words.**

Some numbers live in words of a fixed width.  Each further bit doubles the number of words.  An
unsigned word holds the whole numbers from zero on; a signed word holds half as many below zero as
there are words, and as many from zero on.

Main definitions:

* `Anthology.Word.count` — the number of words of a width;
* `Anthology.Word.fitsUnsigned`, `Anthology.Word.fitsSigned` — the numbers that a word holds;
* `Anthology.Word.first`, `Anthology.Word.last` — the signed words of 64 bits, from end to end.

Main results:

* `Anthology.Word.count_succ`, `Anthology.Word.count_mono` — wider words are more.
-/

set_option relaxedAutoImplicit false
set_option autoImplicit false

namespace Anthology.Word

/-- The number of words of so many bits. -/
def count (bits : Nat) : Nat := 1 <<< bits

@[simp] theorem count_zero : count 0 = 1 := rfl

theorem count_succ (bits : Nat) : count (bits + 1) = 2 * count bits := Nat.shiftLeft_succ 1 bits

theorem count_pos (bits : Nat) : 0 < count bits := by
  induction bits with
  | zero => decide
  | succ bits ih =>
    rw [count_succ]
    omega

theorem count_mono {a b : Nat} (h : a ≤ b) : count a ≤ count b := by
  induction h with
  | refl => exact Nat.le_refl _
  | step _ ih =>
    rw [count_succ]
    omega

/-- A word of so many bits, read without a sign, holds the number. -/
def fitsUnsigned (bits : Nat) (n : Int) : Bool := 0 ≤ n && n < count bits

/-- A word of so many bits, read with a sign, holds the number. -/
def fitsSigned (bits : Nat) (n : Int) : Bool :=
  -(count (bits - 1) : Int) ≤ n && n < count (bits - 1)

/-! ### Signed words of 64 bits -/

def first : Int := -count 63

def last : Int := count 63 - 1

theorem last_pos : 0 < last := by decide

theorem first_neg : first < 0 := by decide

theorem fitsSigned_iff {n : Int} : fitsSigned 64 n = true ↔ first ≤ n ∧ n ≤ last := by
  simp only [fitsSigned, first, last, Bool.and_eq_true, decide_eq_true_eq, Nat.add_one_sub_one,
    Int.le_sub_one_iff]

theorem fitsSigned_toInt (n : Int64) : fitsSigned 64 n.toInt = true := by
  have hlow := Int64.le_toInt n
  have hhigh := Int64.toInt_lt n
  simp only [fitsSigned_iff, first, last, count, Nat.one_shiftLeft]
  omega

end Anthology.Word
