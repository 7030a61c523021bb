/-
**Blank text.**

A title, a name or a paratext counts as blank when nothing but white space is in it.  White space
is the Unicode property `White_Space`: the ASCII controls from tabulation to carriage return, the
space, and the separators of the other blocks.  The zero-width characters are not in it.

Main definitions:

* `Anthology.Text.isSpace` — the characters with the property `White_Space`;
* `Anthology.Text.trim` — a text without the white space at its two ends;
* `Anthology.Text.isBlank` — a text of white space only.

Main results:

* `Anthology.Text.isSpace_of_isWhitespace` — every character of core's class is in the property;
* `Anthology.Text.trim_eq_nil_iff` — trimming leaves nothing exactly of the texts of white space.
-/

set_option relaxedAutoImplicit false
set_option autoImplicit false

namespace Anthology.Text

/-! ### White space -/

/-- The characters with the Unicode property `White_Space`. -/
def isSpace (c : Char) : Bool :=
  let n := c.toNat
  (0x09 ≤ n && n ≤ 0x0D) || n == 0x20 || n == 0x85 || n == 0xA0 || n == 0x1680 ||
    (0x2000 ≤ n && n ≤ 0x200A) || n == 0x2028 || n == 0x2029 || n == 0x202F || n == 0x205F ||
    n == 0x3000

theorem isSpace_of_isWhitespace (c : Char) (h : c.isWhitespace = true) : isSpace c = true := by
  simp only [Char.isWhitespace, Bool.or_eq_true, decide_eq_true_eq] at h
  rcases h with ((rfl | rfl) | rfl) | rfl <;> decide

/-! ### Trimming -/

/-- A text without the white space at its two ends. -/
def trim (cs : List Char) : List Char :=
  ((cs.dropWhile isSpace).reverse.dropWhile isSpace).reverse

/-- A text of white space only; the empty text is one. -/
def isBlank (s : String) : Bool :=
  s.toList.all isSpace

theorem dropWhile_eq_nil_iff (p : Char → Bool) (cs : List Char) :
    cs.dropWhile p = [] ↔ cs.all p = true := by
  induction cs with
  | nil => simp
  | cons c cs ih => cases h : p c <;> simp [h, ih]

theorem all_dropWhile (p : Char → Bool) (cs : List Char) : (cs.dropWhile p).all p = cs.all p := by
  induction cs with
  | nil => rfl
  | cons c cs ih => cases h : p c <;> simp [h, ih]

theorem trim_eq_nil_iff (cs : List Char) : trim cs = [] ↔ cs.all isSpace = true := by
  rw [trim, List.reverse_eq_nil_iff, dropWhile_eq_nil_iff, List.all_reverse, all_dropWhile]

theorem isBlank_iff (s : String) : isBlank s = true ↔ trim s.toList = [] :=
  (trim_eq_nil_iff s.toList).symm

end Anthology.Text
