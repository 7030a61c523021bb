/-
**Texts are compared by their bytes.**

Titles and ids are compared character by character.  Whoever compares the bytes of their encodings
in UTF-8 comes to the same result, for the encoding keeps the order: of two characters the greater
has more bytes or as many, its first byte tells how many there are and is the greater one where
there are more, and bytes of the same number are digits to the base 64.

Main definitions:

* `Anthology.Text.utf8` — the bytes of a text.

Main results:

* `Anthology.Text.utf8EncodeChar_append_lt` — the encodings of two characters differ within both;
* `Anthology.Text.lt_iff_utf8_lt` — **texts are compared by their bytes**.
-/

import Mathlib.Data.String.Basic

set_option relaxedAutoImplicit false
set_option autoImplicit false

namespace Anthology.Text

open String (utf8EncodeChar)

variable {a b : String} {c d : Char} {cs ds : List Char}

/-- The bytes of a text in UTF-8. -/
def utf8 (a : String) : List UInt8 := a.toUTF8.data.toList

theorem utf8_eq (a : String) : utf8 a = a.toList.flatMap utf8EncodeChar := by
  rw [utf8, String.toUTF8, ← String.utf8Encode_toList, List.utf8Encode, List.data_toByteArray]

/-- **The encodings of two characters differ within both**, and the smaller character has the
smaller byte there, whatever comes after. -/
theorem utf8EncodeChar_append_lt (h : c < d) (xs ys : List UInt8) :
    utf8EncodeChar c ++ xs < utf8EncodeChar d ++ ys := by
  have hless : c.val.toNat < d.val.toNat := h
  have hmost : d.val.toNat < 0x110000 := by
    rcases d.valid with hlow | ⟨-, hhigh⟩
    · omega
    · exact hhigh
  unfold utf8EncodeChar
  generalize c.val.toNat = v at *
  generalize d.val.toNat = w at *
  dsimp only
  -- one to four bytes on either side; fewer on the left have the smaller first byte
  split_ifs <;>
  · simp only [List.cons_append, List.nil_append, List.cons_lt_cons_iff, UInt8.lt_iff_toNat_lt,
      ← UInt8.toNat_inj, UInt8.toNat_ofNat', Nat.reducePow]
    simp (disch := omega) only [Nat.mod_eq_of_lt]
    omega

theorem flatMap_utf8EncodeChar_lt (h : cs < ds) :
    cs.flatMap utf8EncodeChar < ds.flatMap utf8EncodeChar := by
  induction h with
  | @nil d ds =>
      have hbytes : utf8EncodeChar d ≠ [] := by
        rw [← List.length_pos_iff, String.length_utf8EncodeChar]
        exact d.utf8Size_pos
      obtain ⟨x, xs, hx⟩ := List.exists_cons_of_ne_nil hbytes
      rw [List.flatMap_nil, List.flatMap_cons, hx]
      exact List.nil_lt_cons _ _
  | cons _ ih =>
      rw [List.flatMap_cons, List.flatMap_cons]
      exact List.append_left_lt ih
  | rel h =>
      rw [List.flatMap_cons, List.flatMap_cons]
      exact utf8EncodeChar_append_lt h _ _

/-- **Texts are compared by their bytes.** -/
theorem lt_iff_utf8_lt : a < b ↔ utf8 a < utf8 b := by
  have hkeeps : ∀ {a b : String}, a < b → utf8 a < utf8 b := by
    intro a b h
    rw [utf8_eq, utf8_eq]
    exact flatMap_utf8EncodeChar_lt h
  refine ⟨hkeeps, ?_⟩
  intro h
  rcases lt_trichotomy a b with hlt | rfl | hgt
  · exact hlt
  · exact absurd h (List.lt_irrefl _)
  · exact absurd h (List.lt_asymm (hkeeps hgt))

end Anthology.Text
