/-
**Text out of bytes.**

In the encoding UTF-8 the first byte of a character tells how many follow, and which of them may
come next.  Bytes that do not write a text can still be shown: whatever is not a character, as far
as it could have become one, is shown as one replacement character.

Main definitions:

* `Anthology.Text.Utf8.Pending` — a character of which the last bytes are missing;
* `Anthology.Text.Utf8.step` — takes one byte in;
* `Anthology.Text.Utf8.shown` — the text that bytes write, with replacement characters;
* `Anthology.Text.Utf8.read?` — the text that bytes write, if they write one.

Main results:

* `Anthology.Text.Utf8.shown_ascii` — bytes below 128 are characters of ASCII.
-/

set_option relaxedAutoImplicit false
set_option autoImplicit false

namespace Anthology.Text.Utf8

/-- A character of which the last bytes are missing. -/
structure Pending where
  missing : Nat
  /-- The bits that have been read. -/
  bits : Nat
  /-- The least value that the next byte may have. -/
  least : Nat
  /-- The greatest value that the next byte may have. -/
  greatest : Nat

/-- Stands for what is not a character. -/
def replacement : Char := '\ufffd'

/-- Takes in a byte with which a character begins. -/
def first (b : Nat) : List Char × Option Pending :=
  if b < 0x80 then ([Char.ofNat b], none)
  else if b < 0xC2 then ([replacement], none)
  else if b < 0xE0 then ([], some ⟨1, b - 0xC0, 0x80, 0xBF⟩)
  else if b < 0xF0 then
    ([], some ⟨2, b - 0xE0, if b = 0xE0 then 0xA0 else 0x80, if b = 0xED then 0x9F else 0xBF⟩)
  else if b < 0xF5 then
    ([], some ⟨3, b - 0xF0, if b = 0xF0 then 0x90 else 0x80, if b = 0xF4 then 0x8F else 0xBF⟩)
  else ([replacement], none)

/-- Takes in one byte: what is shown of it, and the character that is not complete. -/
def step (pending : Option Pending) (b : Nat) : List Char × Option Pending :=
  match pending with
  | none => first b
  | some p =>
    if p.least ≤ b ∧ b ≤ p.greatest then
      let bits := 64 * p.bits + (b - 0x80)
      if p.missing ≤ 1 then ([Char.ofNat bits], none)
      else ([], some ⟨p.missing - 1, bits, 0x80, 0xBF⟩)
    else
      let (shown, pending) := first b
      (replacement :: shown, pending)

/-- What is shown of bytes behind a character that is not complete. -/
def shownFrom : Option Pending → List UInt8 → List Char
  | none, [] => []
  | some _, [] => [replacement]
  | pending, b :: bytes =>
    let (shown, pending) := step pending b.toNat
    shown ++ shownFrom pending bytes

/-- The text that bytes write, with replacement characters for what is not a character. -/
def shown (bytes : List UInt8) : String := String.ofList (shownFrom none bytes)

/-- Bytes below 128 are characters of ASCII. -/
theorem shown_ascii {bytes : List UInt8} (h : ∀ b ∈ bytes, b.toNat < 128) :
    shown bytes = String.ofList (bytes.map fun b => Char.ofNat b.toNat) := by
  rw [shown]
  congr 1
  induction bytes with
  | nil => rfl
  | cons b bytes ih =>
    have hb : b.toNat < 0x80 := h b List.mem_cons_self
    simp [shownFrom, step, first, hb, ih fun b hm => h b (List.mem_cons_of_mem _ hm)]

/-- The text that bytes write, if they write one. -/
def read? (bytes : List UInt8) : Option String := String.fromUTF8? ⟨bytes.toArray⟩

end Anthology.Text.Utf8
