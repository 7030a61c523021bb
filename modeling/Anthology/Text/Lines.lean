/-
**The lines of a text.**

A line ends at a line feed, and a carriage return that stands directly before that line feed
belongs to the ending.  A carriage return anywhere else is a character of its line.  A text that
ends in a line feed has no further, empty line behind it.

Main definitions:

* `Anthology.Text.lines` — the lines of a text, without their endings;
* `Anthology.Text.firstContentful` — the first line that is not blank.
-/

import Anthology.Text.Blank

set_option relaxedAutoImplicit false
set_option autoImplicit false

namespace Anthology.Text

/-- The lines of a text, without their endings. -/
def lines : List Char → List (List Char)
  | [] => []
  | '\n' :: rest => [] :: lines rest
  | '\r' :: '\n' :: rest => [] :: lines rest
  | c :: rest =>
    match lines rest with
    | [] => [[c]]
    | line :: others => (c :: line) :: others

/-- The first line that is not blank, and the empty text where every line is. -/
def firstContentful (s : String) : String :=
  match (lines s.toList).find? fun line => !line.all isSpace with
  | some line => String.ofList line
  | none => ""

@[simp] theorem lines_nil : lines [] = [] := rfl

/-- A lone carriage return stays in its line. -/
theorem lines_lone_return : lines ['a', '\r', 'b'] = [['a', '\r', 'b']] := rfl

end Anthology.Text
