/-
**Filters of the log.**

A filter is a list of directives separated by commas, of which empty ones do not count.  A
directive names a target, or a span in brackets, which may say in braces what a field looks like,
and may end in a level behind an equals sign.  A level is a name, in capitals or not, or a number
from 0 to 5; without a level everything passes.

White space around a directive does not count, but texts are cut out of the directive as it stands,
at the places at which they would be without the white space.  So a directive with a level does not
begin or end with white space.

Main definitions:

* `Anthology.LogFilter.Part` — the part of a directive that is being read;
* `Anthology.LogFilter.checkField` — refuses a field with a value that cannot be read;
* `Anthology.LogFilter.Part.read` — reads one character of a directive;
* `Anthology.LogFilter.checkDirective`, `Anthology.LogFilter.check` — refuse what cannot be read.
-/

import Anthology.Logging.Pattern
import Anthology.Text.Blank
import Anthology.Text.Letters

set_option relaxedAutoImplicit false
set_option autoImplicit false

namespace Anthology

/-- A text with the ASCII capitals made small. -/
def asciiLowercase (s : String) : String := String.ofList (s.toList.map Char.toLower)

namespace LogFilter

/-- Why a filter was refused. -/
inductive Flaw where
  | directive
  /-- The value of a field is not a pattern. -/
  | field
  | level
deriving DecidableEq, Repr

def Flaw.message : Flaw → String
  | directive => "invalid filter directive"
  | field => "invalid field filter: error building NFA"
  | level => "error parsing level filter: expected one of \"off\", \"error\", \"warn\", " ++
      "\"info\", \"debug\", \"trace\", or a number 0-5"

/-! ### Levels -/

/-- The value of a numeral: digits only, at least one, behind at most one plus sign. -/
def numeral? (cs : List Char) : Option Nat :=
  let digits := match cs with
    | '+' :: cs => cs
    | cs => cs
  if digits.isEmpty then none
  else digits.foldlM (fun n c => if c.isDigit then some (10 * n + (c.toNat - 48)) else none) 0

/-- A text is a level. -/
def isLevel (s : String) : Bool :=
  ["off", "error", "warn", "info", "debug", "trace"].contains (asciiLowercase s) ||
    (numeral? s.toList).any fun n => decide (n ≤ 5)

/-! ### Directives -/

/-- The part of a directive that is being read. -/
inductive Part where
  | start
  | target
  | span
  /-- A field that begins behind so many bytes. -/
  | field (place : Nat)
  /-- Behind the fields. -/
  | fields
  /-- Behind the span. -/
  | spanEnd
  /-- A level that begins behind so many bytes. -/
  | level (place : Nat)
deriving DecidableEq, Repr

/-- A directive may begin with the character. -/
def opens (c : Char) : Bool :=
  c == '-' || c == ':' || c == '_' || Text.isLetterOrNumber c

/-- What is left of a text behind so many bytes. -/
def behind : Nat → List Char → List Char
  | 0, cs => cs
  | _, [] => []
  | n, c :: cs => behind (n - c.utf8Size) cs

/-- The characters of a text within so many bytes. -/
def within : Nat → List Char → List Char
  | 0, _ => []
  | _, [] => []
  | n, c :: cs => c :: within (n - c.utf8Size) cs

/-- Refuses a field with a value that cannot be read.  The value is behind the first equals sign,
and ends in front of the next. -/
def checkField (field : List Char) : Except Flaw Unit :=
  match (field.dropWhile fun c => c ≠ '=') with
  | [] => .ok ()
  | _ :: value =>
    if isFieldValue (value.takeWhile fun c => c ≠ '=') then .ok () else .error .field

/-- Reads one character of the directive `whole`, in front of which there are `place` bytes. -/
def Part.read (whole : List Char) (place : Nat) (c : Char) : Part → Except Flaw Part
  | .start =>
    if c = '[' then .ok .span else if opens c then .ok .target else .error .directive
  | .target =>
    .ok (if c = '=' then .level (place + 1) else if c = '[' then .span else .target)
  | .span => .ok (if c = ']' then .spanEnd else if c = '{' then .field (place + 1) else .span)
  | .field first =>
    if c ≠ '}' then .ok (.field first)
    else if first = place then .error .directive
    else (checkField (within (place - first) (behind first whole))).map fun _ => .fields
  | .fields => if c = ']' then .ok .spanEnd else .error .directive
  | .spanEnd => if c = '=' then .ok (.level (place + 1)) else .error .directive
  | .level first => .ok (.level first)

/-- Reads characters of the directive `whole`, in front of which there are `place` bytes. -/
def readAll (whole : List Char) : Nat → Part → List Char → Except Flaw Part
  | _, part, [] => .ok part
  | place, part, c :: cs =>
    (part.read whole place c).bind fun part => readAll whole (place + c.utf8Size) part cs

/-- Refuses a directive that cannot be read. -/
def checkDirective (s : String) : Except Flaw Unit := do
  match ← readAll s.toList 0 .start (Text.trim s.toList) with
  | .target | .spanEnd => return
  | .level place =>
    let level := String.ofList (behind place s.toList)
    if level.isEmpty || isLevel level then return else throw .level
  | _ => throw .directive

/-- Refuses a filter with a directive that cannot be read, for the first such directive. -/
def check (s : String) : Except Flaw Unit :=
  ((s.splitOn ",").filter (· ≠ "")).forM checkDirective

end LogFilter

end Anthology
