/-
**Patterns of field values.**

A filter may say of a field what its value looks like.  The value is a number, a flag, or a pattern:
a regular expression with groups, repetitions, sets of characters and escapes.  A pattern is only
checked here.  It stands between braces, so a brace inside it can never be closed.

A pattern knows the characters, but not the classes that the Unicode standard sorts them into.
Escapes that stand for such a class, the boundaries of words and the flag that makes small letters
and capitals alike are refused.

Main definitions:

* `Anthology.LogFilter.Spot` — a place in a pattern;
* `Anthology.LogFilter.Spot.read` — reads one character at a place;
* `Anthology.LogFilter.isPattern` — the pattern can be read to its end;
* `Anthology.LogFilter.isFieldValue` — a number, a flag or a pattern.

Main results:

* `Anthology.LogFilter.isPattern_of_plain` — a text without signs of its own is a pattern.
-/

set_option relaxedAutoImplicit false
set_option autoImplicit false

namespace Anthology.LogFilter

/-! ### Places -/

/-- Where a character stands for itself. -/
inductive Place where
  | text
  /-- An element of so many sets, one inside the other. -/
  | element (sets : Nat)
  /-- The upper end of a run of characters in a set, with the lower end. -/
  | upper (sets : Nat) (lower : Char)

/-- A place in a pattern. -/
inductive Spot where
  /-- Between two items, of which the one before can be repeated or not. -/
  | text (repeatable : Bool)
  /-- Behind the bracket that opens a group. -/
  | group
  /-- Among the flags of a group, which have been read, the last of them first. -/
  | flags (seen : List Char)
  /-- In the name of a group, of which something has been read or nothing yet. -/
  | name (begun : Bool)
  /-- Behind the bracket that opens a set; the set may be turned around here. -/
  | head (sets : Nat) (turns : Bool)
  /-- Behind hyphens at the beginning of a set. -/
  | hyphens (sets : Nat)
  /-- In a set, where an element may begin. -/
  | set (sets : Nat)
  /-- In a set, behind a character. -/
  | element (sets : Nat) (c : Char)
  /-- In a set, behind the hyphen of a run of characters. -/
  | upper (sets : Nat) (lower : Char)
  /-- Behind a backslash. -/
  | escape (place : Place)
  /-- Among the digits that give the number of a character, of which so many are missing. -/
  | digits (place : Place) (missing value : Nat)
  /-- In front of characters that have been taken in already. -/
  | skip (chars : Nat) (next : Spot)

/-- A place, and how many groups are open there. -/
abbrev Depth := Nat

/-! ### Characters -/

/-- The place behind a character that stands for itself, unless it ends a run that begins behind
it. -/
def Place.behind (c : Char) : Place → Option Spot
  | .text => some (.text true)
  | .element sets => some (.element sets c)
  | .upper sets lower => if lower ≤ c then some (.set sets) else none

/-- The value of a hexadecimal digit. -/
def digitValue? (c : Char) : Option Nat :=
  if c.isDigit then some (c.toNat - 48)
  else if 'a' ≤ c ∧ c ≤ 'f' then some (c.toNat - 87)
  else if 'A' ≤ c ∧ c ≤ 'F' then some (c.toNat - 55)
  else none

/-- The controls that have a letter as their escape. -/
def control? : Char → Option Char
  | 'a' => some '\x07'
  | 't' => some '\t'
  | 'n' => some '\n'
  | 'v' => some '\x0b'
  | 'f' => some '\x0c'
  | 'r' => some '\r'
  | _ => none

/-- A backslash in front of the character makes it stand for itself. -/
def escapable (c : Char) : Bool :=
  decide (c.toNat < 128) && !c.isAlphanum && c != '<' && c != '>'

/-- Reads the character behind a backslash. -/
def Place.escaped (place : Place) (c : Char) : Option Spot :=
  match c with
  | 'x' => some (.digits place 2 0)
  | 'u' => some (.digits place 4 0)
  | 'U' => some (.digits place 8 0)
  | 'A' | 'z' =>
    match place with
    | .text => some (.text true)
    | _ => none
  | _ => if escapable c then place.behind c else (control? c).bind place.behind

/-! ### Reading -/

/-- The names of the classes of ASCII characters that a set may hold. -/
def asciiClasses : List String :=
  ["alnum", "alpha", "ascii", "blank", "cntrl", "digit", "graph", "lower", "print", "punct",
    "space", "upper", "word", "xdigit"]

/-- How many of the characters behind a bracket belong to a class of ASCII characters, if they begin
with one. -/
def asciiClass? (cs : List Char) : Option Nat :=
  let written (opening name : String) : List Char := (opening ++ name ++ ":]").toList
  let all := asciiClasses.flatMap fun name => [written ":" name, written ":^" name]
  (all.find? fun w => w.isPrefixOf cs).map List.length

/-- Reads a character of a set, with the characters behind it, where an element may begin. -/
def readSet (sets : Nat) (c : Char) (cs : List Char) : Option Spot :=
  match c with
  | '[' =>
    match asciiClass? cs with
    | some n => some (.skip n (.set sets))
    | none => some (.head (sets + 1) true)
  | ']' => some (if sets ≤ 1 then .text true else .set (sets - 1))
  | '\\' => some (.escape (.element sets))
  | c =>
    if (c == '&' || c == '-' || c == '~') && cs.head? == some c then some (.skip 1 (.set sets))
    else some (.element sets c)

/-- The flags that a group may set. -/
def isFlag (c : Char) : Bool := ['i', 'm', 's', 'U', 'u', 'R', 'x', '-'].contains c

/-- Reads a flag of a group. -/
def readFlag (seen : List Char) (c : Char) : Option Spot :=
  if isFlag c && !seen.contains c && !(c == 'i' && !seen.contains '-') then
    some (.flags (c :: seen))
  else none

/-- Reads one character between two items, with the characters behind it. -/
def readText (groups : Depth) (repeatable : Bool) (c : Char) : Option (Spot × Depth) :=
  match c with
  | '(' => some (.group, groups + 1)
  | ')' => if groups = 0 then none else some (.text true, groups - 1)
  | '[' => some (.head 1 true, groups)
  | '\\' => some (.escape .text, groups)
  | '|' => some (.text false, groups)
  | '{' => none
  | '*' | '+' | '?' => if repeatable then some (.text true, groups) else none
  | _ => some (.text true, groups)

/-- Reads one character at a place, with the characters behind it. -/
def Spot.read (groups : Depth) (c : Char) (cs : List Char) : Spot → Option (Spot × Depth)
  | .text repeatable => readText groups repeatable c
  | .group =>
    if c ≠ '?' then readText groups false c
    else if ['P', '<'].isPrefixOf cs then some (.skip 2 (.name false), groups)
    else if ['<'].isPrefixOf cs then some (.skip 1 (.name false), groups)
    else some (.flags [], groups)
  | .flags seen =>
    if c = ':' then if seen.head? = some '-' then none else some (.text false, groups)
    else if c = ')' then
      if seen.isEmpty || seen.head? = some '-' then none else some (.text false, groups - 1)
    else (readFlag seen c).map fun spot => (spot, groups)
  | .name begun =>
    if c = '>' then if begun then some (.text false, groups) else none
    else if c.isAlpha || c == '_' || (begun && (c.isDigit || ['.', '[', ']'].contains c)) then
      some (.name true, groups)
    else none
  | .head sets turns =>
    if turns && c == '^' then some (.head sets false, groups)
    else if c = '-' then some (.hyphens sets, groups)
    else if c = ']' then some (.set sets, groups)
    else (readSet sets c cs).map fun spot => (spot, groups)
  | .hyphens sets =>
    if c = '-' then some (.hyphens sets, groups)
    else (readSet sets c cs).map fun spot => (spot, groups)
  | .set sets => (readSet sets c cs).map fun spot => (spot, groups)
  | .element sets lower =>
    if c = '-' && cs.head? != some ']' && cs.head? != some '-' then
      some (.upper sets lower, groups)
    else (readSet sets c cs).map fun spot => (spot, groups)
  | .upper sets lower =>
    if c = '\\' then some (.escape (.upper sets lower), groups)
    else ((Place.upper sets lower).behind c).map fun spot => (spot, groups)
  | .escape place => (place.escaped c).map fun spot => (spot, groups)
  | .digits place missing value =>
    (digitValue? c).bind fun digit =>
      let value := 16 * value + digit
      if 1 < missing then some (.digits place (missing - 1) value, groups)
      else if value.isValidChar then
        (place.behind (Char.ofNat value)).map fun spot => (spot, groups)
      else none
  | .skip (chars + 2) next => some (.skip (chars + 1) next, groups)
  | .skip _ next => some (next, groups)

/-- The characters can be read to their end, and nothing is open there. -/
def isPatternFrom (groups : Depth) (spot : Spot) : List Char → Bool
  | [] =>
    match spot with
    | .text _ => groups = 0
    | _ => false
  | c :: cs =>
    match spot.read groups c cs with
    | some (spot, groups) => isPatternFrom groups spot cs
    | none => false

/-- The text is a pattern. -/
def isPattern (cs : List Char) : Bool := isPatternFrom 0 (.text false) cs

/-- The characters with a meaning of their own in a pattern. -/
def signs : List Char := ['(', ')', '[', '\\', '|', '\x7b', '*', '+', '?']

/-- A character without a meaning of its own in a pattern. -/
def isPlain (c : Char) : Bool := !signs.contains c

/-- A text without signs of its own is a pattern. -/
theorem isPattern_of_plain {cs : List Char} (h : cs.all isPlain = true) : isPattern cs = true := by
  suffices ∀ repeatable, isPatternFrom 0 (.text repeatable) cs = true from this false
  induction cs with
  | nil => intro _; rfl
  | cons c cs ih =>
    intro repeatable
    simp only [List.all_cons, Bool.and_eq_true] at h
    have hc : readText 0 repeatable c = some (.text true, 0) := by
      unfold readText
      split <;> first | rfl | simp [isPlain, signs] at h
    simp only [isPatternFrom, Spot.read, hc]
    exact ih h.2 true

/-! ### Values -/

/-- Digits, of which there may be none, and what is behind them. -/
def digitsOf (cs : List Char) : List Char × List Char :=
  (cs.takeWhile Char.isDigit, cs.dropWhile Char.isDigit)

/-- An exponent, or nothing. -/
def isExponent : List Char → Bool
  | [] => true
  | e :: cs =>
    (e == 'e' || e == 'E') &&
      (let digits := match cs with
        | '+' :: cs | '-' :: cs => cs
        | cs => cs
      !digits.isEmpty && digits.all Char.isDigit)

/-- A number without a sign: digits with a point among them or around them and an exponent, or one
of the words for what is not finite. -/
def isMagnitude (cs : List Char) : Bool :=
  let (whole, rest) := digitsOf cs
  let (fraction, rest) := match rest with
    | '.' :: rest => digitsOf rest
    | rest => ([], rest)
  (!(whole.isEmpty && fraction.isEmpty) && isExponent rest) ||
    ["inf", "infinity", "nan"].contains (String.ofList (cs.map Char.toLower))

/-- The text is the value of a field.  A flag, and a number that does not begin with a plus sign,
is a pattern as well. -/
def isFieldValue : List Char → Bool
  | '+' :: cs => isMagnitude cs
  | cs => isPattern cs

end Anthology.LogFilter
