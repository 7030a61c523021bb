/-
**Addresses of stores.**

The store in a file is given by an address: a path and, behind a question mark, parameters that say
how it is opened.  In both a byte may be written as a percent sign and two digits, so that a path
can hold a question mark.  The file is made where there is none, but not the directory that it is
in.  A store that is opened for reading alone is not there yet, or cannot be set up; one that is
opened in memory needs no file and ends with its last connection.

Paths are taken from the directory in which the stores lie, and no other directory is in it.

Main definitions:

* `Anthology.Address.unescape` — bytes without percent signs;
* `Anthology.Address.OpenMode` — what the parameters say; `Anthology.Address.mode` reads them;
* `Anthology.Address.resolve` — a path without the steps that lead nowhere;
* `Anthology.Address.connect` — opens the store, and tells whether it is in memory.
-/

import Anthology.Fault
import Anthology.Text.Utf8

set_option relaxedAutoImplicit false
set_option autoImplicit false

namespace Anthology.Address

/-! ### Bytes behind percent signs -/

/-- The value of a hexadecimal digit. -/
def hexDigit? (b : UInt8) : Option UInt8 :=
  if 48 ≤ b && b ≤ 57 then some (b - 48)
  else if 65 ≤ b && b ≤ 70 then some (b - 55)
  else if 97 ≤ b && b ≤ 102 then some (b - 87)
  else none

/-- The byte that the two digits in front write. -/
def leadingByte? : List UInt8 → Option UInt8
  | x :: y :: _ => do return 16 * (← hexDigit? x) + (← hexDigit? y)
  | _ => none

/-- Leaves out so many bytes, and then replaces each percent sign with two digits behind it by the
byte that the digits write. -/
def unescapeFrom : Nat → List UInt8 → List UInt8
  | _, [] => []
  | skip + 1, _ :: bytes => unescapeFrom skip bytes
  | 0, b :: bytes =>
    match if b = 37 then leadingByte? bytes else none with
    | some byte => byte :: unescapeFrom 2 bytes
    | none => b :: unescapeFrom 0 bytes

/-- Replaces each percent sign with two digits behind it by the byte that the digits write.  Any
other percent sign stands for itself. -/
def unescape (bytes : List UInt8) : List UInt8 := unescapeFrom 0 bytes

/-- Bytes that escape nothing stand for themselves. -/
theorem unescape_of_not_mem {bytes : List UInt8} (h : 37 ∉ bytes) : unescape bytes = bytes := by
  induction bytes with
  | nil => rfl
  | cons b bytes ih =>
    have hb : b ≠ 37 := fun hb => h (by simp [hb])
    have ih : unescapeFrom 0 bytes = bytes := ih fun hm => h (by simp [hm])
    simp [unescape, unescapeFrom, hb, ih]

/-- The bytes of a text with its percent signs replaced. -/
def unescaped (s : String) : List UInt8 := unescape s.toUTF8.toList

/-! ### Parameters -/

/-- What the parameters of an address say. -/
structure OpenMode where
  readOnly : Bool
  inMemory : Bool
  /-- The file never changes. -/
  immutable : Bool
  /-- The system through which the engine reaches files. -/
  system : Option String
deriving DecidableEq

/-- Nothing is said. -/
def OpenMode.unset : OpenMode := ⟨false, false, false, none⟩

/-- Characters outside ASCII that leave no mark of their own, in runs: controls, spaces, marks on
other characters, and those that nobody assigned. -/
def unmarked : List (Nat × Nat) :=
  [(0x80, 0xa0), (0xad, 0xad), (0x300, 0x36f), (0x483, 0x489), (0x591, 0x5bd), (0x600, 0x605),
    (0x610, 0x61a), (0x61c, 0x61c), (0x64b, 0x65f), (0x1680, 0x1680), (0x180b, 0x180f),
    (0x1ab0, 0x1ace), (0x1dc0, 0x1dff), (0x2000, 0x200f), (0x2028, 0x202f), (0x205f, 0x206f),
    (0x20d0, 0x20f0), (0x3000, 0x3000), (0x302a, 0x302f), (0x3099, 0x309a), (0xe000, 0xf8ff),
    (0xfe00, 0xfe0f), (0xfe20, 0xfe2f), (0xfeff, 0xfeff), (0xff9e, 0xff9f), (0xfff0, 0xfffb),
    (0xfffe, 0xffff), (0xe0000, 0x10ffff)]

/-- The character is written as an escape between quotation marks. -/
def isEscaped (c : Char) : Bool :=
  c.toNat < 32 || c.toNat == 127 ||
    unmarked.any fun (first, last) => decide (first ≤ c.toNat) && decide (c.toNat ≤ last)

/-- A text in quotation marks, with quotation marks, backslashes and characters that leave no mark
written as escapes. -/
def quoted (s : String) : String :=
  let escape (c : Char) : String :=
    match c with
    | '"' => "\\\""
    | '\\' => "\\\\"
    | '\n' => "\\n"
    | '\r' => "\\r"
    | '\t' => "\\t"
    | '\x00' => "\\0"
    | c =>
      if isEscaped c then
        "\\u\x7b" ++ String.ofList (Nat.toDigits 16 c.toNat) ++ "\x7d"
      else c.toString
  "\"" ++ String.join (s.toList.map escape) ++ "\""

/-- Refuses the value of a parameter. -/
def refuse {α : Type} (key value : String) : Except StorageFault α :=
  .error (.address ("unknown value " ++ quoted value ++ " for \x60" ++ key ++ "\x60"))

/-- Takes one parameter in. -/
def OpenMode.set (m : OpenMode) (key value : String) : Except StorageFault OpenMode :=
  match key with
  | "mode" =>
    match value with
    | "ro" => .ok { m with readOnly := true }
    | "rw" | "rwc" => .ok m
    | "memory" => .ok { m with inMemory := true }
    | _ => refuse key value
  | "cache" => if value == "private" || value == "shared" then .ok m else refuse key value
  | "immutable" =>
    if value == "true" || value == "1" then .ok { m with immutable := true }
    else if value == "false" || value == "0" then .ok { m with immutable := false }
    else refuse key value
  | "vfs" => .ok { m with system := some value }
  | _ => .error (.address
      ("unknown query parameter \x60" ++ key ++ "\x60 while parsing connection URL"))

/-- One half of a parameter, in which a plus sign stands for a space. -/
def parameterText (s : String) : String :=
  Text.Utf8.shown (unescape (s.toUTF8.toList.map fun b => if b = 43 then 32 else b))

/-- The parameters that a text lists, each with a value behind its first equals sign. -/
def parameters (s : String) : List (String × String) :=
  ((s.splitOn "&").filter (· ≠ "")).map fun parameter =>
    match parameter.splitOn "=" with
    | [] => ("", "")
    | key :: value => (parameterText key, parameterText ("=".intercalate value))

/-- What the parameters in a text say.  The first that is not known is refused. -/
def mode (s : String) : Except StorageFault OpenMode :=
  (parameters s).foldlM (fun m parameter => m.set parameter.1 parameter.2) .unset

/-! ### Paths -/

/-- The steps of a path that lead somewhere. -/
def segments (path : String) : List String :=
  (path.splitOn "/").filter fun s => s != "" && s != "."

/-- The longest name that a directory can hold, in bytes. -/
def longestName : Nat := 255

/-- The longest name for a store, which has to leave room for the names of its journals. -/
def longestStoreName : Nat := 247

/-- The names that lead from the directory to the end of a path, the last of them first.  Two points
undo the step before them. -/
def resolve : List String → List String → Option (List String)
  | names, [] => some names
  | names, s :: path =>
    if s = ".." then resolve names.tail path
    else if s.utf8ByteSize ≤ longestName then resolve (s :: names) path
    else none

/-- A path leads to a file that can be opened or made. -/
def isReachable (path : String) : Bool :=
  match resolve [] (segments path) with
  | some [name] => decide (name.utf8ByteSize ≤ longestStoreName)
  | _ => false

/-! ### Opening -/

/-- The systems through which the engine can reach files. -/
def systems : List String := ["unix", "unix-dotfile", "unix-excl", "unix-none"]

/-- The system that keeps files in memory, as long as they are open. -/
def memorySystem : String := "memdb"

/-- The tables of a store cannot be made where nothing can be written. -/
def notSetUp : Fault :=
  .migration ("while executing migrations: " ++
    (StorageFault.coded "8" "attempt to write a readonly database").message)

/-- Opens the store at an address, and tells whether it is in memory. -/
def connect (address : String) : Except Fault Bool := do
  let (path, rest) :=
    match address.splitOn "?" with
    | [] => ("", "")
    | path :: rest => (path, "?".intercalate rest)
  let path ← match Text.Utf8.read? (unescaped path) with
    | some path => .ok path
    | none => .error (.storage (.address "invalid utf-8 sequence"))
  let mode ← (mode rest).mapError .storage
  if path.toList.contains '\x00' then
    throw (.storage (.transport "filename passed to SQLite must not contain nul bytes"))
  if let some system := mode.system then
    if !(memorySystem :: systems).contains system then
      throw (.storage (.coded "1" ("no such vfs: " ++ system)))
  if mode.inMemory then
    if mode.readOnly then throw notSetUp else return true
  else if mode.system == some memorySystem then
    if mode.readOnly || mode.immutable then throw notSetUp else return true
  else if mode.readOnly || !isReachable path then throw (.storage .cannotOpen)
  else if mode.immutable then throw notSetUp
  else return false

end Anthology.Address
