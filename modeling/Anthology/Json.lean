/-
**Json values and codecs.**

Records leave the library, and come into it, as Json values.  A codec is a pair of a writer and a
reader for one type.  A reader accepts a value when every field that the type needs is there with
the right kind of value; it does not look at fields that the type does not have, and an optional
field that is missing counts as null.

Readers take more than writers give.  A record may be an array of its fields in their order, none
left out and none added.  A name may be the one key of an object over null.  A record with several
cases may be an array that begins with the case.

Main definitions:

* `Anthology.Json` — a value; whole numbers and numbers with a fraction are told apart;
* `Anthology.Codec` — a writer and a reader for one type;
* `Anthology.Codec.text`, `Anthology.Codec.signed`, `Anthology.Codec.unsigned` and others — the
  codecs of texts, of whole numbers within a word, of flags, lists and optional values;
* `Anthology.Json.record?` and `Anthology.Fields.get` — the fields of a record;
* `Anthology.Json.tagged?`, `Anthology.Json.adjacent?` — a record with several cases.
-/

import Anthology.Word

set_option relaxedAutoImplicit false
set_option autoImplicit false

namespace Anthology

/-! ### Values -/

/-- A Json value.  A number written with a fraction is a `decimal`: its digits without the point,
and how many of them follow the point. -/
inductive Json where
  | null
  | bool (b : Bool)
  | number (n : Int)
  | decimal (digits : Int) (places : Nat)
  | string (s : String)
  | array (items : List Json)
  | object (fields : List (String × Json))
deriving Inhabited

/-- The fields of an object. -/
abbrev Fields := List (String × Json)

namespace Json

/-- The fields of a value that is an object. -/
def fields? : Json → Option Fields
  | .object fs => some fs
  | _ => none

def isObject (j : Json) : Bool := j.fields?.isSome

def string? : Json → Option String
  | .string s => some s
  | _ => none

def array? : Json → Option (List Json)
  | .array xs => some xs
  | _ => none

/-- The fields of a record that has the fields `keys`, in that order. -/
def record? (keys : List String) : Json → Option Fields
  | .object fs => some fs
  | .array xs => if xs.length = keys.length then some (keys.zip xs) else none
  | _ => none

/-- A name. -/
def name? : Json → Option String
  | .string s => some s
  | .object [(s, .null)] => some s
  | _ => none

/-- The case of a record, which stands among its fields under the key `tag`, and the value that
holds the fields. -/
def tagged? (tag : String) : Json → Option (Json × Json)
  | .object fs => (fs.lookup tag).map fun case => (case, .object fs)
  | .array (case :: xs) => some (case, .array xs)
  | _ => none

/-- The name of one of the cases, or, where cases may be numbered, its number counted from zero. -/
def case? (cases : List String) (numbered : Bool) : Json → Option String
  | .string s => some s
  | .number n => if numbered && decide (0 ≤ n) then cases[n.toNat]? else none
  | _ => none

/-- The case of a record, under the key `tag`, and its content, under the key `content` or behind
the case in an array. -/
def adjacent? (tag content : String) : Json → Option (String × Option Json)
  | .object fs => do return (← (← fs.lookup tag).name?, fs.lookup content)
  | .array [case, value] => do return (← case.string?, some value)
  | _ => none

/-- The value of a field; of null where there is no such field, and of anything but an object. -/
def member (j : Json) (key : String) : Json :=
  match j with
  | .object fs => (fs.lookup key).getD .null
  | _ => .null

end Json

/-! ### Codecs -/

/-- A writer and a reader for one type. -/
structure Codec (α : Type) where
  encode : α → Json
  decode : Json → Option α

namespace Codec

variable {α : Type}

def text : Codec String where
  encode := .string
  decode := Json.string?

def flag : Codec Bool where
  encode := .bool
  decode
    | .bool b => some b
    | _ => none

/-- Whole numbers that fit a word with a sign. -/
def signed (bits : Nat) : Codec Int where
  encode := .number
  decode
    | .number n => if Word.fitsSigned bits n then some n else none
    | _ => none

/-- Signed words of 64 bits. -/
def word : Codec Int64 where
  encode n := (signed 64).encode n.toInt
  decode j := ((signed 64).decode j).map Int64.ofInt

/-- Whole numbers that fit a word without a sign. -/
def unsigned (bits : Nat) : Codec Nat where
  encode n := .number n
  decode
    | .number n => if Word.fitsUnsigned bits n then some n.toNat else none
    | _ => none

/-- A list as an array. -/
def list (c : Codec α) : Codec (List α) where
  encode xs := .array (xs.map c.encode)
  decode j := j.array?.bind fun xs => xs.mapM c.decode

/-- An optional value; null stands for none. -/
def optional (c : Codec α) : Codec (Option α) where
  encode
    | some a => c.encode a
    | none => .null
  decode
    | .null => some none
    | j => (c.decode j).map some

/-- The members of a closed set, each by its name. -/
def named (members : List α) (name : α → String) : Codec α where
  encode a := .string (name a)
  decode j := j.name?.bind fun s => members.find? fun a => name a == s

end Codec

namespace Fields

variable {α : Type}

/-- The value of a field that has to be there. -/
def get (fs : Fields) (key : String) (c : Codec α) : Option α :=
  (fs.lookup key).bind c.decode

/-- The value of a field that may be missing or null. -/
def get? (fs : Fields) (key : String) (c : Codec α) : Option (Option α) :=
  c.optional.decode ((fs.lookup key).getD .null)

end Fields

end Anthology
