/-
**Faults.**

Whatever can go wrong has a cause, and the cause fixes the words in which it is reported and
whether the same call may succeed when it is made again.  A call is worth repeating when it failed
because somebody else held the store or a record, or because no connection came free in time.

A sum of two words may fit no word.  Where sums are checked the call breaks off there and answers
nothing; where they are not, the sum comes out at the other end of the words.

Main definitions:

* `Anthology.StorageFault` — what the store itself reports; `Anthology.Constraint` lists the rules
  of its schema that a write can break;
* `Anthology.Fault` — why an operation on the catalog failed;
* `Anthology.Arithmetic`, `Anthology.Word.next` — whether sums are checked, and the sum with one;
* `Anthology.SettingsFault`, `Anthology.ServiceFault` — why the settings were refused, and why a
  call of the whole service failed;
* `Anthology.Fault.message`, `Anthology.Fault.isRetryable` — the report of a fault.
-/

import Anthology.Word

set_option relaxedAutoImplicit false
set_option autoImplicit false

namespace Anthology

/-! ### Result codes -/

/-- The value of a decimal numeral: digits only, at least one, behind at most one sign. -/
def decimal? (s : String) : Option Int :=
  let magnitude? (cs : List Char) : Option Nat :=
    if cs.isEmpty then none
    else cs.foldlM (fun n c => if c.isDigit then some (10 * n + (c.toNat - 48)) else none) 0
  match s.toList with
  | '-' :: cs => (magnitude? cs).map fun n => -(n : Int)
  | '+' :: cs => (magnitude? cs).map fun n => (n : Int)
  | cs => (magnitude? cs).map fun n => (n : Int)

/-- A result code of the store that says "busy" or "locked".  A code is a 32-bit number, and its
last eight bits are the code proper; busy is 5 and locked is 6. -/
def isBusyCode (code : String) : Bool :=
  match decimal? code with
  | some n => Word.fitsSigned 32 n && (n.emod 256 == 5 || n.emod 256 == 6)
  | none => false

/-! ### Storage -/

/-- The rules of the schema that a write can break. -/
inductive Constraint where
  | collectionKey
  | slotKey
  | manifestationKey
  | authorityKey
  /-- Two authorities would be linked to the same collection. -/
  | linkUnique
  /-- A row would point at a row that does not exist. -/
  | foreignKey
  | seqnoPositive
deriving DecidableEq, Repr

/-- The result code that reports a broken rule. -/
def Constraint.code : Constraint → String
  | .collectionKey | .slotKey | .manifestationKey | .authorityKey => "1555"
  | .linkUnique => "2067"
  | .foreignKey => "787"
  | .seqnoPositive => "275"

/-- What the report says of a broken rule. -/
def Constraint.text : Constraint → String
  | .collectionKey => "UNIQUE constraint failed: collections.id"
  | .slotKey => "UNIQUE constraint failed: collection_items.id"
  | .manifestationKey => "UNIQUE constraint failed: manifestations.id"
  | .authorityKey => "UNIQUE constraint failed: authorities.id"
  | .linkUnique => "UNIQUE constraint failed: authorities.uncollected_works_collection_id"
  | .foreignKey => "FOREIGN KEY constraint failed"
  | .seqnoPositive => "CHECK constraint failed: seqno > 0"

/-- What the store reports. -/
inductive StorageFault where
  /-- The engine refused a statement, with a result code where it gave one. -/
  | engine (code : Option String) (text : String)
  /-- The address of the store was refused. -/
  | address (text : String)
  /-- The engine could not be reached. -/
  | transport (text : String)
  /-- A row holds a real number where a whole number of the given type is read. -/
  | undecodable (column type : String)
  | noRow
  | poolTimedOut
  | poolClosed
deriving DecidableEq, Repr

namespace StorageFault

/-- The engine's report with a result code that is part of the text. -/
def coded (code text : String) : StorageFault := .engine (some code) s!"(code: {code}) {text}"

/-- A write would break a rule of the schema. -/
def violated (c : Constraint) : StorageFault := coded c.code c.text

/-- Another connection holds the write lock. -/
def locked : StorageFault := coded "5" "database is locked"

/-- The number of a slot cannot be read. -/
def unreadableSeqno : StorageFault := undecodable "\"seqno\"" "i64"

/-- The highest number of the slots of a collection cannot be read. -/
def unreadableMax : StorageFault := undecodable "0" "core::option::Option<i64>"

/-- The file of the store cannot be opened. -/
def cannotOpen : StorageFault := coded "14" "unable to open database file"

def message : StorageFault → String
  | .engine _ text => "error returned from database: " ++ text
  | .address text => "error with configuration: " ++ text
  | .transport text => "error communicating with database: " ++ text
  | .undecodable column type =>
    s!"error occurred while decoding column {column}: mismatched types; Rust type `{type}` " ++
      "(as SQL type `INTEGER`) is not compatible with SQL type `REAL`"
  | .noRow => "no rows returned by a query that expected to return at least one row"
  | .poolTimedOut => "pool timed out while waiting for an open connection"
  | .poolClosed => "attempted to acquire a connection on a closed pool"

/-- The engine said that the store is busy or locked. -/
def isBusy : StorageFault → Bool
  | .engine (some code) _ => isBusyCode code
  | _ => false

def isRetryable : StorageFault → Bool
  | .poolTimedOut => true
  | f => f.isBusy

end StorageFault

/-! ### The catalog -/

/-- Why an operation on the catalog failed. -/
inductive Fault where
  | storage (cause : StorageFault)
  | notFound (entity id : String)
  | invalidInput (field text : String)
  /-- The collection `item` already holds the collection `collection`, directly or further down. -/
  | cycle (field collection item : String)
  /-- Another refresh of the authority was under way. -/
  | lockContention (authority : String)
  | migration (text : String)
  /-- A checked sum fitted no word: the call broke off, and nobody gets an answer. -/
  | overflow
deriving DecidableEq, Repr

namespace Fault

def violated (c : Constraint) : Fault := .storage (.violated c)

/-- The name of the kind of fault. -/
def kind : Fault → String
  | .storage _ => "Database"
  | .notFound .. => "NotFound"
  | .invalidInput .. => "InvalidInput"
  | .cycle .. => "Cycle"
  | .lockContention _ => "LockContention"
  | .migration _ => "Migration"
  | .overflow => "Panic"

def message : Fault → String
  | .storage cause => s!"Database error: {cause.message}"
  | .notFound entity id => s!"Entity not found: {entity} with id {id}"
  | .invalidInput field text => s!"Invalid input: {field} - {text}"
  | .cycle field collection item =>
    s!"Cycle found: {field} - collection {item} already contains collection {collection}"
  | .lockContention authority => s!"Authority {authority} is locked by another refresh"
  | .migration text => s!"Migration failed: {text}"
  | .overflow => "attempt to add with overflow"

/-- Whether the same call may succeed when it is made again. -/
def isRetryable : Fault → Bool
  | .lockContention _ => true
  | .storage cause => cause.isRetryable
  | _ => false

/-- The call broke off. -/
def breaksOff : Fault → Bool
  | .overflow => true
  | _ => false

end Fault

/-! ### Sums -/

/-- How sums are made that fit no word. -/
class Arithmetic where
  /-- The call breaks off. -/
  checked : Bool

/-- Sums are checked where nothing else is said. -/
instance Arithmetic.checking : Arithmetic := ⟨true⟩

/-- The sum of a signed word of 64 bits and one. -/
def Word.next [Arithmetic] (n : Int) : Except Fault Int :=
  if n < last then .ok (n + 1)
  else if Arithmetic.checked then .error .overflow
  else .ok first

/-! ### Settings and the service -/

/-- Why settings were refused, or why the frame around the catalog failed. -/
inductive SettingsFault where
  | refused (text : String)
  | internal (text : String)
deriving DecidableEq, Repr

namespace SettingsFault

def kind : SettingsFault → String
  | .refused _ => "Config"
  | .internal _ => "Internal"

def message : SettingsFault → String
  | .refused text => s!"Configuration error: {text}"
  | .internal text => s!"Internal error: {text}"

/-- Goes on where the condition holds, and refuses the settings otherwise. -/
def refuseUnless (condition : Bool) (text : String) : Except SettingsFault Unit :=
  if condition then .ok () else .error (.refused text)

end SettingsFault

/-- Why a call of the whole service failed. -/
inductive ServiceFault where
  | initialization (text : String)
  | settings (cause : SettingsFault)
  | catalog (cause : Fault)
deriving DecidableEq, Repr

namespace ServiceFault

def kind : ServiceFault → String
  | .initialization _ => "InitializationFailed"
  | .settings cause => cause.kind
  | .catalog cause => cause.kind

def message : ServiceFault → String
  | .initialization text => s!"Core initialization failed: {text}"
  | .settings cause => s!"Runtime error: {cause.message}"
  | .catalog cause => s!"Catalog error: {cause.message}"

/-- Only a fault of the catalog may pass by itself. -/
def isRetryable : ServiceFault → Bool
  | .catalog cause => cause.isRetryable
  | _ => false

end ServiceFault

end Anthology
