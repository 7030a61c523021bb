/-
**Slots.**

A collection is a sequence of slots.  A slot refers to a work or to another collection, or it
refers to nothing: then it is a placeholder, which keeps a place free under a label, or a paratext,
which carries a text of its own.  Slots are ordered by their sequence number, and slots with the
same number by their id.

Main definitions:

* `Anthology.ItemRef` — what a slot refers to;
* `Anthology.Slot` — a slot; `Anthology.Slot.flaw?` — what makes it unfit to be stored;
* `Anthology.Slot.isReadable` — whether its number can be read back;
* `Anthology.Slot.precedes` — the order of slots;
* `Anthology.SlotAttrs` — what an editor may say of a slot;
* `Anthology.Slot.isPlaceholder`, `Anthology.Slot.isParatext` — the two kinds of empty slot.
-/

import Anthology.Record.Collection
import Anthology.Text.Lines

set_option relaxedAutoImplicit false
set_option autoImplicit false

namespace Anthology

/-! ### References -/

/-- What a slot refers to. -/
inductive ItemRef where
  | empty
  | manifestation (id : Id)
  | collection (id : Id)
deriving DecidableEq, Repr

namespace ItemRef

instance : Inhabited ItemRef := ⟨empty⟩

/-- The reference written as the name of a type and an id, of which neither stands alone. -/
def parts : ItemRef → Option String × Option Id
  | empty => (none, none)
  | manifestation id => (some "Manifestation", some id)
  | collection id => (some "Collection", some id)

/-- The reference with the given parts. -/
def ofParts : Option String → Option Id → Except Fault ItemRef
  | none, none => .ok empty
  | some "Manifestation", some id => .ok (manifestation id)
  | some "Collection", some id => .ok (collection id)
  | some other, some _ => .error (.invalidInput "item_type" s!"unsupported item type '{other}'")
  | _, _ => .error (.invalidInput "item" "item_type and item_id must be set together")

theorem ofParts_parts (r : ItemRef) : ofParts r.parts.1 r.parts.2 = .ok r := by
  cases r <;> rfl

def collection? : ItemRef → Option Id
  | collection id => some id
  | _ => none

def manifestation? : ItemRef → Option Id
  | manifestation id => some id
  | _ => none

def isEmpty : ItemRef → Bool
  | empty => true
  | _ => false

/-- Only a reference to something can change how many works a collection holds. -/
def affectsCount (r : ItemRef) : Bool := !r.isEmpty

@[simp] theorem collection?_eq_some {r : ItemRef} {id : Id} :
    r.collection? = some id ↔ r = collection id := by
  cases r <;> simp [collection?]

@[simp] theorem manifestation?_eq_some {r : ItemRef} {id : Id} :
    r.manifestation? = some id ↔ r = manifestation id := by
  cases r <;> simp [manifestation?]

/-- The name of the case beside the id; the empty reference takes no id but null. -/
def codec : Codec ItemRef where
  encode
    | empty => .object [("type", .string "Empty")]
    | manifestation id => .object [("type", .string "Manifestation"), ("id", .string id)]
    | collection id => .object [("type", .string "Collection"), ("id", .string id)]
  decode j := do
    match ← j.adjacent? "type" "id" with
    | ("Empty", none) | ("Empty", some .null) => some empty
    | ("Manifestation", some id) => id.string?.map manifestation
    | ("Collection", some id) => id.string?.map collection
    | _ => none

end ItemRef

/-! ### Slots -/

@[ext] structure Slot where
  id : Id
  /-- The collection whose slot it is. -/
  owner : Id
  /-- A number as its row holds it.  The sum behind the last word is kept there as a real number. -/
  seqno : Int
  item : ItemRef
  /-- The label of a placeholder. -/
  altTitle : Option String
  /-- The text of a paratext. -/
  markdown : Option String
  createdAt : Time
  updatedAt : Time
deriving DecidableEq

/-- What an editor may say of a slot.  Without a number it goes to the end of its collection. -/
@[ext] structure SlotAttrs where
  seqno : Option Int64
  altTitle : Option String
  markdown : Option String
deriving DecidableEq

namespace SlotAttrs

/-- Nothing is said. -/
def unset : SlotAttrs := ⟨none, none, none⟩

def placeholder (label : String) : SlotAttrs := { unset with altTitle := some label }

def paratext (markdown : String) : SlotAttrs := { unset with markdown := some markdown }

/-- The same, at a given place. -/
def placed (a : SlotAttrs) (seqno : Int64) : SlotAttrs := { a with seqno := some seqno }

def codec : Codec SlotAttrs where
  encode a := .object [
    ("seqno", Codec.word.optional.encode a.seqno),
    ("alt_title", Codec.text.optional.encode a.altTitle),
    ("markdown", Codec.text.optional.encode a.markdown)]
  decode j := do
    let fs ← j.record? ["seqno", "alt_title", "markdown"]
    return {
      seqno := ← fs.get? "seqno" .word
      altTitle := ← fs.get? "alt_title" .text
      markdown := ← fs.get? "markdown" .text }

end SlotAttrs

namespace Slot

/-- A new slot without a label or a text. -/
def create (id : Id) (now : Time) (owner : Id) (item : ItemRef) (seqno : Int) : Slot where
  id
  owner
  seqno
  item
  altTitle := none
  markdown := none
  createdAt := now
  updatedAt := now

/-- What makes a slot unfit to be stored. -/
def flaw? (s : Slot) : Option String :=
  if s.seqno ≤ 0 then some "Seqno must be positive"
  else if Text.isBlank s.owner then some "Collection item must belong to a collection"
  else none

/-- The number can be read back from the row.  A real number cannot. -/
def isReadable (s : Slot) : Bool := s.seqno ≤ Word.last

/-- The order of slots: by number, and by id where the numbers agree. -/
def precedes (s t : Slot) : Bool := s.seqno < t.seqno || (s.seqno == t.seqno && s.id ≤ t.id)

/-! ### Empty slots -/

def isCollection (s : Slot) : Bool := s.item.collection?.isSome

/-- An empty slot with a text of its own. -/
def isParatext (s : Slot) : Bool :=
  s.item.isEmpty && s.markdown.any fun m => !Text.isBlank m

/-- An empty slot without a text. -/
def isPlaceholder (s : Slot) : Bool := s.item.isEmpty && !s.isParatext

/-- The label of an empty slot, unless it is blank.  Any other slot is called after what it
refers to. -/
def placeholderTitle? (s : Slot) : Option String :=
  if s.item.isEmpty then s.altTitle.filter fun t => !Text.isBlank t else none

/-- The first line of the text that is not blank, and the empty text where there is none. -/
def firstContentfulMarkdown (s : Slot) : String :=
  match s.markdown with
  | some m => Text.firstContentful m
  | none => ""

def codec : Codec Slot where
  encode s := .object [
    ("id", .string s.id),
    ("collection_id", .string s.owner),
    ("seqno", .number s.seqno),
    ("item", ItemRef.codec.encode s.item),
    ("alt_title", Codec.text.optional.encode s.altTitle),
    ("markdown", Codec.text.optional.encode s.markdown),
    ("created_at", .number s.createdAt),
    ("updated_at", .number s.updatedAt)]
  decode j := do
    let fs ← j.record?
      ["id", "collection_id", "seqno", "item", "alt_title", "markdown", "created_at", "updated_at"]
    return {
      id := ← fs.get "id" .text
      owner := ← fs.get "collection_id" .text
      seqno := ← fs.get "seqno" (.signed 64)
      item := ← fs.get "item" ItemRef.codec
      altTitle := ← fs.get? "alt_title" .text
      markdown := ← fs.get? "markdown" .text
      createdAt := ← fs.get "created_at" (.signed 64)
      updatedAt := ← fs.get "updated_at" (.signed 64) }

end Slot

end Anthology
