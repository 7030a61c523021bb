/-
**Containment.**

A collection contains the collections that its slots refer to, and those in turn contain others.
No collection may come to contain itself, so a slot may refer to a collection only if that
collection does not already contain, at whatever depth, the owner of the slot.

Main definitions:

* `Anthology.Store.childrenOf`, `Anthology.Store.holdersOf` — one step down and one step up;
* `Anthology.Store.Contains` — containment at whatever depth, in zero or more steps;
* `Anthology.Store.downward`, `Anthology.Store.upward` — all collections below and above one;
* `Anthology.Store.guard` — refuses a reference that would close a cycle.

Main results:

* `Anthology.Store.mem_childrenOf`, `Anthology.Store.mem_holdersOf` — the two steps, by slots;
* `Anthology.Store.mem_childrenOf_iff_mem_parentsOf` — they are converse to each other.
-/

import Anthology.Store.Basic
import Anthology.Walk

set_option relaxedAutoImplicit false
set_option autoImplicit false

namespace Anthology

namespace Store

/-! ### Single steps -/

/-- Ids in ascending order, each once. -/
def distinct (ids : List Id) : List Id := ids.eraseDups.mergeSort fun a b => decide (a ≤ b)

@[simp] theorem mem_distinct {ids : List Id} {a : Id} : a ∈ distinct ids ↔ a ∈ ids := by
  simp [distinct, List.mem_eraseDups]

/-- The collections that the slots of a collection refer to, once for each slot. -/
def childrenOf (s : Store) (c : Id) : List Id := (s.slotsOf c).filterMap fun x => x.item.collection?

/-- The collections with a slot that refers to `r`, in ascending order. -/
def holdersOf (s : Store) (r : ItemRef) : List Id :=
  distinct ((s.slots.rows.filter fun x => x.item == r).map Slot.owner)

/-- The collections with a slot that refers to the collection `c`, in ascending order. -/
def parentsOf (s : Store) (c : Id) : List Id := s.holdersOf (.collection c)

theorem mem_childrenOf {s : Store} {c d : Id} :
    d ∈ s.childrenOf c ↔ ∃ x ∈ s.slots.rows, x.owner = c ∧ x.item = .collection d := by
  simp [childrenOf, and_assoc]

theorem mem_holdersOf {s : Store} {r : ItemRef} {c : Id} :
    c ∈ s.holdersOf r ↔ ∃ x ∈ s.slots.rows, x.owner = c ∧ x.item = r := by
  simp only [holdersOf, mem_distinct, List.mem_map, List.mem_filter, beq_iff_eq]
  exact ⟨fun ⟨x, ⟨hx, hr⟩, ho⟩ => ⟨x, hx, ho, hr⟩, fun ⟨x, hx, ho, hr⟩ => ⟨x, ⟨hx, hr⟩, ho⟩⟩

theorem mem_childrenOf_iff_mem_parentsOf {s : Store} {c d : Id} :
    d ∈ s.childrenOf c ↔ c ∈ s.parentsOf d := by
  rw [mem_childrenOf, parentsOf, mem_holdersOf]

/-! ### Any number of steps -/

/-- The collection `c` is `d`, or a slot of it refers to a collection that contains `d`. -/
inductive Contains (s : Store) : Id → Id → Prop where
  | refl (c : Id) : Contains s c c
  | step {c d e : Id} (h : d ∈ s.childrenOf c) (rest : Contains s d e) : Contains s c e

/-- No collection contains itself in one step or more. -/
def Acyclic (s : Store) : Prop := ∀ c d, d ∈ s.childrenOf c → ¬ s.Contains d c

/-- Each visit leads to at most as many further ones as there are slots to leave by, and each slot
is left by once. -/
def walkBound (s : Store) : Nat := s.slots.size + 1

/-- The collections that `c` contains, itself first. -/
def downward (s : Store) (c : Id) : List Id := Walk.visit s.childrenOf s.walkBound [c] []

/-- The collections that contain `c`, itself first and the nearer ones before the farther. -/
def upward (s : Store) (c : Id) : List Id := Walk.visit s.parentsOf s.walkBound [c] []

/-! ### The guard -/

/-- Refuses a reference from the collection `owner` to one that contains `owner`. -/
def guard (s : Store) (owner : Id) : ItemRef → Except Fault Unit
  | .collection child =>
    ensure (owner ∉ s.downward child) (.cycle "item" owner child)
  | _ => .ok ()

end Store

end Anthology
