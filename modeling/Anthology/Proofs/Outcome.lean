/-
**Outcomes of single writes.**

An operation on the store is a chain of steps, each of which may fail.  To reason about what an
operation did, the chain is taken apart: it succeeded exactly when each of its steps did.  This
module holds the equations that take it apart, down to the writes of single rows, where success
says which rule of the schema was met and what the table holds afterwards, and failure which rule
was broken.

Main definitions:

* `Anthology.Word.HasRoom` — so many numbers can be given out behind one;
* `Anthology.Store.Readable` — the numbers of all slots of a collection can be read.

Main results:

* `Anthology.bind_eq_ok`, `Anthology.bind_eq_error` — a chain succeeds exactly when its parts do,
  and fails when one of them does;
* `Anthology.Word.next_eq_ok`, `Anthology.Word.next_eq_error` — when a word has a next one;
* `Anthology.Word.hasRoom_zero_iff`, `Anthology.Word.hasRoom_succ_iff` — when it has so many;
* `Anthology.Store.requireSlot_eq_ok`, `Anthology.Store.readSlots_eq_ok` and others — what is read,
  and that it can be read;
* `Anthology.Store.putCollection_eq_ok`, `Anthology.Store.putSlot_eq_ok` and others — what a new row
  needs, and where it stands afterwards;
* `Anthology.Store.putCollection_eq_error`, `Anthology.Store.insertSlot_eq_error` — why a new row is
  refused;
* `Anthology.Store.setLink_eq_ok` — what a new link needs.
-/

import Anthology.Uncollected.Cleanup

set_option relaxedAutoImplicit false
set_option autoImplicit false

namespace Anthology

/-! ### Chains -/

section Chains

variable {ε α β : Type}

theorem bind_eq_ok {x : Except ε α} {f : α → Except ε β} {b : β} :
    (x >>= f) = .ok b ↔ ∃ a, x = .ok a ∧ f a = .ok b := by
  cases x <;> simp [bind, Except.bind]

theorem bind_eq_error {x : Except ε α} {f : α → Except ε β} {e : ε} :
    (x >>= f) = .error e ↔ x = .error e ∨ ∃ a, x = .ok a ∧ f a = .error e := by
  cases x <;> simp [bind, Except.bind]

/-- What follows a step matters only where the step succeeds. -/
theorem bind_congr_ok {x : Except ε α} {f g : α → Except ε β} (h : ∀ a, x = .ok a → f a = g a) :
    (x >>= f) = (x >>= g) := by
  cases x with
  | error e => rfl
  | ok a => exact h a rfl

theorem pure_ne_error {a : α} {e : ε} : (pure a : Except ε α) ≠ .error e := by
  simp [pure, Except.pure]

theorem pure_eq_ok {a b : α} : (pure a : Except ε α) = .ok b ↔ a = b := by
  simp [pure, Except.pure]

theorem map_eq_ok {x : Except ε α} {f : α → β} {b : β} :
    x.map f = .ok b ↔ ∃ a, x = .ok a ∧ f a = b := by
  cases x <;> simp [Except.map]

theorem map_eq_error {x : Except ε α} {f : α → β} {e : ε} :
    x.map f = .error e ↔ x = .error e := by
  cases x <;> simp [Except.map]

/-- What a computed outcome shows. -/
theorem exists_eq_ok_of_any {x : Except ε α} {p : α → Prop} [DecidablePred p]
    (h : (x.toOption.any fun a => decide (p a)) = true) : ∃ a, x = .ok a ∧ p a := by
  cases x with
  | error e => simp [Except.toOption] at h
  | ok a => exact ⟨a, rfl, by simpa [Except.toOption] using h⟩

/-- What a computed success shows. -/
theorem exists_eq_ok_of_isOk {x : Except ε α} (h : x.isOk = true) : ∃ a, x = .ok a := by
  cases x with
  | error e => contradiction
  | ok a => exact ⟨a, rfl⟩

/-- What a computed failure shows. -/
theorem exists_eq_error_of_isOk {x : Except ε α} (h : x.isOk = false) : ∃ e, x = .error e := by
  cases x with
  | error e => exact ⟨e, rfl⟩
  | ok a => contradiction

end Chains

/-! ### Sums -/

section Sums

variable [Arithmetic] {n m : Int}

theorem Word.next_eq_ok : next n = .ok m ↔
    n < last ∧ m = n + 1 ∨ last ≤ n ∧ Arithmetic.checked = false ∧ m = first := by
  by_cases hlt : n < last
  · rw [next, if_pos hlt, Except.ok.injEq, eq_comm (a := n + 1)]
    simp only [hlt, true_and, Int.not_le.2 hlt, false_and, or_false]
  · have hle := Int.not_lt.1 hlt
    rw [next, if_neg hlt]
    by_cases hchecked : Arithmetic.checked = true
    · simp only [hchecked, if_true, reduceCtorEq, hlt, false_and, and_false, or_self,
        Bool.true_eq_false]
    · rw [if_neg hchecked, Except.ok.injEq, eq_comm (a := first)]
      simp only [hlt, false_and, false_or, hle, true_and, Bool.not_eq_true _ ▸ hchecked]

theorem Word.next_eq_error {g : Fault} :
    next n = .error g ↔ last ≤ n ∧ Arithmetic.checked = true ∧ g = .overflow := by
  by_cases hlt : n < last
  · simp only [next, if_pos hlt, reduceCtorEq, Int.not_le.2 hlt, false_and]
  · rw [next, if_neg hlt]
    by_cases hchecked : Arithmetic.checked = true
    · rw [if_pos hchecked, Except.error.injEq, eq_comm (a := Fault.overflow)]
      simp only [Int.not_lt.1 hlt, hchecked, true_and]
    · simp only [hchecked, if_false, reduceCtorEq, Bool.false_eq_true, false_and, and_false]

theorem Word.next_of_lt (h : n < last) : next n = .ok (n + 1) := if_pos h

/-- Of a sum that came out at the other end of the words there is nothing positive. -/
theorem Word.next_of_pos (h : next n = .ok m) (hm : 0 < m) : n < last ∧ m = n + 1 := by
  rcases next_eq_ok.1 h with hnext | ⟨-, -, rfl⟩
  · exact hnext
  · exact absurd hm (Int.lt_asymm first_neg)

/-- Behind the number `n` so many more can be given out.  Where sums are checked, the one behind the
last of them is made too. -/
def Word.HasRoom (n : Int) (k : Nat) : Prop :=
  n + k + (if Arithmetic.checked then 1 else 0) ≤ last

instance {k : Nat} : Decidable (Word.HasRoom n k) := inferInstanceAs (Decidable (_ ≤ _))

theorem Word.hasRoom_zero_iff : HasRoom n 0 ↔ n ≤ last ∧ ∃ m, next n = .ok m := by
  simp only [HasRoom, next_eq_ok]
  by_cases hchecked : Arithmetic.checked = true
  · simp only [hchecked, if_true, Bool.true_eq_false, false_and, and_false, or_false]
    constructor
    · intro h
      exact ⟨by omega, n + 1, by omega, rfl⟩
    · rintro ⟨-, -, hlt, -⟩
      omega
  · simp only [hchecked, Bool.false_eq_true, if_false, true_and]
    constructor
    · intro h
      by_cases hlt : n < last
      · exact ⟨by omega, n + 1, .inl ⟨hlt, rfl⟩⟩
      · exact ⟨by omega, first, .inr ⟨by omega, rfl⟩⟩
    · rintro ⟨hle, -⟩
      omega

theorem Word.hasRoom_add_iff {j k : Nat} : HasRoom n (j + k) ↔ HasRoom (n + j) k := by
  unfold HasRoom
  rw [Int.natCast_add, ← Int.add_assoc]

theorem Word.hasRoom_succ_iff {k : Nat} : HasRoom n (k + 1) ↔ HasRoom (n + 1) k := by
  rw [Nat.add_comm, hasRoom_add_iff, Int.natCast_one]

theorem Word.HasRoom.mono {j k : Nat} (h : HasRoom n k) (hjk : j ≤ k) : HasRoom n j := by
  unfold HasRoom at *
  omega

end Sums

namespace Store

/-! ### Checks -/

theorem ensure_eq_ok {c : Bool} {f : Fault} {u : Unit} : ensure c f = .ok u ↔ c = true := by
  cases c <;> simp [ensure]

theorem inspect_eq_ok {entity : String} {flaw? : Option String} {u : Unit} :
    inspect entity flaw? = .ok u ↔ flaw? = none := by
  cases flaw? <;> simp [inspect]

theorem require_eq_ok {α : Type} {entity : String} {id : Id} {found : Option α} {a : α} :
    require entity id found = .ok a ↔ found = some a := by
  cases found <;> simp [require]

theorem ensure_eq_error {c : Bool} {f g : Fault} : ensure c f = .error g ↔ c = false ∧ g = f := by
  cases c <;> simp [ensure, eq_comm]

theorem inspect_eq_error {entity : String} {flaw? : Option String} {g : Fault} :
    inspect entity flaw? = .error g ↔
      ∃ text, flaw? = some text ∧ g = .invalidInput entity text := by
  cases flaw? <;> simp [inspect, eq_comm]

theorem require_eq_error {α : Type} {entity : String} {id : Id} {found : Option α} {g : Fault} :
    require entity id found = .error g ↔ found = none ∧ g = .notFound entity id := by
  cases found <;> simp [require, eq_comm]

theorem requireCollection_eq_ok {s : Store} {id : Id} {c : Collection} :
    s.requireCollection id = .ok c ↔ s.collection? id = some c := require_eq_ok

theorem legible_eq_ok {xs : List Slot} {u : Unit} :
    legible xs = .ok u ↔ ∀ x ∈ xs, x.isReadable = true := by
  rw [legible, ensure_eq_ok, List.all_eq_true]

theorem legible_eq_error {xs : List Slot} {g : Fault} : legible xs = .error g ↔
    (¬ ∀ x ∈ xs, x.isReadable = true) ∧ g = .storage .unreadableSeqno := by
  rw [legible, ensure_eq_error, ← Bool.not_eq_true, List.all_eq_true]

theorem fetchSlot_eq_ok {s : Store} {id : Id} {found : Option Slot} :
    s.fetchSlot id = .ok found ↔ s.slot? id = found ∧ ∀ x ∈ found, x.isReadable = true := by
  simp only [fetchSlot, bind_eq_ok, legible_eq_ok, pure_eq_ok, exists_const, Option.mem_toList]
  constructor
  · rintro ⟨h, rfl⟩
    exact ⟨rfl, h⟩
  · rintro ⟨rfl, h⟩
    exact ⟨h, rfl⟩

theorem requireSlot_eq_ok {s : Store} {id : Id} {x : Slot} :
    s.requireSlot id = .ok x ↔ s.slot? id = some x ∧ x.isReadable = true := by
  simp only [requireSlot, bind_eq_ok, fetchSlot_eq_ok, require_eq_ok]
  constructor
  · rintro ⟨found, ⟨rfl, hread⟩, hx⟩
    exact ⟨hx, hread x hx⟩
  · rintro ⟨hx, hread⟩
    exact ⟨some x, ⟨hx, fun y hy => Option.some.inj hy ▸ hread⟩, rfl⟩

/-- The numbers of all slots of the collection can be read. -/
def Readable (s : Store) (c : Id) : Prop := ∀ x ∈ s.slotsOf c, x.isReadable = true

instance {s : Store} {c : Id} : Decidable (s.Readable c) := inferInstanceAs (Decidable (∀ _ ∈ _, _))

theorem readSlots_eq_ok {s : Store} {c : Id} {xs : List Slot} :
    s.readSlots c = .ok xs ↔ s.Readable c ∧ s.orderedSlots c = xs := by
  simp only [readSlots, bind_eq_ok, legible_eq_ok, pure_eq_ok, exists_const, Readable]

theorem readSlots_eq_error {s : Store} {c : Id} {g : Fault} :
    s.readSlots c = .error g ↔ ¬ s.Readable c ∧ g = .storage .unreadableSeqno := by
  simp only [readSlots, bind_eq_error, legible_eq_error, pure_ne_error, and_false, exists_false,
    or_false, Readable]

theorem readMax_eq_ok {s : Store} {c : Id} {n : Int} :
    s.readMax c = .ok n ↔ s.maxSeqno c ≤ Word.last ∧ s.maxSeqno c = n := by
  simp only [readMax, bind_eq_ok, ensure_eq_ok, decide_eq_true_eq, pure_eq_ok, exists_const]

theorem readMax_eq_error {s : Store} {c : Id} {g : Fault} :
    s.readMax c = .error g ↔ Word.last < s.maxSeqno c ∧ g = .storage .unreadableMax := by
  simp only [readMax, bind_eq_error, ensure_eq_error, decide_eq_false_iff_not, Int.not_le,
    pure_ne_error, and_false, exists_false, or_false]

/-- Only a collection or a work that is there can be referred to anew. -/
theorem requireTarget_eq_ok {s : Store} {r : ItemRef} {u : Unit} :
    s.requireTarget r = .ok u ↔
      (∀ c, r = .collection c → s.hasCollection c = true) ∧
        ∀ m, r = .manifestation m → s.hasManifestation m = true := by
  cases r <;> simp [requireTarget, ensure_eq_ok]

/-! ### Rows found -/

theorem collection?_eq_some {s : Store} {id : Id} {c : Collection} :
    s.collection? id = some c ↔ c ∈ s.collections.rows ∧ c.id = id := Table.find?_eq_some_iff

theorem slot?_eq_some {s : Store} {id : Id} {x : Slot} :
    s.slot? id = some x ↔ x ∈ s.slots.rows ∧ x.id = id := Table.find?_eq_some_iff

theorem authority?_eq_some {s : Store} {id : Id} {a : Authority} :
    s.authority? id = some a ↔ a ∈ s.authorities.rows ∧ a.id = id := Table.find?_eq_some_iff

theorem hasCollection_iff {s : Store} {id : Id} :
    s.hasCollection id = true ↔ ∃ c ∈ s.collections.rows, c.id = id := Table.has_iff

theorem hasManifestation_iff {s : Store} {id : Id} :
    s.hasManifestation id = true ↔ ∃ m ∈ s.manifestations.rows, m.id = id := Table.has_iff

theorem isSome_authority?_iff {s : Store} {id : Id} :
    (s.authority? id).isSome = true ↔ ∃ a ∈ s.authorities.rows, a.id = id := by
  rw [Option.isSome_iff_exists]
  exact exists_congr fun a => authority?_eq_some

theorem hasCollection_of_collection? {s : Store} {id : Id} {c : Collection}
    (h : s.collection? id = some c) : s.hasCollection id = true :=
  hasCollection_iff.2 ⟨c, collection?_eq_some.1 h⟩

/-! ### New rows -/

section NewRows

variable {s s' : Store}

theorem insertInto_eq_ok {α κ : Type} [Keyed α κ] [DecidableEq κ] {t u : Table α} {a : α}
    {rule : Constraint} :
    insertInto t a rule = .ok u ↔ t.has (Keyed.key a) = false ∧ u.rows = t.rows ++ [a] := by
  rw [← Table.insert?_eq_some_iff]
  unfold insertInto
  split <;> simp_all

theorem insertInto_eq_error {α κ : Type} [Keyed α κ] [DecidableEq κ] {t : Table α} {a : α}
    {rule : Constraint} {g : Fault} :
    insertInto t a rule = .error g ↔ t.has (Keyed.key a) = true ∧ g = .violated rule := by
  unfold insertInto Table.insert?
  by_cases h : t.has (Keyed.key a) = true <;> simp [h, eq_comm]

theorem putCollection_eq_ok {c : Collection} :
    s.putCollection c = .ok s' ↔ c.flaw? = none ∧ s.hasCollection c.id = false ∧
      ∃ t : Table Collection, t.rows = s.collections.rows ++ [c] ∧
        s' = { s with collections := t } := by
  simp only [putCollection, bind_eq_ok, inspect_eq_ok, insertInto_eq_ok, pure_eq_ok]
  constructor
  · rintro ⟨_, hf, t, ⟨hk, ht⟩, rfl⟩
    exact ⟨hf, hk, t, ht, rfl⟩
  · rintro ⟨hf, hk, t, ht, rfl⟩
    exact ⟨(), hf, t, ⟨hk, ht⟩, rfl⟩

theorem putSlot_eq_ok {x : Slot} :
    s.putSlot x = .ok s' ↔
      0 < x.seqno ∧ s.slots.has x.id = false ∧ s.hasCollection x.owner = true ∧
        ∃ t : Table Slot, t.rows = s.slots.rows ++ [x] ∧ s' = { s with slots := t } := by
  simp only [putSlot, bind_eq_ok, ensure_eq_ok, insertInto_eq_ok, pure_eq_ok, decide_eq_true_eq]
  constructor
  · rintro ⟨_, hn, t, ⟨hk, ht⟩, _, ho, rfl⟩
    exact ⟨hn, hk, ho, t, ht, rfl⟩
  · rintro ⟨hn, hk, ho, t, ht, rfl⟩
    exact ⟨(), hn, t, ⟨hk, ht⟩, (), ho, rfl⟩

/-- A collection without a flaw is refused only because its id is taken. -/
theorem putCollection_eq_error {c : Collection} {g : Fault} (hc : c.flaw? = none) :
    s.putCollection c = .error g ↔ s.hasCollection c.id = true ∧ g = .violated .collectionKey := by
  simp only [putCollection, bind_eq_error, inspect_eq_error, inspect_eq_ok, insertInto_eq_error,
    pure_ne_error, hc, reduceCtorEq, false_and, exists_false, and_false, or_false, false_or,
    exists_const, true_and]
  rfl

theorem insertSlot_eq_ok {x : Slot} :
    s.insertSlot x = .ok s' ↔ x.flaw? = none ∧ s.putSlot x = .ok s' := by
  simp only [insertSlot, bind_eq_ok, inspect_eq_ok]
  exact ⟨fun ⟨_, h⟩ => h, fun h => ⟨(), h⟩⟩

theorem insertSlot_of_nonpos {x : Slot} (hn : x.seqno ≤ 0) :
    s.insertSlot x = .error (.invalidInput "CollectionItem" "Seqno must be positive") := by
  rw [insertSlot, Slot.flaw?, if_pos hn]
  rfl

/-- A slot with a number, in a collection that exists, is refused only because its collection has a
blank id or its own id is taken. -/
theorem insertSlot_eq_error {x : Slot} {g : Fault} (hn : 0 < x.seqno)
    (ho : s.hasCollection x.owner = true) (h : s.insertSlot x = .error g) :
    (Text.isBlank x.owner = true ∧
      g = .invalidInput "CollectionItem" "Collection item must belong to a collection") ∨
        s.slots.has x.id = true ∧ g = .violated .slotKey := by
  rcases bind_eq_error.1 h with h | ⟨_, -, h⟩
  · obtain ⟨text, hflaw, rfl⟩ := inspect_eq_error.1 h
    rw [Slot.flaw?, if_neg (Int.not_le.2 hn)] at hflaw
    split at hflaw
    · rename_i hblank
      cases hflaw
      exact .inl ⟨hblank, rfl⟩
    · contradiction
  · simp only [putSlot, bind_eq_error, ensure_eq_error, ensure_eq_ok, insertInto_eq_error,
      pure_ne_error, hn, ho, decide_true, and_false, false_and, exists_const, or_false, false_or,
      true_and, reduceCtorEq] at h
    exact .inr h

theorem putManifestation_eq_ok {m : Manifestation} :
    s.putManifestation m = .ok s' ↔ m.flaw? = none ∧ s.hasManifestation m.id = false ∧
      ∃ t : Table Manifestation, t.rows = s.manifestations.rows ++ [m] ∧
        s' = { s with manifestations := t } := by
  simp only [putManifestation, bind_eq_ok, inspect_eq_ok, insertInto_eq_ok, pure_eq_ok]
  constructor
  · rintro ⟨_, hf, t, ⟨hk, ht⟩, rfl⟩
    exact ⟨hf, hk, t, ht, rfl⟩
  · rintro ⟨hf, hk, t, ht, rfl⟩
    exact ⟨(), hf, t, ⟨hk, ht⟩, rfl⟩

/-- A new authority has no link. -/
theorem putAuthority_eq_ok {a : Authority} :
    s.putAuthority a = .ok s' ↔
      a.flaw? = none ∧ a.uncollected = none ∧ s.authorities.has a.id = false ∧
        ∃ t : Table Authority, t.rows = s.authorities.rows ++ [{ a with lockVersion := 0 }] ∧
          s' = { s with authorities := t } := by
  simp only [putAuthority, inspectAuthority, bind_eq_ok, inspect_eq_ok, ensure_eq_ok,
    insertInto_eq_ok, pure_eq_ok, Option.isNone_iff_eq_none]
  constructor
  · rintro ⟨_, ⟨_, hf, hl⟩, t, ⟨hk, ht⟩, rfl⟩
    exact ⟨hf, hl, hk, t, ht, rfl⟩
  · rintro ⟨hf, hl, hk, t, ht, rfl⟩
    exact ⟨(), ⟨(), hf, hl⟩, t, ⟨hk, ht⟩, rfl⟩

/-- A credit is there already, or it is new and joins two records that exist. -/
theorem putInvolvement_eq_ok {i : Involvement} (h : s.putInvolvement i = .ok s') :
    s' = s ∨ (s.authority? i.authority).isSome = true ∧ s.hasManifestation i.manifestation = true ∧
      ∃ t : Table Involvement, t.rows = s.involvements.rows ++ [i] ∧
        s' = { s with involvements := t } := by
  unfold putInvolvement at h
  split at h
  · exact .inl (Except.ok.inj h).symm
  · rename_i t ht
    simp only [bind_eq_ok, ensure_eq_ok, pure_eq_ok, Bool.and_eq_true] at h
    obtain ⟨_, ⟨ha, hm⟩, rfl⟩ := h
    exact .inr ⟨ha, hm, t, (Table.insert?_eq_some_iff.1 ht).2, rfl⟩

end NewRows

/-! ### Links -/

/-- A link to a collection needs the collection, and that no other authority has the link. -/
theorem setLink_eq_ok {s s' : Store} {a c : Id} (h : s.setLink a (some c) = .ok s') :
    (s.authority? a = none ∧ s' = s) ∨
      (∀ x ∈ s.authorities.rows, x.uncollected = some c → x.id = a) ∧
        s.hasCollection c = true ∧
        s' = s.editAuthority a (fun x => { x with uncollected := some c }) fun _ => rfl := by
  unfold setLink at h
  split at h
  · rename_i hn
    exact .inl ⟨hn, (Except.ok.inj h).symm⟩
  · contradiction
  · rename_i hl
    cases hl
    simp only [bind_eq_ok, ensure_eq_ok, pure_eq_ok, List.all_eq_true, Bool.or_eq_true,
      beq_iff_eq, bne_iff_ne] at h
    obtain ⟨_, hu, _, hc, rfl⟩ := h
    exact .inr ⟨fun x hx hl => (hu x hx).resolve_right (not_not_intro hl), hc, rfl⟩

end Store

end Anthology
