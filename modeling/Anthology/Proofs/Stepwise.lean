/-
**Many slots at once and one after the other.**

When many slots are added at once the numbers of works are counted anew at the end, and not at all
if no reference counts.  When the same slots are added one after the other they are counted anew
after each.  The checks are taken in stores that differ only in these numbers and look at none of
them, so they agree.  That the rows agree in the end is not clear at once: a row that is written on
the way keeps the time at which it was written, even if its number were to come back.  It does not
come back, because a slot that is added never makes a number smaller.

Both runs are therefore followed in one store, in which nothing was counted anew and no row carries
more than the right number.  Added one after the other, the slots lead through the stores that this
one would become if everything in it were counted anew, and so does the one recount at the end.

The numbers of the slots are made at different times.  Many slots at once start from a number that
is read before any check, and a next number is made behind each slot, the last one among them.  So
the two part where the words end.

Every slot is taken to belong to a collection that exists, as the foreign keys see to.  Otherwise a
recount could fail on its way up.  One after the other the run would then end at the first slot that
counts, while many slots at once would still come to the checks of those that follow.

Main definitions:

* `Anthology.Store.appendEach` — slots added one after the other;
* `Anthology.Store.refreshed` — everything counted anew;
* `Anthology.Store.Lags` — no row carries more than the right number;
* `Anthology.Store.appendBehind` — slots added behind the last one, without a recount;
* `Anthology.Store.AddedTogether` — how the two compare.

Main results:

* `Anthology.Store.recount_eq_refreshed` — a recount that makes all numbers right is one of
  everything;
* `Anthology.Store.refreshed_append` — what was counted anew before a slot is added makes no
  difference;
* `Anthology.Store.appendBehind_refreshed`, `Anthology.Store.appendBehind_exhausted` — the two runs
  in one store, where there is room and where the numbers give out;
* `Anthology.Store.appendMany_eq_appendEach` — **many slots at once are as many slots one after the
  other**, but where the words end.
-/

import Anthology.Proofs.Counted
import Anthology.Proofs.Growth
import Anthology.Proofs.Order
import Anthology.Proofs.Progress
import Anthology.Proofs.Repair

set_option relaxedAutoImplicit false
set_option autoImplicit false

namespace Anthology

/-- A work in a collection of its own, and beside it one collection in another. -/
def Operation.nested : List Operation := [
  .createManifestation (.create "work" 0 "Work" Manifestation.published),
  .createCollection (.create "leaf" 0 "Leaf" .other),
  .createCollection (.create "inner" 0 "Inner" .other),
  .createCollection (.create "outer" 0 "Outer" .other),
  .appendItem 1 "leaf work" "leaf" (.manifestation "work"),
  .appendItem 1 "outer inner" "outer" (.collection "inner")]

namespace Store

variable {s t u : Store} {now : Time} {fresh : ℕ → Id} {id c : Id} {k : ℕ} {r : ItemRef}
  {rs : List ItemRef} {ds : List Id} {slots : Table Slot} {x : Slot}

/-- Adds slots for the references to the end of the collection `c`, under the ids `fresh k`,
`fresh (k + 1)`, …, and counts anew after each. -/
def appendEach [Arithmetic] (now : Time) (fresh : ℕ → Id) (c : Id) (s : Store) (k : ℕ) :
    List ItemRef → Except Fault (List Slot × Store)
  | [] => .ok ([], s)
  | r :: rs => do
    let (x, s) ← s.appendItem now (fresh k) c r
    let (xs, s) ← appendEach now fresh c s (k + 1) rs
    return (x :: xs, s)

/-! ### Everything counted anew -/

/-- The store with the right number in every row. -/
def refreshed (s : Store) (now : Time) : Store := s.recount now s.collectionIds

theorem rows_refreshed (s : Store) (now : Time) :
    (s.refreshed now).collections.rows = s.collections.rows.map (repaired now s.countBelow) :=
  recount_collectionIds_rows s now

theorem cached_refreshed (s : Store) (now : Time) : (s.refreshed now).Cached s.countBelow := by
  intro row hrow
  rw [rows_refreshed] at hrow
  obtain ⟨old, -, rfl⟩ := List.mem_map.1 hrow
  rw [repaired_count, repaired_id]

/-- **A recount that makes all numbers right is one of everything**, because what it leaves out was
right before. -/
theorem recount_eq_refreshed (h : (t.recount now ds).Cached t.countBelow) :
    t.recount now ds = t.refreshed now := by
  have hrows : (t.recount now ds).collections.rows = (t.refreshed now).collections.rows := by
    rw [rows_refreshed]
    refine List.map_congr_left fun row hrow => ?_
    have hright := h _ (List.mem_map_of_mem hrow)
    rw [recountedIn_id] at hright
    unfold recountedIn at hright ⊢
    split
    · exact recounted_eq_repaired t now row
    · rename_i hout
      rw [if_neg hout] at hright
      exact (if_pos hright).symm
  exact congrArg (fun table => { t with collections := table }) (Table.ext hrows)

/-- A row that was written with a number in between comes to the same as one that was not, if its
number only grows. -/
theorem repaired_repaired {row : Collection} {number number' : Id → ℕ}
    (h : row.count ≤ number row.id) (h' : number row.id ≤ number' row.id) :
    repaired now number' (repaired now number row) = repaired now number' row := by
  by_cases hright : row.count = (number row.id : Int)
  · have hfirst : repaired now number row = row := if_pos hright
    rw [hfirst]
  · have hfirst : repaired now number row = { row with count := number row.id, updatedAt := now } :=
      if_neg hright
    have hlast : repaired now number' row =
        { row with count := number' row.id, updatedAt := now } := if_neg (by omega)
    rw [hfirst, hlast, repaired]
    split
    · rename_i hsame
      exact congrArg (fun count : Int => { row with count, updatedAt := now }) hsame
    · rfl

/-! ### A slot is added -/

/-- No row carries more than the right number. -/
def Lags (s : Store) : Prop := ∀ row ∈ s.collections.rows, row.count ≤ s.countBelow row.id

theorem countBelow_le_append (ha : s.Acyclic) (ht : Store.Acyclic { s with slots })
    (hrows : slots.rows = s.slots.rows ++ [x]) (e : Id) :
    s.countBelow e ≤ Store.countBelow { s with slots } e := by
  rw [countBelow_append ha ht hrows]
  exact Nat.le_add_right _ _

theorem Lags.append (h : s.Lags) (ha : s.Acyclic) (ht : Store.Acyclic { s with slots })
    (hrows : slots.rows = s.slots.rows ++ [x]) : Store.Lags { s with slots } := by
  intro row hrow
  exact (h row hrow).trans (Int.ofNat_le.2 (countBelow_le_append ha ht hrows row.id))

/-- **What was counted anew before a slot is added makes no difference** to what is counted anew
after it. -/
theorem refreshed_append (h : s.Lags) (ha : s.Acyclic) (ht : Store.Acyclic { s with slots })
    (hrows : slots.rows = s.slots.rows ++ [x]) :
    Store.refreshed { s.refreshed now with slots } now = Store.refreshed { s with slots } now := by
  have hcount : Store.countBelow { s.refreshed now with slots } =
      Store.countBelow { s with slots } := by
    have hsame : Store.SameContent { s with slots } { s.refreshed now with slots } :=
      ⟨rfl, fun _ => rfl, fun _ => recount_hasCollection⟩
    exact funext (countBelow_congr hsame (by simp [Table.size, rows_refreshed]))
  have hrows' : (Store.refreshed { s.refreshed now with slots } now).collections.rows =
      (Store.refreshed { s with slots } now).collections.rows := by
    rw [rows_refreshed, rows_refreshed, hcount, rows_refreshed, List.map_map]
    refine List.map_congr_left fun row hrow => ?_
    exact repaired_repaired (h row hrow) (countBelow_le_append ha ht hrows row.id)
  exact congrArg (fun table => { s with slots, collections := table }) (Table.ext hrows')

/-! ### One slot -/

/-- A slot comes in alike where numbers were counted anew. -/
theorem insertSlot_recount : (s.recount now ds).insertSlot x =
    (s.insertSlot x).map fun t => { s.recount now ds with slots := t.slots } := by
  have hslots : (s.recount now ds).slots = s.slots := rfl
  unfold insertSlot putSlot
  rw [recount_hasCollection, hslots]
  cases inspect "CollectionItem" x.flaw? with
  | error f => rfl
  | ok _ =>
      cases ensure (decide (0 < x.seqno)) (.violated .seqnoPositive) with
      | error f => rfl
      | ok _ =>
          cases insertInto s.slots x .slotKey with
          | error f => rfl
          | ok slots =>
              cases ensure (s.hasCollection x.owner) (.violated .foreignKey) <;> rfl

/-! ### Counting anew above a slot -/

theorem Owned.recount (h : s.Owned) (now : Time) (ds : List Id) : (s.recount now ds).Owned :=
  fun x hx => recount_hasCollection.trans (h x hx)

theorem counted_refreshed (howned : s.Owned) (ha : s.Acyclic) (now : Time) :
    (s.refreshed now).Counted := by
  have hcount : (s.refreshed now).countBelow = s.countBelow := funext fun _ => recount_countBelow
  refine (counted_iff_cached (howned.recount now _) (ha.of_slots rfl)).2 ?_
  exact hcount ▸ cached_refreshed s now

/-- Where all numbers are right there is nothing to be counted anew. -/
theorem Counted.refreshed_eq_self (hc : s.Counted) (howned : s.Owned) (ha : s.Acyclic) :
    s.refreshed now = s :=
  recount_eq_self fun row hrow _ => ((counted_iff_cached howned ha).1 hc row hrow).symm

/-- Where the numbers were right before a collection was touched, counting anew above it is counting
everything anew. -/
theorem Counted.recount_upward_eq {touched : Bool} (hc : s.Counted) (howned : t.Owned)
    (ha : t.Acyclic) (ht : Touches {d | touched = true ∧ d = c} s t) :
    t.recount now (if touched then t.upward c else []) = t.refreshed now := by
  have hkept := howned.recount now (if touched then t.upward c else [])
  have hacyclic : (t.recount now (if touched then t.upward c else [])).Acyclic := ha.of_slots rfl
  have hcached := (counted_iff_cached hkept hacyclic).1 (.recount_upward hkept hacyclic hc ht)
  have hcount : (t.recount now (if touched then t.upward c else [])).countBelow = t.countBelow :=
    funext fun _ => recount_countBelow
  exact recount_eq_refreshed (hcount ▸ hcached)

/-- Counting anew does not fail, and it counts everything anew. -/
theorem Counted.propagateIf_eq {touched : Bool} (hc : s.Counted) (howned : t.Owned)
    (ha : t.Acyclic) (hhas : t.hasCollection c = true)
    (ht : Touches {d | touched = true ∧ d = c} s t) :
    t.propagateIf now touched c = .ok (t.refreshed now) :=
  propagateIf_eq_ok.2 ⟨fun _ _ hd => hd.hasCollection howned hhas,
    (hc.recount_upward_eq howned ha ht).symm⟩

/-- Where everything was counted anew before a slot came in, counting anew above it counts
everything anew. -/
theorem propagateIf_inserted (howned : s.Owned) (ha : s.Acyclic) (hlags : s.Lags)
    (htarget : s.requireTarget x.item = .ok ()) (hguard : s.guard x.owner x.item = .ok ())
    (hput : s.putSlot x = .ok t) :
    Store.propagateIf { s.refreshed now with slots := t.slots } now x.item.affectsCount x.owner =
      .ok (t.refreshed now) := by
  have hacyclic : t.Acyclic := Writes.acyclic (.single (.putSlot htarget hguard hput)) ha
  have hkept : t.Owned := howned.putSlot hput
  obtain ⟨-, -, howner, slots, hrows, rfl⟩ := putSlot_eq_ok.1 hput
  rw [← refreshed_append hlags ha hacyclic hrows]
  exact (counted_refreshed howned ha now).propagateIf_eq
    (fun y hy => recount_hasCollection.trans (hkept y hy)) (hacyclic.of_slots rfl)
    (recount_hasCollection.trans howner) (.append_one hrows)

/-- Where everything was counted anew a slot is added under the same checks, and leads to where
everything is counted anew. -/
theorem appendItem_refreshed [Arithmetic] (howned : s.Owned) (ha : s.Acyclic) (hlags : s.Lags)
    (hc : s.hasCollection c = true) :
    (s.refreshed now).appendItem now id c r =
      s.requireTarget r >>= fun _ => s.guard c r >>= fun _ =>
        s.nextPlace c >>= fun n => s.insertSlot (.create id now c r n) >>= fun t =>
          pure (.create id now c r n, t.refreshed now) := by
  obtain ⟨row, hrow⟩ : ∃ row, (s.refreshed now).requireCollection c = .ok row :=
    exists_requireCollection (recount_hasCollection.trans hc)
  have htarget : (s.refreshed now).requireTarget r = s.requireTarget r := by
    cases r with
    | collection d => exact congrArg (ensure · _) recount_hasCollection
    | _ => rfl
  have hguard : (s.refreshed now).guard c r = s.guard c r := by cases r <;> rfl
  have hplace : (s.refreshed now).nextPlace c = s.nextPlace c := rfl
  rw [appendItem_eq hrow, htarget, hguard, hplace]
  refine bind_congr_ok fun _ ht => bind_congr_ok fun _ hg => bind_congr_ok fun n _ => ?_
  rw [refreshed, insertSlot_recount, ← refreshed]
  cases hi : s.insertSlot (.create id now c r n) with
  | error f => rfl
  | ok t =>
      obtain ⟨-, hput⟩ := insertSlot_eq_ok.1 hi
      have hcounted : Store.propagateIf { s.refreshed now with slots := t.slots } now
          r.affectsCount c = .ok (t.refreshed now) :=
        propagateIf_inserted howned ha hlags ht hg hput
      show Store.propagateIf _ now r.affectsCount c >>= _ = _
      rw [hcounted]
      rfl

/-! ### All slots -/

theorem appendEach_cons [Arithmetic] : appendEach now fresh c s k (r :: rs) =
    s.appendItem now (fresh k) c r >>= fun p =>
      appendEach now fresh c p.2 (k + 1) rs >>= fun q => pure (p.1 :: q.1, q.2) := rfl

/-- Adds slots for the references to the end of the collection `c`, under the ids `fresh k`,
`fresh (k + 1)`, …, and counts nothing anew. -/
def appendBehind [Arithmetic] (now : Time) (fresh : ℕ → Id) (c : Id) (s : Store) (k : ℕ)
    (rs : List ItemRef) :
    Except Fault (List Slot × Store) :=
  s.nextPlace c >>= fun n => appendFrom now fresh c s n k rs

/-- The number that was made behind a slot is the one that is looked up after it. -/
theorem nextPlace_inserted [Arithmetic] {n : Int} (hn : s.nextPlace c = .ok n)
    (hput : s.putSlot (.create id now c r n) = .ok t) :
    t.nextPlace c = Word.next n ∧ s.maxSeqno c < Word.last ∧ t.maxSeqno c = s.maxSeqno c + 1 := by
  obtain ⟨hpos, -, -, slots, hrows, rfl⟩ := putSlot_eq_ok.1 hput
  obtain ⟨hlt, rfl⟩ := nextPlace_of_pos hn hpos
  have hlast : Store.maxSeqno { s with slots } c = s.maxSeqno c + 1 := maxSeqno_append hrows rfl
  refine ⟨?_, hlt, hlast⟩
  have hread : Store.readMax { s with slots } c = .ok (s.maxSeqno c + 1) :=
    readMax_eq_ok.2 ⟨hlast ▸ hlt, hlast⟩
  rw [nextPlace, hread]
  rfl

theorem appendBehind_cons [Arithmetic] {n : Int} (hn : s.nextPlace c = .ok n) :
    appendBehind now fresh c s k (r :: rs) =
      s.requireTarget r >>= fun _ => s.guard c r >>= fun _ =>
        s.insertSlot (.create (fresh k) now c r n) >>= fun t =>
          appendBehind now fresh c t (k + 1) rs >>= fun p =>
            pure (.create (fresh k) now c r n :: p.1, p.2) := by
  rw [appendBehind, hn]
  show appendFrom now fresh c s n k (r :: rs) = _
  rw [appendFrom_cons]
  refine bind_congr_ok fun _ _ => bind_congr_ok fun _ _ => bind_congr_ok fun t hi => ?_
  rw [appendBehind, (nextPlace_inserted hn (insertSlot_eq_ok.1 hi).2).1, bind_assoc]

theorem appendEach_refreshed_cons [Arithmetic] {n : Int} (howned : s.Owned) (ha : s.Acyclic)
    (hlags : s.Lags)
    (hc : s.hasCollection c = true) (hn : s.nextPlace c = .ok n) :
    appendEach now fresh c (s.refreshed now) k (r :: rs) =
      s.requireTarget r >>= fun _ => s.guard c r >>= fun _ =>
        s.insertSlot (.create (fresh k) now c r n) >>= fun t =>
          appendEach now fresh c (t.refreshed now) (k + 1) rs >>= fun p =>
            pure (.create (fresh k) now c r n :: p.1, p.2) := by
  rw [appendEach_cons, appendItem_refreshed howned ha hlags hc, hn]
  simp only [bind_assoc, pure_bind]
  rfl

/-- What a slot at the end leaves, as far as the next one depends on it. -/
theorem Lags.inserted {n : Int} (howned : s.Owned) (ha : s.Acyclic) (hlags : s.Lags)
    (ht : s.requireTarget r = .ok ()) (hg : s.guard c r = .ok ())
    (hi : s.insertSlot (.create id now c r n) = .ok t) :
    t.Owned ∧ t.Acyclic ∧ t.Lags ∧ t.hasCollection c = true := by
  obtain ⟨-, hput⟩ := insertSlot_eq_ok.1 hi
  have hacyclic : t.Acyclic := Writes.acyclic (.single (.putSlot ht hg hput)) ha
  have hkept : t.Owned := howned.putSlot hput
  obtain ⟨-, -, howner, slots, hrows, rfl⟩ := putSlot_eq_ok.1 hput
  exact ⟨hkept, hacyclic, hlags.append ha hacyclic hrows, howner⟩

/-- There is a number for a slot behind the last one, or the sum comes out at the other end. -/
theorem exists_nextPlace [Arithmetic] (hmax : s.maxSeqno c ≤ Word.last)
    (hroom : Arithmetic.checked = true → s.maxSeqno c < Word.last) :
    ∃ n, s.nextPlace c = .ok n := by
  cases hnext : Word.next (s.maxSeqno c) with
  | ok n => exact ⟨n, nextPlace_eq_ok.2 ⟨hmax, hnext⟩⟩
  | error f =>
      obtain ⟨hle, hchecked, -⟩ := Word.next_eq_error.1 hnext
      exact absurd (hroom hchecked) (Int.not_lt.2 hle)

/-- Where the last number is taken and sums are checked nothing can be added behind it. -/
theorem appendBehind_full [Arithmetic] (hmax : s.maxSeqno c = Word.last)
    (hchecked : Arithmetic.checked = true) :
    appendBehind now fresh c s k rs = .error .overflow := by
  have hfull : Word.next (s.maxSeqno c) = .error .overflow :=
    Word.next_eq_error.2 ⟨hmax.ge, hchecked, rfl⟩
  rw [appendBehind, nextPlace, readMax_eq_ok.2 ⟨hmax.le, rfl⟩]
  exact bind_eq_error.2 (.inl hfull)

/-- Slots added one after the other lead through the stores that come of those without recounts, as
long as there is a number behind the last of them. -/
theorem appendBehind_refreshed [Arithmetic] (howned : s.Owned) (ha : s.Acyclic) (hlags : s.Lags)
    (hc : s.hasCollection c = true) (hmax : s.maxSeqno c ≤ Word.last)
    (hroom : Arithmetic.checked = true → s.maxSeqno c + rs.length < Word.last) :
    (appendBehind now fresh c s k rs >>= fun p => pure (p.1, p.2.refreshed now)) =
      appendEach now fresh c (s.refreshed now) k rs := by
  obtain ⟨n, hn⟩ := exists_nextPlace hmax fun hchecked => by
    have := hroom hchecked
    omega
  induction rs generalizing s k n with
  | nil =>
      rw [appendBehind, hn]
      rfl
  | cons r rs ih =>
      rw [appendEach_refreshed_cons howned ha hlags hc hn, appendBehind_cons hn]
      simp only [bind_assoc, pure_bind]
      refine bind_congr_ok fun _ ht => bind_congr_ok fun _ hg => bind_congr_ok fun t hi => ?_
      obtain ⟨hkept, hacyclic, hlags', hc'⟩ := hlags.inserted howned ha ht hg hi
      obtain ⟨-, hlt, hlast⟩ := nextPlace_inserted hn (insertSlot_eq_ok.1 hi).2
      have hmax' : t.maxSeqno c ≤ Word.last := hlast ▸ hlt
      have hroom' : Arithmetic.checked = true → t.maxSeqno c + rs.length < Word.last := by
        intro hchecked
        have := hroom hchecked
        rw [List.length_cons] at this
        omega
      obtain ⟨n', hn'⟩ := exists_nextPlace hmax' fun hchecked => by
        have := hroom' hchecked
        omega
      rw [← ih hkept hacyclic hlags' hc' hmax' hroom' n' hn']
      simp only [bind_assoc, pure_bind]

/-- Where the numbers give out, as many slots as there are numbers for are added one after the
other, unless one of them is refused, and then the call breaks off. -/
theorem appendBehind_exhausted [Arithmetic] (howned : s.Owned) (ha : s.Acyclic) (hlags : s.Lags)
    (hc : s.hasCollection c = true) (hmax : s.maxSeqno c ≤ Word.last)
    (hchecked : Arithmetic.checked = true) (hout : Word.last ≤ s.maxSeqno c + rs.length) :
    appendBehind now fresh c s k rs =
      appendEach now fresh c (s.refreshed now) k (rs.take (Word.last - s.maxSeqno c).toNat) >>=
        fun _ => .error .overflow := by
  induction rs generalizing s k with
  | nil =>
      rw [List.take_nil]
      exact appendBehind_full (le_antisymm hmax (by simpa using hout)) hchecked
  | cons r rs ih =>
      rcases Int.lt_or_eq_of_le hmax with hlt | heq
      · obtain ⟨n, hn⟩ := exists_nextPlace hmax fun _ => hlt
        obtain ⟨j, hj⟩ : ∃ j, (Word.last - s.maxSeqno c).toNat = j + 1 :=
          Nat.exists_eq_succ_of_ne_zero (by omega)
        rw [hj, List.take_succ_cons, appendEach_refreshed_cons howned ha hlags hc hn,
          appendBehind_cons hn]
        simp only [bind_assoc, pure_bind]
        refine bind_congr_ok fun _ ht => bind_congr_ok fun _ hg => bind_congr_ok fun t hi => ?_
        obtain ⟨hkept, hacyclic, hlags', hc'⟩ := hlags.inserted howned ha ht hg hi
        obtain ⟨-, -, hlast⟩ := nextPlace_inserted hn (insertSlot_eq_ok.1 hi).2
        have hleft : (Word.last - t.maxSeqno c).toNat = j := by omega
        rw [List.length_cons] at hout
        rw [ih hkept hacyclic hlags' hc' (by omega) (by omega), hleft]
        simp only [bind_assoc]
        rfl
      · have hnone : (Word.last - s.maxSeqno c).toNat = 0 := by omega
        rw [appendBehind_full heq hchecked, hnone]
        rfl

theorem Owned.appendRefs [Arithmetic] {xs : List Slot} (h : s.Owned)
    (hhas : s.hasCollection c = true)
    (hrun : s.appendRefs now fresh c rs = .ok (xs, t)) : t.Owned := by
  obtain ⟨rfl, ⟨slots, hrows, rfl⟩, -⟩ := appendRefs_eq_ok hrun
  intro x hx
  rcases List.mem_append.1 (hrows ▸ hx) with hx | hx
  · exact h x hx
  · exact appended_owner hx ▸ hhas

/-- One recount at the end leads to where everything is counted anew. -/
theorem appendMany_refreshed [Arithmetic] (howned : s.Owned) (ha : s.Acyclic) (hc : s.Counted)
    (hhas : s.hasCollection c = true) :
    s.appendMany now fresh c rs =
      appendBehind now fresh c s 0 rs >>= fun p => pure (p.1, p.2.refreshed now) := by
  obtain ⟨row, hrow⟩ := exists_requireCollection hhas
  rw [appendMany, hrow]
  show (s.appendRefs now fresh c rs >>= fun p => p.2.propagateIf now _ c >>= _) = _
  refine bind_congr_ok (x := s.appendRefs now fresh c rs) fun p hp => ?_
  obtain ⟨hxs, ⟨slots, hrows, hstore⟩, hwrites⟩ := appendRefs_eq_ok hp
  have hkept : p.2.Owned := howned.appendRefs hhas hp
  have htouches : Touches {d | rs.any ItemRef.affectsCount = true ∧ d = c} s p.2 :=
    hstore ▸ .appended (hxs ▸ hrows)
  have hhas' : p.2.hasCollection c = true := hstore ▸ hhas
  have hcounted : p.2.propagateIf now (rs.any ItemRef.affectsCount) c = .ok (p.2.refreshed now) :=
    hc.propagateIf_eq hkept (hwrites.acyclic ha) hhas' htouches
  exact bind_eq_ok.2 ⟨_, hcounted, rfl⟩

/-- A collection that does not exist is missed before anything is added. -/
theorem appendMany_missing [Arithmetic] (hhas : s.hasCollection c = false) (hrs : rs ≠ []) :
    s.appendMany now fresh c rs = .error (.notFound "Collection" c) ∧
      appendEach now fresh c s k rs = .error (.notFound "Collection" c) := by
  have hnone : s.collection? c = none := by
    rw [Option.eq_none_iff_forall_ne_some]
    intro row hrow
    rw [hasCollection_of_collection? hrow] at hhas
    contradiction
  have hmissed : s.requireCollection c = .error (.notFound "Collection" c) :=
    require_eq_error.2 ⟨hnone, rfl⟩
  obtain ⟨r, rs, rfl⟩ := List.exists_cons_of_ne_nil hrs
  exact ⟨bind_eq_error.2 (.inl hmissed),
    bind_eq_error.2 (.inl (bind_eq_error.2 (.inl hmissed)))⟩

/-- A collection that does not exist has no slots. -/
theorem Owned.maxSeqno_eq_zero (howned : s.Owned) (hhas : s.hasCollection c = false) :
    s.maxSeqno c = 0 := by
  have hnone : s.slotsOf c = [] := by
    refine List.eq_nil_iff_forall_not_mem.2 fun x hx => ?_
    obtain ⟨hstored, rfl⟩ := mem_slotsOf.1 hx
    rw [howned x hstored] at hhas
    contradiction
  rw [maxSeqno, hnone]
  rfl

/-- Where the highest number cannot be read, the call of many slots reads it before it looks at the
first reference, and the call of one slot after. -/
theorem append_unreadable [Arithmetic] (hhas : s.hasCollection c = true)
    (hmax : Word.last < s.maxSeqno c) :
    s.appendMany now fresh c (r :: rs) = .error (.storage .unreadableMax) ∧
      appendEach now fresh c s k (r :: rs) = s.requireTarget r >>= fun _ => s.guard c r >>= fun _ =>
        .error (.storage .unreadableMax) := by
  obtain ⟨row, hrow⟩ := exists_requireCollection hhas
  have hplace : s.nextPlace c = .error (.storage .unreadableMax) :=
    bind_eq_error.2 (.inl (readMax_eq_error.2 ⟨hmax, rfl⟩))
  constructor
  · rw [appendMany, hrow, appendRefs, hplace]
    rfl
  · rw [appendEach_cons, appendItem_eq hrow, hplace]
    simp only [bind_assoc]
    rfl

section Together

variable (howned : s.Owned) (ha : s.Acyclic) (hc : s.Counted) (hrs : rs ≠ [])

include howned ha hc hrs

/-- As long as there is a number behind the last slot, many slots at once are as many slots one
after the other. -/
theorem appendMany_eq_of_room [Arithmetic] (hmax : s.maxSeqno c ≤ Word.last)
    (hroom : Arithmetic.checked = true → s.maxSeqno c + rs.length < Word.last) :
    s.appendMany now fresh c rs = appendEach now fresh c s 0 rs := by
  cases hhas : s.hasCollection c with
  | false =>
      rw [(appendMany_missing (k := 0) hhas hrs).1, (appendMany_missing hhas hrs).2]
  | true =>
      have hcached := (counted_iff_cached howned ha).1 hc
      rw [appendMany_refreshed howned ha hc hhas,
        appendBehind_refreshed howned ha (fun row hrow => (hcached row hrow).le) hhas hmax hroom,
        hc.refreshed_eq_self howned ha]

/-- Where the numbers give out, the call of many slots breaks off behind as many as there are
numbers for, unless one of these is refused. -/
theorem appendMany_exhausted [Arithmetic] (hmax : s.maxSeqno c ≤ Word.last)
    (hchecked : Arithmetic.checked = true) (hout : Word.last ≤ s.maxSeqno c + rs.length) :
    s.appendMany now fresh c rs =
      appendEach now fresh c s 0 (rs.take (Word.last - s.maxSeqno c).toNat) >>=
        fun _ => .error .overflow := by
  cases hhas : s.hasCollection c with
  | false =>
      have hzero := howned.maxSeqno_eq_zero hhas
      have hpos := Word.last_pos
      have hsome : rs.take (Word.last - s.maxSeqno c).toNat ≠ [] := by
        rw [Ne, List.take_eq_nil_iff, not_or]
        exact ⟨by omega, hrs⟩
      rw [(appendMany_missing (k := 0) hhas hrs).1, (appendMany_missing hhas hsome).2]
      rfl
  | true =>
      have hcached := (counted_iff_cached howned ha).1 hc
      rw [appendMany_refreshed howned ha hc hhas,
        appendBehind_exhausted howned ha (fun row hrow => (hcached row hrow).le) hhas hmax hchecked
          hout, hc.refreshed_eq_self howned ha, bind_assoc]
      rfl

end Together

/-- How the call of many slots compares with the calls of one slot after the other. -/
structure AddedTogether [Arithmetic] (s : Store) (now : Time) (fresh : ℕ → Id) (c : Id)
    (rs : List ItemRef) :
    Prop where
  /-- As long as there is a number behind the last slot, both succeed with the same slots and the
  same store, or both fail with the first fault that is met. -/
  agree : s.maxSeqno c ≤ Word.last →
    (Arithmetic.checked = true → s.maxSeqno c + rs.length < Word.last) →
      s.appendMany now fresh c rs = appendEach now fresh c s 0 rs
  /-- Where sums are checked and the numbers give out, the call of many slots breaks off behind as
  many as there are numbers for, unless one of these is refused. -/
  exhausted : s.maxSeqno c ≤ Word.last → Arithmetic.checked = true →
    Word.last ≤ s.maxSeqno c + rs.length → s.appendMany now fresh c rs =
      appendEach now fresh c s 0 (rs.take (Word.last - s.maxSeqno c).toNat) >>=
        fun _ => .error .overflow
  /-- Where the highest number cannot be read, the call of many slots does not come to look at the
  first reference. -/
  unreadable : Word.last < s.maxSeqno c →
    s.appendMany now fresh c rs = .error (.storage .unreadableMax) ∧
      ∀ r rs', rs = r :: rs' → appendEach now fresh c s 0 rs =
        s.requireTarget r >>= fun _ => s.guard c r >>= fun _ => .error (.storage .unreadableMax)
  /-- Many slots are added where one after the other can be, and there is room. -/
  succeeds : (∃ p, s.appendMany now fresh c rs = .ok p) ↔
    (∃ p, appendEach now fresh c s 0 rs = .ok p) ∧ Word.HasRoom (s.maxSeqno c) rs.length
  /-- The slots are numbered on from the last one, and all cached numbers are right. -/
  added : ∀ xs t, s.appendMany now fresh c rs = .ok (xs, t) →
    xs = appended now fresh c (s.maxSeqno c + 1) 0 rs ∧
      t.slots.rows = s.slots.rows ++ xs ∧ t.Counted

/-- **Many slots at once are as many slots one after the other**, where the cached numbers are
right, no collection contains itself, and there is a number behind the last slot. -/
theorem appendMany_eq_appendEach [Arithmetic] (howned : s.Owned) (ha : s.Acyclic) (hc : s.Counted)
    (hrs : rs ≠ []) (now : Time) (fresh : ℕ → Id) (c : Id) : s.AddedTogether now fresh c rs where
  agree := appendMany_eq_of_room howned ha hc hrs
  exhausted := appendMany_exhausted howned ha hc hrs
  unreadable := by
    intro hmax
    have hhas : s.hasCollection c = true := by
      by_contra hhas
      have hpos := Word.last_pos
      rw [howned.maxSeqno_eq_zero (Bool.not_eq_true _ ▸ hhas)] at hmax
      omega
    obtain ⟨r, rs, rfl⟩ := List.exists_cons_of_ne_nil hrs
    refine ⟨(append_unreadable (k := 0) hhas hmax).1, fun r' rs' heq => ?_⟩
    cases heq
    exact (append_unreadable hhas hmax).2
  succeeds := by
    have hagree : Word.HasRoom (s.maxSeqno c) rs.length →
        s.appendMany now fresh c rs = appendEach now fresh c s 0 rs := by
      intro hroom
      refine appendMany_eq_of_room howned ha hc hrs ?_ fun hchecked => ?_
      · exact (Word.hasRoom_zero_iff.1 (hroom.mono (Nat.zero_le _))).1
      · rw [Word.HasRoom, if_pos hchecked] at hroom
        omega
    constructor
    · rintro ⟨p, hp⟩
      obtain ⟨-, t, happend, -⟩ := appendMany_eq_ok hp
      have hroom := appendRefs_hasRoom happend
      exact ⟨⟨p, hagree hroom ▸ hp⟩, hroom⟩
    · rintro ⟨⟨p, hp⟩, hroom⟩
      exact ⟨p, (hagree hroom).trans hp⟩
  added := by
    intro xs t hrun
    obtain ⟨hhas, -⟩ := appendMany_eq_ok hrun
    rw [appendMany_refreshed howned ha hc hhas] at hrun
    obtain ⟨⟨_, raw⟩, hraw, hpair⟩ := bind_eq_ok.1 hrun
    cases hpair
    obtain ⟨hxs, ⟨slots, hrows, hstore⟩, hwrites⟩ := appendRefs_eq_ok hraw
    refine ⟨hxs, ?_, counted_refreshed (howned.appendRefs hhas hraw) (hwrites.acyclic ha) now⟩
    exact (congrArg (fun u : Store => u.slots.rows) hstore).trans hrows

/-- A collection that is added twice, a gap and a work make three more works above; and what would
close a cycle is refused behind a work that would not. -/
theorem appendMany_eq_appendEach_nested : ∃ s rs xs t f,
    Operation.runAll .empty Operation.nested = .ok s ∧
    rs = [.collection "leaf", .empty, .manifestation "work", .collection "leaf"] ∧
    s.appendMany 2 (lettered 'x') "inner" rs = .ok (xs, t) ∧
    appendEach 2 (lettered 'x') "inner" s 0 rs = .ok (xs, t) ∧
    xs.map Slot.seqno = [1, 2, 3, 4] ∧ (t.collection? "outer").map Collection.count = some 3 ∧
    s.appendMany 2 (lettered 'x') "inner" [.manifestation "work", .collection "outer"] = .error f ∧
    appendEach 2 (lettered 'x') "inner" s 0 [.manifestation "work", .collection "outer"] =
      .error f := by
  obtain ⟨s, hrun, hcached, hmax, hmany, hrefused⟩ : ∃ s,
      Operation.runAll .empty Operation.nested = .ok s ∧
      (∀ row ∈ s.collections.rows, row.count = s.countBelow row.id) ∧ s.maxSeqno "inner" = 0 ∧
      ((s.appendMany 2 (lettered 'x') "inner" [.collection "leaf", .empty, .manifestation "work",
        .collection "leaf"]).toOption.any fun p => decide (p.1.map Slot.seqno = [1, 2, 3, 4] ∧
          (p.2.collection? "outer").map Collection.count = some 3)) = true ∧
      (s.appendMany 2 (lettered 'x') "inner"
        [.manifestation "work", .collection "outer"]).isOk = false :=
    exists_eq_ok_of_any (by decide +kernel)
  have hreached : s.Reachable := .runAll .empty hrun
  have howned := hreached.lawful.owner
  have ha := hreached.acyclic
  have hc : s.Counted := (counted_iff_cached howned ha).2 hcached
  have hread : s.maxSeqno "inner" ≤ Word.last := by
    rw [hmax]
    decide
  have hagree : ∀ r r' rs, rs.length ≤ 2 →
      s.appendMany 2 (lettered 'x') "inner" (r :: r' :: rs) =
        appendEach 2 (lettered 'x') "inner" s 0 (r :: r' :: rs) := fun r r' rs hrs =>
    (appendMany_eq_appendEach howned ha hc (List.cons_ne_nil r (r' :: rs)) 2 (lettered 'x')
      "inner").agree hread fun _ => by
        rw [hmax, Word.last, Word.count]
        simp only [List.length_cons]
        omega
  obtain ⟨⟨xs, t⟩, hmany, hseqno, hcount⟩ := exists_eq_ok_of_any hmany
  obtain ⟨f, hrefused⟩ := exists_eq_error_of_isOk hrefused
  exact ⟨s, _, xs, t, f, hrun, rfl, hmany, (hagree _ _ _ le_rfl).symm.trans hmany, hseqno, hcount,
    hrefused, (hagree _ _ _ (Nat.zero_le _)).symm.trans hrefused⟩

/-- Where the last number but one is taken, a slot gets the last number when it is added by itself,
and not when it is the only one of many.  Where the highest number is no word, a slot that refers to
nothing is refused for that by itself, and for the number when it is the only one of many. -/
theorem appendMany_breaks_off : ∃ s p t, Operation.runAll .empty [
      .createCollection (.create "shelf" 0 "Shelf" .other),
      .addItem 1 "late" "shelf" .empty ⟨some 9223372036854775806, none, none⟩] = .ok s ∧
    s.Reachable ∧ s.Counted ∧
    s.appendMany 2 (lettered 'x') "shelf" [.empty] = .error .overflow ∧
    appendEach 2 (lettered 'x') "shelf" s 0 [.empty] = .ok p ∧
    Operation.runAll .empty Operation.displaced = .ok t ∧ t.Reachable ∧ t.Counted ∧
    t.appendMany 3 (lettered 'x') "shelf" [.collection "missing"] =
      .error (.storage .unreadableMax) ∧
    appendEach 3 (lettered 'x') "shelf" t 0 [.collection "missing"] =
      .error (.notFound "Collection" "missing") := by
  obtain ⟨s, hrun, hcached, hmax, heach⟩ : ∃ s, Operation.runAll .empty [
        .createCollection (.create "shelf" 0 "Shelf" .other),
        .addItem 1 "late" "shelf" .empty ⟨some 9223372036854775806, none, none⟩] = .ok s ∧
      (∀ row ∈ s.collections.rows, row.count = s.countBelow row.id) ∧
      s.maxSeqno "shelf" = 9223372036854775806 ∧
      (appendEach 2 (lettered 'x') "shelf" s 0 [.empty]).isOk = true :=
    exists_eq_ok_of_any (by decide +kernel)
  obtain ⟨t, hrun', hcached', hhas', hmax', hmissing⟩ : ∃ t,
      Operation.runAll .empty Operation.displaced = .ok t ∧
      (∀ row ∈ t.collections.rows, row.count = t.countBelow row.id) ∧
      t.hasCollection "shelf" = true ∧ Word.last < t.maxSeqno "shelf" ∧
      t.requireTarget (.collection "missing") = .error (.notFound "Collection" "missing") :=
    exists_eq_ok_of_any (by decide +kernel)
  have hreached : s.Reachable := .runAll .empty hrun
  have hreached' : t.Reachable := .runAll .empty hrun'
  have howned := hreached.lawful.owner
  have ha := hreached.acyclic
  have hc : s.Counted := (counted_iff_cached howned ha).2 hcached
  have hc' : t.Counted :=
    (counted_iff_cached hreached'.lawful.owner hreached'.acyclic).2 hcached'
  obtain ⟨hmany', heach'⟩ := append_unreadable hhas' hmax'
  rw [hmissing] at heach'
  obtain ⟨p, heach⟩ := exists_eq_ok_of_isOk heach
  have hmany : s.appendMany 2 (lettered 'x') "shelf" [.empty] = _ :=
    appendMany_exhausted howned ha hc (List.cons_ne_nil _ _) (by rw [hmax]; decide) rfl
      (by rw [hmax]; decide)
  have htake :
      ([.empty] : List ItemRef).take (Word.last - s.maxSeqno "shelf").toNat = [.empty] := by
    rw [hmax]
    rfl
  rw [htake, heach] at hmany
  exact ⟨s, p, t, hrun, hreached, hc, hmany, heach, hrun', hreached', hc', hmany', heach'⟩

end Store

end Anthology
