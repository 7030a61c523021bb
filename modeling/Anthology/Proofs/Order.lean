/-
**Slots, works and collections in order.**

Slots are listed by number, works and collections by title, and where these agree by id.  Because
ids are distinct there is only one such list: whatever list of the slots of a collection is in order
is the list that the store shows.  The number of a new slot is above all those that are there.

Main definitions:

* `Anthology.Slot.rank`, `Anthology.Manifestation.rank`, `Anthology.Collection.rank` — what slots,
  works and collections are ordered by;
* `Anthology.Store.orderOf` — the ids of the slots of a collection in their order.

Main results:

* `Anthology.mergeSort_eq_of_rank` — a list in order is the only one;
* `Anthology.Store.orderedSlots_eq_of_perm` — the slots of a collection in order;
* `Anthology.Store.positionOf_eq` — a slot is found at its position;
* `Anthology.Store.maxSeqno_eq` — the highest number;
* `Anthology.Store.orderedSlots_append` — slots with higher numbers come last.
-/

import Anthology.Proofs.Steps
import Mathlib.Data.List.Nodup
import Mathlib.Data.Prod.Lex
import Mathlib.Data.String.Basic

set_option relaxedAutoImplicit false
set_option autoImplicit false

namespace Anthology

/-! ### Lists in order -/

section Ranks

variable {α β : Type} [LinearOrder β] {rank : α → β} {le : α → α → Bool} {xs ys : List α}

/-- Sorting puts a list in the order of the ranks. -/
theorem pairwise_mergeSort_rank (hle : ∀ a b, le a b = true ↔ rank a ≤ rank b) (xs : List α) :
    (xs.mergeSort le).Pairwise fun a b => rank a ≤ rank b := by
  have hsorted : (xs.mergeSort le).Pairwise fun a b => le a b = true := by
    refine List.pairwise_mergeSort (fun a b c hab hbc => ?_) (fun a b => ?_) xs
    · exact (hle a c).2 (((hle a b).1 hab).trans ((hle b c).1 hbc))
    · rw [Bool.or_eq_true, hle, hle]
      exact le_total (rank a) (rank b)
  exact hsorted.imp fun hab => (hle _ _).1 hab

/-- Where no two elements have the same rank, sorting puts a list in strict order. -/
theorem pairwise_mergeSort_lt (hle : ∀ a b, le a b = true ↔ rank a ≤ rank b)
    (hxs : (xs.map rank).Nodup) : (xs.mergeSort le).Pairwise fun a b => rank a < rank b := by
  have hdistinct : (xs.mergeSort le).Pairwise fun a b => rank a ≠ rank b :=
    List.pairwise_map.1 ((List.mergeSort_perm xs le).map rank |>.nodup_iff.2 hxs)
  exact (pairwise_mergeSort_rank hle xs).imp₂ (fun a b hab hne => lt_of_le_of_ne hab hne) hdistinct

/-- Where no two elements have the same rank, a list in order is the only one. -/
theorem mergeSort_eq_of_rank (hle : ∀ a b, le a b = true ↔ rank a ≤ rank b)
    (hxs : (xs.map rank).Nodup) (hperm : xs.Perm ys)
    (hys : ys.Pairwise fun a b => rank a ≤ rank b) : xs.mergeSort le = ys := by
  refine List.Perm.eq_of_pairwise (fun a b ha hb hab hba => ?_) (pairwise_mergeSort_rank hle xs) hys
    ((List.mergeSort_perm xs le).trans hperm)
  exact List.inj_on_of_nodup_map hxs (List.mem_mergeSort.1 ha) (hperm.mem_iff.2 hb)
    (le_antisymm hab hba)

end Ranks

/-! ### Ranks -/

/-- What slots are ordered by. -/
def Slot.rank (x : Slot) : ℤ ×ₗ Id := toLex (x.seqno, x.id)

/-- What works are ordered by. -/
def Manifestation.rank (m : Manifestation) : String ×ₗ Id := toLex (m.title, m.id)

/-- What collections are ordered by. -/
def Collection.rank (c : Collection) : String ×ₗ Id := toLex (c.title, c.id)

theorem Slot.precedes_iff {x y : Slot} : x.precedes y = true ↔ x.rank ≤ y.rank := by
  simp [precedes, rank, Prod.Lex.toLex_le_toLex]

theorem Manifestation.precedes_iff {m n : Manifestation} :
    m.precedes n = true ↔ m.rank ≤ n.rank := by
  simp [precedes, rank, Prod.Lex.toLex_le_toLex]

theorem Collection.precedes_iff {c d : Collection} :
    c.precedes d = true ↔ c.rank ≤ d.rank := by
  simp [precedes, rank, Prod.Lex.toLex_le_toLex]

theorem Slot.rank_lt {x y : Slot} (h : x.seqno < y.seqno) : x.rank < y.rank :=
  Prod.Lex.toLex_lt_toLex.2 (.inl h)

theorem Manifestation.rank_lt_iff {m n : Manifestation} :
    m.rank < n.rank ↔ m.title < n.title ∨ m.title = n.title ∧ m.id < n.id :=
  Prod.Lex.toLex_lt_toLex

theorem Collection.rank_lt_iff {c d : Collection} :
    c.rank < d.rank ↔ c.title < d.title ∨ c.title = d.title ∧ c.id < d.id :=
  Prod.Lex.toLex_lt_toLex

/-- Ranks that end in a key are distinct where the keys are. -/
theorem nodup_rank {α γ : Type} {rank : α → γ ×ₗ Id} {key : α → Id} {xs : List α}
    (hkey : ∀ a, (ofLex (rank a)).2 = key a) (h : (xs.map key).Nodup) : (xs.map rank).Nodup := by
  refine List.Nodup.of_map (fun k => (ofLex k).2) ?_
  rw [List.map_map, Function.comp_def]
  simpa only [hkey] using h

namespace Store

variable {s : Store} {c : Id} {xs : List Slot}

/-! ### The slots of a collection -/

theorem nodup_slotsOf (s : Store) (c : Id) : ((s.slotsOf c).map Slot.id).Nodup :=
  s.slots.nodup.sublist (List.filter_sublist.map _)

theorem nodup_rank_slotsOf (s : Store) (c : Id) : ((s.slotsOf c).map Slot.rank).Nodup :=
  nodup_rank (fun _ => rfl) (s.nodup_slotsOf c)

theorem orderedSlots_perm (s : Store) (c : Id) : (s.orderedSlots c).Perm (s.slotsOf c) :=
  List.mergeSort_perm _ _

/-- The slots of a collection are shown in strict order. -/
theorem orderedSlots_pairwise (s : Store) (c : Id) :
    (s.orderedSlots c).Pairwise fun x y => x.rank < y.rank :=
  pairwise_mergeSort_lt (fun _ _ => Slot.precedes_iff) (s.nodup_rank_slotsOf c)

theorem nodup_orderedSlots (s : Store) (c : Id) : (s.orderedSlots c).Nodup :=
  (s.orderedSlots_pairwise c).imp fun hlt heq => (heq ▸ hlt).false

/-- **Any list of the slots of a collection that is in order is the one that is shown.** -/
theorem orderedSlots_eq_of_perm (hperm : (s.slotsOf c).Perm xs)
    (hsorted : xs.Pairwise fun x y => x.rank ≤ y.rank) : s.orderedSlots c = xs :=
  mergeSort_eq_of_rank (fun _ _ => Slot.precedes_iff) (s.nodup_rank_slotsOf c) hperm hsorted

/-- Slots that are in strict order, and are just those of the collection, are what is shown. -/
theorem orderedSlots_eq_of_mem (hmem : ∀ x, x ∈ s.slotsOf c ↔ x ∈ xs)
    (hsorted : xs.Pairwise fun x y => x.rank < y.rank) : s.orderedSlots c = xs := by
  refine orderedSlots_eq_of_perm ((List.perm_ext_iff_of_nodup ?_ ?_).2 hmem) (hsorted.imp le_of_lt)
  · exact .of_map _ (s.nodup_slotsOf c)
  · exact hsorted.imp fun hlt heq => (heq ▸ hlt).false

/-- A list of the slots in order, as it can be computed, is the one that is shown. -/
theorem orderedSlots_of_precedes (hperm : (s.slotsOf c).Perm xs)
    (hsorted : xs.Pairwise fun x y => x.precedes y = true) : s.orderedSlots c = xs :=
  orderedSlots_eq_of_perm hperm (hsorted.imp fun h => Slot.precedes_iff.1 h)

/-! ### Positions -/

/-- The ids of the slots of a collection in their order. -/
def orderOf (s : Store) (c : Id) : List Id := (s.orderedSlots c).map Slot.id

theorem length_orderOf (s : Store) (c : Id) : (s.orderOf c).length = (s.orderedSlots c).length :=
  List.length_map _

theorem nodup_orderOf (s : Store) (c : Id) : (s.orderOf c).Nodup :=
  ((s.orderedSlots_perm c).map Slot.id).nodup_iff.2 (s.nodup_slotsOf c)

theorem getElem?_orderOf {x : Slot} {p : ℕ} (hx : (s.orderedSlots c)[p]? = some x) :
    (s.orderOf c)[p]? = some x.id := by
  rw [orderOf, List.getElem?_map, hx, Option.map_some]

/-- A slot is found at its position. -/
theorem positionOf_eq {x : Slot} {p : ℕ} (hx : (s.orderedSlots c)[p]? = some x) :
    positionOf (s.orderedSlots c) c x.id = .ok p := by
  obtain ⟨hp, rfl⟩ := List.getElem?_eq_some_iff.1 hx
  refine require_eq_ok.2 (List.findIdx?_eq_some_iff_getElem.2 ⟨hp, beq_self_eq_true _, ?_⟩)
  intro j hj hid
  have heq : (s.orderOf c)[j]? = (s.orderOf c)[p]? := by
    rw [getElem?_orderOf (List.getElem?_eq_getElem (hj.trans hp)), getElem?_orderOf hx,
      beq_iff_eq.1 hid]
  have hlt : j < (s.orderOf c).length := by
    rw [length_orderOf]
    exact hj.trans hp
  exact hj.ne ((List.getElem?_inj hlt (s.nodup_orderOf c)).1 heq)

/-! ### The highest number -/

theorem foldl_max_spec (xs : List Slot) (n : Int) :
    n ≤ xs.foldl (fun n x => max n x.seqno) n ∧
      (∀ x ∈ xs, x.seqno ≤ xs.foldl (fun n x => max n x.seqno) n) ∧
        (xs.foldl (fun n x => max n x.seqno) n = n ∨
          ∃ x ∈ xs, xs.foldl (fun n x => max n x.seqno) n = x.seqno) := by
  induction xs generalizing n with
  | nil => simp
  | cons y xs ih =>
      obtain ⟨hle, hall, heq⟩ := ih (max n y.seqno)
      simp only [List.foldl_cons, List.forall_mem_cons]
      refine ⟨by omega, ⟨by omega, hall⟩, ?_⟩
      rcases heq with heq | heq
      · rw [heq]
        rcases max_choice n y.seqno with h | h
        · exact .inl h
        · exact .inr ⟨y, List.mem_cons_self, h⟩
      · obtain ⟨x, hx, heq⟩ := heq
        exact .inr ⟨x, List.mem_cons_of_mem y hx, heq⟩

theorem le_maxSeqno {x : Slot} (hx : x ∈ s.slotsOf c) : x.seqno ≤ s.maxSeqno c :=
  (foldl_max_spec (s.slotsOf c) 0).2.1 x hx

/-- Numbers are positive, so zero is the highest number only where there are no slots. -/
theorem maxSeqno_eq (hpos : ∀ x ∈ s.slots.rows, 0 < x.seqno) (hperm : (s.slotsOf c).Perm xs) :
    s.maxSeqno c = (xs.map Slot.seqno).max?.getD 0 := by
  obtain ⟨-, hall, heq⟩ := foldl_max_spec (s.slotsOf c) 0
  cases hmax : (xs.map Slot.seqno).max? with
  | none =>
      have hnil : xs = [] := List.map_eq_nil_iff.1 (List.max?_eq_none_iff.1 hmax)
      have hslots : s.slotsOf c = [] := List.perm_nil.1 (hnil ▸ hperm)
      rw [maxSeqno, hslots]
      rfl
  | some n =>
      obtain ⟨hmem, hle⟩ := List.max?_eq_some_iff.1 hmax
      obtain ⟨x, hx, rfl⟩ := List.mem_map.1 hmem
      have hx' := hperm.mem_iff.2 hx
      have hge : x.seqno ≤ s.maxSeqno c := le_maxSeqno hx'
      have hpositive := hpos x (mem_slotsOf.1 hx').1
      -- the maximum that starts from zero is zero, which is too small, or one of the numbers
      rcases heq with heq | ⟨y, hy, heq⟩
      · rw [← maxSeqno] at heq
        omega
      · have hyx := hle y.seqno (List.mem_map_of_mem (hperm.mem_iff.1 hy))
        rw [← maxSeqno] at heq
        simp only [Option.getD_some]
        omega

/-! ### Slots at the end -/

variable {slots : Table Slot} {now : Time} {fresh : ℕ → Id} {k : ℕ} {rs : List ItemRef}

theorem maxSeqno_append {x : Slot} (hrows : slots.rows = s.slots.rows ++ [x])
    (hlast : x.seqno = s.maxSeqno x.owner + 1) :
    Store.maxSeqno { s with slots } x.owner = x.seqno := by
  have hslots := slotsOf_append (c := x.owner) hrows (by simp)
  rw [maxSeqno, hslots, List.foldl_append, ← maxSeqno]
  simp only [List.foldl_cons, List.foldl_nil]
  omega

theorem maxSeqno_appended
    (hrows : slots.rows = s.slots.rows ++ appended now fresh c (s.maxSeqno c + 1) k rs) :
    Store.maxSeqno { s with slots } c = s.maxSeqno c + rs.length := by
  have hfold : ∀ (rs : List ItemRef) (n : Int) (k : ℕ),
      (appended now fresh c (n + 1) k rs).foldl (fun n x => max n x.seqno) n =
        n + rs.length := by
    intro rs
    induction rs with
    | nil => exact fun n _ => (Int.add_zero n).symm
    | cons r rs ih =>
        intro n k
        have hnext : max n (n + 1) = n + 1 := by omega
        rw [appended_cons, List.foldl_cons, Slot.create, hnext, ih, List.length_cons]
        omega
  rw [maxSeqno, slotsOf_append hrows fun x hx => appended_owner hx, List.foldl_append, ← maxSeqno,
    hfold]

/-- Slots with rising numbers above all others come last. -/
theorem pairwise_append_appended {n : Int} (hxs : xs.Pairwise fun x y => x.rank ≤ y.rank)
    (hn : ∀ x ∈ xs, x.seqno < n) :
    (xs ++ appended now fresh c n k rs).Pairwise fun x y => x.rank ≤ y.rank := by
  refine List.pairwise_append.2 ⟨hxs, ?_, fun x hx y hy => ?_⟩
  · refine List.pairwise_iff_getElem.2 fun i j hi hj hij => ?_
    simp only [appended, List.getElem_mapIdx]
    refine (Slot.rank_lt ?_).le
    show n + (i : Int) < n + (j : Int)
    omega
  · obtain ⟨i, hi, rfl⟩ := List.mem_mapIdx.1 hy
    have hx' := hn x hx
    refine (Slot.rank_lt ?_).le
    show x.seqno < n + i
    omega

/-- **Slots with higher numbers come last**, and the others stay in their order. -/
theorem orderedSlots_append {kept : List Slot} (hperm : (s.slotsOf c).Perm kept)
    (hkept : kept.Pairwise fun x y => x.rank ≤ y.rank)
    (hrows : slots.rows = s.slots.rows ++ appended now fresh c (s.maxSeqno c + 1) k rs) :
    Store.orderedSlots { s with slots } c =
      kept ++ appended now fresh c (s.maxSeqno c + 1) k rs := by
  refine orderedSlots_eq_of_perm ?_ (pairwise_append_appended hkept fun x hx => ?_)
  · rw [slotsOf_append hrows fun x hx => appended_owner hx]
    exact hperm.append_right _
  · have hle := le_maxSeqno (hperm.mem_iff.2 hx)
    omega

end Store

end Anthology
