/-
**What a new slot adds to the numbers.**

After a slot was added the number of its collection and those of all collections above are counted
anew from the works.  Nothing is added to a cached number anywhere, and yet each one grows by as
much as if the slot had been handed up along the containment: by what it refers to, once for each
path that leads down to its collection.  Paths are told apart by their slots, so two slots of one
collection that refer to the same collection begin two paths.

A path that closes would be counted for ever, and without cycles there is none.  In particular no
path leads from what the new slot refers to back to its collection, so what the slot is worth is the
same before and after.

Main definitions:

* `Anthology.Store.Path`, `Anthology.Store.paths` — the paths from one collection down to another;
* `Anthology.Store.cachedWorth` — what a slot is worth by the cached numbers;
* `Anthology.Store.growth`, `Anthology.Store.grown` — what the slot adds to a number, and the row
  with it.

Main results:

* `Anthology.Store.Acyclic.ncard_paths` — the number of paths by recursion along the containment;
* `Anthology.Store.countBelow_append` — **a new slot adds what it is worth along each path**;
* `Anthology.Store.addItem_grows` — **the rows after a slot was added**.
-/

import Anthology.Proofs.Verdict
import Anthology.Proofs.Ways
import Mathlib.Algebra.BigOperators.Ring.List

set_option relaxedAutoImplicit false
set_option autoImplicit false

namespace Anthology

/-- The three ways to a work, and beside them a bundle of two works. -/
def Operation.bundled : List Operation := Operation.braid ++ [
  .createCollection (.create "bundle" 2 "Bundle" .other),
  .appendItem 2 "bundle work" "bundle" (.manifestation "work"),
  .appendItem 2 "bundle work again" "bundle" (.manifestation "work")]

namespace Store

variable {s s' : Store} {now : Time} {id c d e : Id} {v : List Id} {number : Id → ℕ}

/-! ### Paths down -/

/-- A path down to the collection `c`: the slots along it, each of which refers to the collection
that the next belongs to, and the last to `c`.  All collections along it exist but perhaps the
first. -/
inductive Path (s : Store) (c : Id) : Id → List Id → Prop
  | here : Path s c c []
  | through {e i d : Id} {v : List Id} (holds : s.HoldsCollection e i d)
      (present : s.hasCollection d = true) (rest : Path s c d v) : Path s c e (i :: v)

/-- The paths from the collection `e` down to `c`. -/
def paths (s : Store) (e c : Id) : Set (List Id) := {v | s.Path c e v}

theorem Path.contains (h : s.Path c e v) : s.Contains e c := by
  induction h with
  | here => exact .refl c
  | through holds _ _ ih => exact .step holds.child ih

theorem paths_eq_empty (h : ¬ s.Contains e c) : s.paths e c = ∅ := by
  refine Set.eq_empty_of_forall_notMem fun v hv => ?_
  exact h (Path.contains hv)

/-- Without cycles no path leads back to where it began. -/
theorem Acyclic.paths_self (ha : s.Acyclic) (c : Id) : s.paths c c = {[]} := by
  refine Set.eq_singleton_iff_unique_mem.2 ⟨.here, fun v hv => ?_⟩
  cases (hv : s.Path c c v) with
  | here => rfl
  | through holds _ rest => exact absurd rest.contains (ha c _ holds.child)

/-! ### The number of paths -/

/-- The collection that a slot refers to, if it exists. -/
def target? (s : Store) (x : Slot) : Option Id := x.item.collection?.filter s.hasCollection

theorem target?_eq_some {x : Slot} :
    s.target? x = some d ↔ x.item = .collection d ∧ s.hasCollection d = true := by
  rw [target?, Option.filter_eq_some_iff]
  cases x.item <;> simp [ItemRef.collection?]

theorem subCollections_eq (s : Store) (c : Id) :
    s.subCollections c = (s.slotsOf c).filterMap s.target? := List.filter_filterMap ..

/-- The paths that begin with one of the listed slots. -/
def pathsFrom (s : Store) (c : Id) (xs : List Slot) : Set (List Id) :=
  {w | ∃ x ∈ xs, ∃ d, s.target? x = some d ∧ w ∈ (x.id :: ·) '' s.paths d c}

theorem pathsFrom_cons (x : Slot) (xs : List Slot) :
    s.pathsFrom c (x :: xs) = s.pathsFrom c [x] ∪ s.pathsFrom c xs := by
  ext w
  simp only [pathsFrom, List.mem_cons, List.not_mem_nil, or_false, exists_eq_or_imp,
    exists_eq_left, Set.mem_union, Set.mem_ofPred_eq]

/-- A path is over where it begins, or it goes on with a slot of the collection. -/
theorem paths_eq (s : Store) (e c : Id) :
    s.paths e c = {w | w = [] ∧ e = c} ∪ s.pathsFrom c (s.slotsOf e) := by
  ext w
  constructor
  · intro hw
    cases (hw : s.Path c e w) with
    | here => exact .inl ⟨rfl, rfl⟩
    | through holds present rest =>
        obtain ⟨x, hx, rfl, hc, hitem⟩ := holds
        exact .inr ⟨x, mem_slotsOf.2 ⟨hx, hc⟩, _, target?_eq_some.2 ⟨hitem, present⟩, _, rest, rfl⟩
  · rintro (⟨rfl, rfl⟩ | ⟨x, hx, d, htarget, v, hv, rfl⟩)
    · exact .here
    · obtain ⟨hx, hc⟩ := mem_slotsOf.1 hx
      obtain ⟨hitem, present⟩ := target?_eq_some.1 htarget
      exact .through ⟨x, hx, rfl, hc, hitem⟩ present hv

/-- Paths that begin with different slots differ, so their numbers add up. -/
theorem ncard_pathsFrom {xs : List Slot} (hids : (xs.map Slot.id).Nodup)
    (hfinite : ∀ d ∈ xs.filterMap s.target?, (s.paths d c).Finite) :
    (s.pathsFrom c xs).Finite ∧ (s.pathsFrom c xs).ncard =
      ((xs.filterMap s.target?).map fun d => (s.paths d c).ncard).sum := by
  induction xs with
  | nil =>
      have hnone : s.pathsFrom c [] = ∅ :=
        Set.eq_empty_of_forall_notMem fun w ⟨x, hx, _⟩ => absurd hx List.not_mem_nil
      simp [hnone]
  | cons x xs ih =>
      obtain ⟨hx, hids⟩ := List.nodup_cons.1 hids
      cases htarget : s.target? x with
      | none =>
          rw [List.filterMap_cons_none htarget] at hfinite ⊢
          have hnone : s.pathsFrom c [x] = ∅ := by
            refine Set.eq_empty_of_forall_notMem fun w ⟨y, hy, d, hd, _⟩ => ?_
            rw [List.mem_singleton.1 hy, htarget] at hd
            contradiction
          rw [pathsFrom_cons, hnone, Set.empty_union]
          exact ih hids hfinite
      | some d =>
          rw [List.filterMap_cons_some htarget] at hfinite ⊢
          obtain ⟨hd, hfinite⟩ := List.forall_mem_cons.1 hfinite
          obtain ⟨hrest, hsum⟩ := ih hids hfinite
          have hone : s.pathsFrom c [x] = (x.id :: ·) '' s.paths d c := by
            ext w
            simp [pathsFrom, htarget]
          have hdisjoint : Disjoint (s.pathsFrom c [x]) (s.pathsFrom c xs) := by
            rw [hone, Set.disjoint_left]
            rintro _ ⟨v, -, rfl⟩ ⟨y, hy, d', -, v', -, heq⟩
            exact hx ((List.cons.inj heq).1 ▸ List.mem_map_of_mem hy)
          have hinj : Function.Injective (x.id :: · : List Id → List Id) := fun v v' h =>
            (List.cons.inj h).2
          rw [pathsFrom_cons, List.map_cons, List.sum_cons, ← hsum]
          rw [hone] at hdisjoint ⊢
          refine ⟨(hd.image _).union hrest, ?_⟩
          rw [Set.ncard_union_eq hdisjoint (hd.image _) hrest, Set.ncard_image_of_injective _ hinj]

theorem Acyclic.finite_paths (ha : s.Acyclic) (c e : Id) : (s.paths e c).Finite := by
  induction e using ha.induction with
  | step e ih =>
      rw [paths_eq]
      rw [subCollections_eq] at ih
      exact ((Set.finite_singleton []).subset fun w hw => hw.1).union
        (ncard_pathsFrom (s.nodup_slotsOf e) ih).1

/-- **The number of paths by recursion**: one where the path ends, and one for each path that goes
on from what a slot refers to. -/
theorem Acyclic.ncard_paths (ha : s.Acyclic) (c e : Id) :
    (s.paths e c).ncard = (if e = c then 1 else 0) +
      ((s.subCollections e).map fun d => (s.paths d c).ncard).sum := by
  obtain ⟨hfinite, hsum⟩ := ncard_pathsFrom (s.nodup_slotsOf e) fun d _ => ha.finite_paths c d
  have hends : ({w : List Id | w = [] ∧ e = c}).Finite :=
    (Set.finite_singleton []).subset fun w hw => hw.1
  have hdisjoint : Disjoint {w | w = [] ∧ e = c} (s.pathsFrom c (s.slotsOf e)) := by
    rw [Set.disjoint_left]
    rintro _ ⟨rfl, -⟩ ⟨x, -, d, -, v, -, heq⟩
    exact List.cons_ne_nil _ _ heq
  rw [paths_eq, Set.ncard_union_eq hdisjoint hends hfinite, hsum, subCollections_eq]
  congr 1
  by_cases he : e = c <;> simp [he]

/-! ### What a new slot adds -/

variable {slots : Table Slot} {x : Slot}

theorem childrenOf_append (hrows : slots.rows = s.slots.rows ++ [x]) (h : d ∈ s.childrenOf e) :
    d ∈ Store.childrenOf { s with slots } e := by
  obtain ⟨y, hy, howner, hitem⟩ := mem_childrenOf.1 h
  exact mem_childrenOf.2 ⟨y, hrows ▸ List.mem_append_left _ hy, howner, hitem⟩

theorem contains_append (hrows : slots.rows = s.slots.rows ++ [x]) (h : s.Contains e d) :
    Store.Contains { s with slots } e d :=
  h.mono fun _ _ => childrenOf_append hrows

theorem child_of_new (hrows : slots.rows = s.slots.rows ++ [x]) (hitem : x.item = .collection d) :
    d ∈ Store.childrenOf { s with slots } x.owner :=
  mem_childrenOf.2 ⟨x, hrows ▸ List.mem_append_right _ (List.mem_singleton_self x), rfl, hitem⟩

/-- To what its collection's old slots add, a new slot adds its own worth. -/
theorem sum_worth_new (hrows : slots.rows = s.slots.rows ++ [x]) (number : Id → ℕ) (e : Id) :
    ((Store.slotsOf { s with slots } e).map fun y =>
        Store.worth { s with slots } number y.item).sum =
      ((s.slotsOf e).map fun y => s.worth number y.item).sum +
        if e = x.owner then s.worth number x.item else 0 := by
  have howner : ∀ y ∈ [x], y.owner = x.owner := fun y hy => by rw [List.mem_singleton.1 hy]
  have hworth : Store.worth { s with slots } number = s.worth number := rfl
  by_cases he : e = x.owner
  · subst he
    rw [slotsOf_append hrows howner, List.map_append, List.sum_append, if_pos rfl, hworth,
      List.map_singleton, List.sum_singleton]
  · rw [slotsOf_append_of_ne hrows howner he, if_neg he, hworth, Nat.add_zero]

/-- What an old slot of a collection refers to grows along the paths from there. -/
theorem sum_worth_append {grows : Id → ℕ} {worth : ℕ}
    (hgrows : ∀ d ∈ s.subCollections e, grows d = s.countBelow d + (s.paths d c).ncard * worth) :
    ((s.slotsOf e).map fun y => s.worth grows y.item).sum =
      ((s.slotsOf e).map fun y => s.worth s.countBelow y.item).sum +
        ((s.subCollections e).map fun d => (s.paths d c).ncard).sum * worth := by
  have hmap : (s.subCollections e).map grows =
      (s.subCollections e).map fun d => s.countBelow d + (s.paths d c).ncard * worth :=
    List.map_congr_left hgrows
  rw [sum_worth, sum_worth]
  change _ + ((s.subCollections e).map grows).sum =
    _ + ((s.subCollections e).map s.countBelow).sum + _
  rw [hmap, List.sum_map_add, List.sum_map_mul_right, Nat.add_assoc]

/-- **A new slot adds what it is worth along each path** down to its collection. -/
theorem countBelow_append (ha : s.Acyclic) (ht : Store.Acyclic { s with slots })
    (hrows : slots.rows = s.slots.rows ++ [x]) (e : Id) :
    Store.countBelow { s with slots } e =
      s.countBelow e + (s.paths e x.owner).ncard * s.worth s.countBelow x.item := by
  induction e using ht.induction with
  | step e ih =>
      have hold : ∀ d ∈ s.subCollections e, Store.countBelow { s with slots } d =
          s.countBelow d + (s.paths d x.owner).ncard * s.worth s.countBelow x.item := by
        intro d hd
        obtain ⟨hchild, hhas⟩ := mem_subCollections.1 hd
        exact ih d (mem_subCollections.2 ⟨childrenOf_append hrows hchild, hhas⟩)
      have hnew : e = x.owner →
          s.worth (Store.countBelow { s with slots }) x.item = s.worth s.countBelow x.item := by
        rintro rfl
        refine worth_congr fun d hitem hhas => ?_
        have hchild := child_of_new hrows hitem
        -- no path leads from what the slot refers to back to its collection
        have hapart : ¬ s.Contains d x.owner := fun hback =>
          ht x.owner d hchild (contains_append hrows hback)
        rw [ih d (mem_subCollections.2 ⟨hchild, hhas⟩), paths_eq_empty hapart, Set.ncard_empty,
          Nat.zero_mul, Nat.add_zero]
      rw [addsUp_countBelow ht e, sum_worth_new hrows, sum_worth_append hold,
        ← addsUp_countBelow ha e, ha.ncard_paths x.owner e, Nat.add_mul]
      split
      · rename_i he
        rw [hnew he]
        omega
      · omega

/-! ### The rows after a slot was added -/

/-- What a slot is worth by the cached numbers: one for a work, and for a collection the number that
its row carries. -/
def cachedWorth (s : Store) : ItemRef → Int
  | .empty => 0
  | .manifestation _ => 1
  | .collection d => ((s.collection? d).map Collection.count).getD 0

/-- Where the cached numbers are right they say what a slot is worth. -/
theorem cachedWorth_eq {r : ItemRef} (hc : s.Cached s.countBelow)
    (htarget : s.requireTarget r = .ok ()) : s.cachedWorth r = s.worth s.countBelow r := by
  obtain ⟨hcollection, hwork⟩ := requireTarget_eq_ok.1 htarget
  cases r with
  | empty => rfl
  | manifestation m => simp [cachedWorth, worth, hwork m rfl]
  | collection d =>
      have hd := hcollection d rfl
      obtain ⟨row, hrow⟩ := exists_collection?_iff.2 hd
      obtain ⟨hmem, rfl⟩ := collection?_eq_some.1 hrow
      simp [cachedWorth, worth, hrow, hd, hc row hmem]

/-- What a slot with a reference to `r` adds to the number of the collection `e` if it is added to
`c`: what it is worth, once for each path from `e` down to `c`. -/
noncomputable def growth (s : Store) (c : Id) (r : ItemRef) (e : Id) : Int :=
  (s.paths e c).ncard * s.cachedWorth r

/-- The row of a collection after the slot was added.  It is written where its number grows, and
nowhere else. -/
noncomputable def grown (s : Store) (now : Time) (c : Id) (r : ItemRef) (row : Collection) :
    Collection :=
  if s.growth c r row.id = 0 then row
  else { row with count := row.count + s.growth c r row.id, updatedAt := now }

@[simp] theorem grown_id (s : Store) (now : Time) (c : Id) (r : ItemRef) (row : Collection) :
    (s.grown now c r row).id = row.id := by
  unfold grown
  split <;> rfl

theorem grown_count (s : Store) (now : Time) (c : Id) (r : ItemRef) (row : Collection) :
    (s.grown now c r row).count = row.count + s.growth c r row.id := by
  unfold grown
  split
  · rename_i hnone
    rw [hnone, Int.add_zero]
  · rfl

/-- A row that is counted anew where the slot adds something. -/
theorem recountedIn_eq_grown {t : Store} {cs : List Id} {row : Collection} {r : ItemRef}
    (hcount : (t.countBelow row.id : Int) = row.count + s.growth c r row.id)
    (hcs : s.growth c r row.id ≠ 0 → row.id ∈ cs) :
    t.recountedIn now cs row = s.grown now c r row := by
  unfold grown recountedIn recounted
  by_cases hgrowth : s.growth c r row.id = 0
  · rw [hgrowth, Int.add_zero] at hcount
    simp [hgrowth, hcount]
  · have hwrong : (t.countBelow row.id : Int) ≠ row.count := by omega
    rw [if_pos (hcs hgrowth), if_neg hwrong, if_neg hgrowth, hcount]

/-- **The rows after a slot was added.**  Where no collection contains itself and the cached numbers
are right, each grows by what the slot is worth by the cached numbers, once for each path down to
its collection, and rows that do not grow are not written. -/
theorem addItem_grows [Arithmetic] (ha : s.Acyclic) (hnumber : s.AddsUp number)
    (hcached : s.Cached number)
    {r : ItemRef} {a : SlotAttrs} {x : Slot} (h : s.addItem now id c r a = .ok (x, s')) :
    (∀ e, (s.paths e c).Finite) ∧ (s.paths c c).ncard = 1 ∧
      (∀ e, ¬ s.Contains e c → (s.paths e c).ncard = 0) ∧
        s'.collections.rows = s.collections.rows.map (s.grown now c r) := by
  refine ⟨ha.finite_paths c, by rw [ha.paths_self, Set.ncard_singleton],
    fun e he => by rw [paths_eq_empty he, Set.ncard_empty], ?_⟩
  obtain rfl := hnumber.eq_countBelow ha
  obtain ⟨-, htarget, hguard, -, rfl, rfl, t, hput, rfl⟩ := addItem_eq_ok h
  have ht : t.Acyclic := Writes.acyclic (.single (.putSlot htarget hguard hput)) ha
  obtain ⟨-, -, -, slots, hrows, rfl⟩ := putSlot_eq_ok.1 hput
  have hworth := cachedWorth_eq hcached htarget
  refine List.map_congr_left fun row hrow => ?_
  have hgrows : (Store.countBelow { s with slots } row.id : Int) =
      row.count + s.growth x.owner x.item row.id := by
    rw [countBelow_append ha ht hrows row.id, growth, hworth, hcached row hrow]
    push_cast
    rfl
  refine recountedIn_eq_grown hgrows fun hgrowth => ?_
  -- something is added only if the slot refers to something, and only above its collection
  have haffects : x.item.affectsCount = true :=
    ItemRef.affectsCount_iff.2 fun hempty => hgrowth (by rw [hempty]; exact Int.mul_zero _)
  have hsome : (s.paths row.id x.owner).ncard ≠ 0 := by
    intro hnone
    rw [growth, hnone] at hgrowth
    exact hgrowth (Int.zero_mul _)
  obtain ⟨v, hv⟩ := Set.nonempty_of_ncard_ne_zero hsome
  rw [if_pos haffects]
  exact mem_upward.2 (contains_append hrows (Path.contains hv))

/-- Three paths lead from the top to the shared collection, and a bundle of two works that is put
there makes six more. -/
theorem addItem_grows_braid : ∃ s x s',
    Operation.runAll .empty Operation.bundled = .ok s ∧
    s.addItem 3 "shared bundle" "shared" (.collection "bundle") .unset = .ok (x, s') ∧
    (s.paths "top" "shared").ncard = 3 ∧ s.cachedWorth (.collection "bundle") = 2 ∧
    (s.collection? "top").map Collection.count = some 3 ∧
    (s'.collection? "top").map Collection.count = some 9 := by
  obtain ⟨s, hrun, hcached, hworth, ⟨hsubtop, hsubleft, hsubright⟩, hbefore, hadd⟩ :
      ∃ s, Operation.runAll .empty Operation.bundled = .ok s ∧
      (∀ row ∈ s.collections.rows, row.count = s.countBelow row.id) ∧
      s.cachedWorth (.collection "bundle") = 2 ∧
      (s.subCollections "top" = ["left", "left", "right"] ∧
        s.subCollections "left" = ["shared"] ∧ s.subCollections "right" = ["shared"]) ∧
      (s.collection? "top").map Collection.count = some 3 ∧
      (s.guard "shared" (.collection "bundle") >>= fun _ => Placement.unguardedAdd s 3
        "shared bundle" "shared" (.collection "bundle") .unset).toOption.any
          (fun _ => decide True) = true :=
    exists_eq_ok_of_any (by decide +kernel)
  have hreached : s.Reachable := .runAll .empty hrun
  have ha : s.Acyclic := hreached.acyclic
  obtain ⟨t, hadd, -⟩ := exists_eq_ok_of_any hadd
  obtain ⟨_, hguard, hput⟩ := bind_eq_ok.1 hadd
  obtain ⟨x, s', hadd, -⟩ := (Placement.guarded_add hput).passed hguard hreached.lawful.owner
  obtain ⟨-, hself, -, hrows⟩ := addItem_grows ha (addsUp_countBelow ha) hcached hadd
  have hleft : (s.paths "left" "shared").ncard = 1 := by
    rw [ha.ncard_paths, hsubleft]
    simp [hself]
  have hright : (s.paths "right" "shared").ncard = 1 := by
    rw [ha.ncard_paths, hsubright]
    simp [hself]
  have htop : (s.paths "top" "shared").ncard = 3 := by
    rw [ha.ncard_paths, hsubtop]
    simp [hleft, hright]
  obtain ⟨row, hrow, hcount⟩ := Option.map_eq_some_iff.1 hbefore
  obtain ⟨hmem, hid⟩ := collection?_eq_some.1 hrow
  have hgrown : s'.collection? "top" = some (s.grown 3 "shared" (.collection "bundle") row) :=
    collection?_eq_some.2 ⟨hrows ▸ List.mem_map_of_mem hmem, by rw [grown_id, hid]⟩
  refine ⟨s, x, s', hrun, hadd, htop, hworth, hbefore, ?_⟩
  rw [hgrown, Option.map_some, grown_count, hcount, hid, growth, htop, hworth]
  rfl

end Store

end Anthology
