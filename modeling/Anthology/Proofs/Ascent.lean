/-
**The numbers above a collection.**

After a change the numbers of a collection and of all collections above it are made right along a
queue.  Whatever stands in front is counted anew, unless it was counted before, and the collections
that refer to it join the end.  Searching and counting take turns: the search goes on in a store of
which one part has the right numbers already and the other does not.  Where two ways lead up to a
collection, or two slots of it to the same one, it waits in the queue more than once.

Neither does harm.  A count changes no reference, so the search finds in each of these stores what
it would have found at the outset; and a collection that comes up for the second time is passed
over.  The walk ends because each reference brings a collection to the queue at most once.  What it
has counted in the end is what the reading upwards finds, which goes level by level, in portions and
with joins, and counts nothing.

Main definitions:

* `Anthology.Ascent`, `Anthology.Ascent.turn`, `Anthology.Ascent.run` — the walk, turn by turn;
* `Anthology.Ascent.ahead` — what bounds the turns that are left;
* `Anthology.Ascent.Sound` — what holds at every turn;
* `Anthology.Ascent.Complete` — what has been done in the end.

Main results:

* `Anthology.Ascent.Sound.turn`, `Anthology.Ascent.Sound.ends` — what a turn keeps, and that the
  walk ends;
* `Anthology.Ascent.Sound.mem_counted_iff` — what is counted;
* `Anthology.Store.Reachable.ascended` — **the walk counts a collection and what is read above it,
  each once**, makes their numbers right and writes nothing else.
-/

import Anthology.Proofs.Counted
import Anthology.Proofs.Duality
import Anthology.Proofs.Progress
import Anthology.Proofs.Repair

set_option relaxedAutoImplicit false
set_option autoImplicit false

namespace Anthology

/-- A work that was gone is back in the top of a braid: the number of the top is wrong, and no
other. -/
def Operation.recovered : List Operation := Operation.braid ++
  [.createManifestation (.create "lost" 2 "Lost" Manifestation.published)]

/-- A walk upwards. -/
structure Ascent where
  store : Store
  /-- The collections that wait for their turn. -/
  queue : List Id
  /-- Those that were counted, in the order of the counts.  The walk answers their number. -/
  counted : List Id

namespace Ascent

variable {s : Store} {now : Time} {c d : Id} {a : Ascent}

/-! ### The walk -/

/-- The walk from a collection, before its first turn. -/
def start (s : Store) (c : Id) : Ascent := ⟨s, [c], []⟩

/-- One turn.  What stands in front is passed over if it was counted.  Otherwise it is counted anew,
and the collections that refer to it join the end, without those that were counted. -/
def turn (now : Time) (a : Ascent) : Except Fault Ascent :=
  match a.queue with
  | [] => .ok a
  | c :: queue =>
    if c ∈ a.counted then .ok { a with queue }
    else do
      let (_, store) ← a.store.refreshCount now c
      let counted := a.counted ++ [c]
      let onward := (store.parentsOf c).filter fun p => p ∉ counted
      return { store, queue := queue ++ onward, counted }

/-- The walk after so many turns. -/
def run (now : Time) : ℕ → Ascent → Except Fault Ascent
  | 0, a => .ok a
  | turns + 1, a => do
    let a ← a.turn now
    a.run now turns

/-- A walk whose queue is worked off has ended. -/
theorem run_of_ended (h : a.queue = []) (turns : ℕ) : a.run now turns = .ok a := by
  induction turns with
  | zero => rfl
  | succ turns ih =>
      have hturn : a.turn now = .ok a := by
        rw [turn, h]
      rw [run, hturn]
      exact ih

/-! ### How long the walk takes -/

/-- What the references lead to that lead to no counted collection, once for each slot. -/
def uncounted (s : Store) (counted : List Id) : List Id :=
  (s.slots.rows.filterMap fun x => x.item.collection?).filter fun d => d ∉ counted

/-- At most so many turns are still to come: one for everything that waits, and one for each
reference to a collection that was not counted yet. -/
def ahead (a : Ascent) : ℕ := a.queue.length + (uncounted a.store a.counted).length

theorem ahead_start_le (s : Store) (c : Id) : (start s c).ahead ≤ s.slots.size + 1 := by
  have hreferences : (uncounted s []).length ≤ s.slots.size :=
    (List.length_filter_le _ _).trans (List.length_filterMap_le _ _)
  rw [Nat.add_comm s.slots.size]
  exact Nat.add_le_add_left hreferences 1

/-- The references to a collection pay for those that refer to it, when it is counted. -/
theorem length_uncounted_add_le (s : Store) {counted : List Id} (hd : d ∉ counted) :
    (uncounted s (counted ++ [d])).length + (s.parentsOf d).length ≤
      (uncounted s counted).length :=
  (Nat.add_le_add_left (s.length_parentsOf_le d) _).trans_eq
    (Walk.length_filter_append_add_count hd)

/-! ### What holds at every turn -/

/-- What holds at every turn of a walk from the collection `c` of the store `s`. -/
structure Sound (s : Store) (now : Time) (c : Id) (a : Ascent) : Prop where
  /-- The counted collections have the right numbers, and nothing else was written. -/
  store : a.store = s.recount now a.counted
  once : a.counted.Nodup
  /-- Only what contains the collection comes up. -/
  above : ∀ d ∈ a.counted ++ a.queue, s.Contains d c
  root : c ∈ a.counted ++ a.queue
  /-- What refers to a counted collection was counted, or it waits. -/
  closed : ∀ d ∈ a.counted, ∀ p ∈ s.parentsOf d, p ∈ a.counted ++ a.queue

theorem sound_start (s : Store) (now : Time) (c : Id) : Sound s now c (start s c) where
  store := Store.recount_nil.symm
  once := List.nodup_nil
  above d hd := by
    rw [List.mem_singleton.1 hd]
    exact .refl c
  root := List.mem_singleton_self c
  closed _ hd := absurd hd List.not_mem_nil

/-- What was counted before is passed over. -/
theorem Sound.pass {queue : List Id} (h : a.Sound s now c) (hqueue : a.queue = d :: queue)
    (hd : d ∈ a.counted) : Sound s now c { a with queue } := by
  -- whatever was counted or waited still does, because what leaves the queue was counted
  have hrest : ∀ e, e ∈ a.counted ++ a.queue ↔ e ∈ a.counted ++ queue := by
    intro e
    rw [hqueue, List.mem_append, List.mem_append, List.mem_cons]
    constructor
    · rintro (he | rfl | he)
      · exact .inl he
      · exact .inl hd
      · exact .inr he
    · rintro (he | he)
      · exact .inl he
      · exact .inr (.inr he)
  exact {
    store := h.store
    once := h.once
    above := fun e he => h.above e ((hrest e).2 he)
    root := (hrest c).1 h.root
    closed := fun e he p hp => (hrest p).1 (h.closed e he p hp) }

/-- What was not counted yet is counted, and what refers to it waits. -/
theorem Sound.count {queue : List Id} (h : a.Sound s now c) (hqueue : a.queue = d :: queue)
    (hd : d ∉ a.counted) : Sound s now c {
      store := s.recount now (a.counted ++ [d])
      queue := queue ++ (s.parentsOf d).filter fun p => p ∉ a.counted ++ [d]
      counted := a.counted ++ [d] } := by
  have hrest : ∀ e ∈ a.counted ++ a.queue, e ∈ (a.counted ++ [d]) ++
      (queue ++ (s.parentsOf d).filter fun p => p ∉ a.counted ++ [d]) := by
    intro e he
    rw [hqueue] at he
    simp only [List.mem_append, List.mem_cons, List.not_mem_nil, or_false] at he ⊢
    tauto
  refine {
    store := rfl
    once := ?once
    above := ?above
    root := hrest c h.root
    closed := ?closed }
  case once =>
    refine List.nodup_append.2 ⟨h.once, List.nodup_singleton d, ?_⟩
    intro e he f hf
    rw [List.mem_singleton.1 hf]
    rintro rfl
    exact hd he
  case above =>
    have hfront : s.Contains d c := h.above d (by simp [hqueue])
    intro e he
    rcases List.mem_append.1 he with he | he
    · rcases List.mem_append.1 he with he | he
      · exact h.above e (List.mem_append_left _ he)
      · exact List.mem_singleton.1 he ▸ hfront
    · rcases List.mem_append.1 he with he | he
      · exact h.above e (by simp [hqueue, he])
      · have hparent := Store.mem_childrenOf_iff_mem_parentsOf.2 (List.mem_filter.1 he).1
        exact .step hparent hfront
  case closed =>
    intro e he p hp
    rcases List.mem_append.1 he with he | he
    · exact hrest p (h.closed e he p hp)
    · rw [List.mem_singleton.1 he] at hp
      by_cases hcounted : p ∈ a.counted ++ [d]
      · exact List.mem_append_left _ hcounted
      · refine List.mem_append_right _ (List.mem_append_right _ ?_)
        exact List.mem_filter.2 ⟨hp, decide_eq_true hcounted⟩

/-- **What a turn keeps**, that it succeeds, and that fewer turns are left. -/
theorem Sound.turn (h : a.Sound s now c) (hthere : ∀ d, s.Contains d c → s.hasCollection d = true)
    (hqueue : a.queue ≠ []) : ∃ b, a.turn now = .ok b ∧ b.Sound s now c ∧ b.ahead < a.ahead := by
  obtain ⟨d, queue, hfront⟩ := List.exists_cons_of_ne_nil hqueue
  by_cases hd : d ∈ a.counted
  · refine ⟨{ a with queue }, ?_, h.pass hfront hd, ?_⟩
    · rw [Ascent.turn, hfront]
      exact if_pos hd
    · simp only [ahead, hfront, List.length_cons]
      omega
  · have hrow : s.hasCollection d = true := hthere d (h.above d (by simp [hfront]))
    obtain ⟨row, hrow⟩ := Store.exists_collection?_iff.2
      ((congrArg (·.hasCollection d) h.store).trans (Store.recount_hasCollection.trans hrow))
    have hcount : a.store.refreshCount now d =
        .ok (⟨row.count, a.store.countBelow d⟩, s.recount now (a.counted ++ [d])) := by
      refine Store.refreshCount_eq_ok.2 ⟨row, hrow, rfl, ?_⟩
      rw [h.store, Store.recount_recount]
    refine ⟨_, ?_, h.count hfront hd, ?_⟩
    · rw [Ascent.turn, hfront]
      show (if d ∈ a.counted then _ else a.store.refreshCount now d >>= _) = _
      rw [if_neg hd, hcount]
      rfl
    · have hpaid := length_uncounted_add_le s hd
      have hjoined := List.length_filter_le (fun p => decide (p ∉ a.counted ++ [d])) (s.parentsOf d)
      -- a count writes no slots
      have hbefore : a.ahead = (queue.length + 1) + (uncounted s a.counted).length := by
        rw [ahead, hfront, h.store]
        rfl
      rw [hbefore, ahead, List.length_append]
      show _ + (uncounted s (a.counted ++ [d])).length < _
      omega

/-- **The walk ends**, after no more turns than were ahead. -/
theorem Sound.ends (h : a.Sound s now c)
    (hthere : ∀ d, s.Contains d c → s.hasCollection d = true) :
    ∃ b, b.Sound s now c ∧ b.queue = [] ∧ ∀ turns, a.ahead ≤ turns → a.run now turns = .ok b := by
  induction hahead : a.ahead using Nat.strong_induction_on generalizing a with
  | _ n ih =>
      subst hahead
      by_cases hqueue : a.queue = []
      · exact ⟨a, h, hqueue, fun turns _ => run_of_ended hqueue turns⟩
      · obtain ⟨b, hturn, hb, hless⟩ := h.turn hthere hqueue
        obtain ⟨e, he, hended, hrun⟩ := ih b.ahead hless hb rfl
        refine ⟨e, he, hended, ?_⟩
        intro turns hturns
        obtain ⟨turns, rfl⟩ : ∃ k, turns = k + 1 := ⟨turns - 1, by omega⟩
        rw [Ascent.run, hturn]
        exact hrun turns (by omega)

/-- **What was counted in the end** is what contains the collection. -/
theorem Sound.mem_counted_iff (h : a.Sound s now c) (hended : a.queue = []) :
    d ∈ a.counted ↔ s.Contains d c := by
  have hcounted : ∀ e, e ∈ a.counted ++ a.queue ↔ e ∈ a.counted := by
    intro e
    rw [hended, List.append_nil]
  constructor
  · intro hd
    exact h.above d ((hcounted d).2 hd)
  · intro hd
    induction hd with
    | refl c => exact (hcounted c).1 h.root
    | step hchild _ ih =>
        have hparent := Store.mem_childrenOf_iff_mem_parentsOf.1 hchild
        exact (hcounted _).1 (h.closed _ (ih h) _ hparent)

/-! ### What has been done in the end -/

/-- What a walk from the collection `c` of the store `s` has done in the end, where `above` are the
collections that are read above `c`. -/
structure Complete (s : Store) (now : Time) (c : Id) (above : List Collection) (a : Ascent) :
    Prop where
  /-- The collection and what is read above it were counted, and each once. -/
  counted : a.counted.Perm (c :: above.map Collection.id)
  once : a.counted.Nodup
  /-- These are the collections that contain it. -/
  contains : ∀ d, d ∈ a.counted ↔ s.Contains d c
  /-- The counted collections carry the numbers of the ways down to a work. -/
  right : ∀ d ∈ a.counted, (a.store.ways d).Finite ∧
    ∃ row, a.store.collection? d = some row ∧ row.count = (a.store.ways d).ncard
  /-- Of the counted collections those are written whose number was wrong, and of these only the
  number and the time. -/
  rows : a.store.collections.rows = s.collections.rows.map fun row =>
    if row.id ∈ a.counted then Store.repaired now (fun d => (s.ways d).ncard) row else row
  /-- No other table is written. -/
  others : a.store = { s with collections := a.store.collections }

end Ascent

namespace Store

variable {s : Store} {c : Id} {cs ds : List Id}

/-- A recount goes by what is listed, in whatever order. -/
theorem recount_congr (now : Time) (h : ∀ c, c ∈ cs ↔ c ∈ ds) :
    s.recount now cs = s.recount now ds := by
  have hrows : s.recountedIn now cs = s.recountedIn now ds := by
    funext row
    rw [recountedIn, recountedIn, if_congr (h row.id) rfl rfl]
  unfold recount
  congr

/-- What contains a collection is the collection and what is read above it. -/
theorem ReadAbove.perm {rows : List Collection} {ids : List Id} (h : s.ReadAbove c rows)
    (hthere : ∀ d, s.Contains d c → s.hasCollection d = true) (hids : ids.Nodup)
    (hmem : ∀ d, d ∈ ids ↔ s.Contains d c) : ids.Perm (c :: rows.map Collection.id) := by
  have hapart : c ∉ rows.map Collection.id := by
    intro hc
    obtain ⟨x, hx, rfl⟩ := List.mem_map.1 hc
    exact ((h.mem x).1 hx).2.1 rfl
  refine (List.perm_ext_iff_of_nodup hids (List.nodup_cons.2 ⟨hapart, h.once⟩)).2 ?_
  intro d
  rw [hmem, List.mem_cons]
  constructor
  · intro hd
    have hread : d ∈ rows.map Collection.id ↔ d ≠ c ∧ s.Contains d c :=
      mem_ids_iff (P := fun id => id ≠ c ∧ s.Contains id c) h.mem (hthere d hd)
    by_cases hself : d = c
    · exact .inl hself
    · exact .inr (hread.2 ⟨hself, hd⟩)
  · rintro (rfl | hd)
    · exact .refl d
    · obtain ⟨x, hx, rfl⟩ := List.mem_map.1 hd
      exact ((h.mem x).1 hx).2.2

/-- **The walk counts a collection and what is read above it, each once**, makes their numbers right
and writes nothing else.  It ends by itself, after no more turns than there are slots and one, and
what it leaves behind is what the store computes. -/
theorem Reachable.ascended [Arithmetic] (h : s.Reachable) (hc : s.hasCollection c = true)
    (now : Time) :
    ∃ above a, s.ancestors c = .ok above ∧
      (∀ turns, s.slots.size + 1 ≤ turns → (Ascent.start s c).run now turns = .ok a) ∧
      a.queue = [] ∧ a.counted.length = 1 + above.length ∧ s.propagate now c = .ok a.store ∧
      Ascent.Complete s now c above a := by
  have howned : s.Owned := h.lawful.owner
  have hthere : ∀ d, s.Contains d c → s.hasCollection d = true := fun d hd =>
    hd.hasCollection howned hc
  obtain ⟨above, hread, habove⟩ := howned.exists_readAbove hc
  obtain ⟨a, hsound, hended, hrun⟩ := (Ascent.sound_start s now c).ends hthere
  have hmem : ∀ d, d ∈ a.counted ↔ s.Contains d c := fun d => hsound.mem_counted_iff hended
  have hperm := habove.perm hthere hsound.once hmem
  refine ⟨above, a, hread, ?_, hended, ?_, ?_, ?_⟩
  · intro turns hturns
    exact hrun turns ((Ascent.ahead_start_le s c).trans hturns)
  · rw [hperm.length_eq, List.length_cons, List.length_map, Nat.add_comm]
  · rw [exists_propagate howned hc, hsound.store]
    exact congrArg _ (recount_congr now fun d => mem_upward.trans (hmem d).symm)
  refine {
    counted := hperm
    once := hsound.once
    contains := hmem
    right := ?right
    rows := ?rows
    others := ?others }
  case right =>
    intro d hd
    obtain ⟨row, hrow⟩ := exists_collection?_iff.2 (hthere d ((hmem d).1 hd))
    obtain ⟨-, rfl⟩ := collection?_eq_some.1 hrow
    rw [hsound.store, ways_recount, ncard_ways howned h.acyclic]
    refine ⟨finite_ways howned h.acyclic row.id, s.recountedIn now a.counted row, ?_, ?_⟩
    · rw [recount_collection?, hrow, Option.map_some]
    · rw [recountedIn, if_pos hd, recounted_count]
  case rows =>
    rw [hsound.store, funext (ncard_ways howned h.acyclic)]
    refine List.map_congr_left ?_
    intro row _
    rw [recountedIn, recounted_eq_repaired]
  case others =>
    rw [hsound.store]
    rfl

/-- Two collections refer to the shared one, and the top refers to both, to one of them twice.  The
number of the top was wrong. -/
theorem ascended_recovered : ∃ s above a, Operation.runAll .empty Operation.recovered = .ok s ∧
    (s.collection? "top").map Collection.count = some 3 ∧
    s.ancestors "shared" = .ok above ∧ (Ascent.start s "shared").run 9 20 = .ok a ∧
    a.queue = [] ∧ a.counted.length = 1 + above.length ∧ s.propagate 9 "shared" = .ok a.store ∧
    Ascent.Complete s 9 "shared" above a ∧
    (a.store.collection? "top").map Collection.count = some 4 := by
  obtain ⟨s, hrun, hbefore, hthere, hslots, hway, hfurther, hfour⟩ : ∃ s,
      Operation.runAll .empty Operation.recovered = .ok s ∧
      (s.collection? "top").map Collection.count = some 3 ∧ s.hasCollection "shared" = true ∧
      s.slots.size + 1 ≤ 20 ∧ "left" ∈ s.childrenOf "top" ∧ "shared" ∈ s.childrenOf "left" ∧
      s.countBelow "top" = 4 :=
    exists_eq_ok_of_any (by decide +kernel)
  have hreached : s.Reachable := .runAll .empty hrun
  obtain ⟨above, a, hread, hwalk, hended, hnumber, hpropagate, hcomplete⟩ :=
    Reachable.ascended hreached hthere 9
  have hstore : a.store = s.recount 9 (s.upward "shared") :=
    Except.ok.inj (hpropagate.symm.trans (exists_propagate hreached.lawful.owner hthere))
  have htop : "top" ∈ a.counted :=
    (hcomplete.contains "top").2 (.step hway (.step hfurther (.refl "shared")))
  obtain ⟨-, row, hrow, hcount⟩ := hcomplete.right "top" htop
  rw [hstore, ways_recount, ncard_ways hreached.lawful.owner hreached.acyclic, hfour] at hcount
  refine ⟨s, above, a, hrun, hbefore, hread, hwalk 20 hslots, hended, hnumber, hpropagate,
    hcomplete, ?_⟩
  rw [hrow, Option.map_some, hcount]
  rfl

end Store

end Anthology
