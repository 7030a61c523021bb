/-
**Reading downwards and reading upwards are converse.**

The two readings of a tree have little in common: they ask for other slots, in portions of other
levels, and mark what they meet apart from each other.  That one finds what the other does is
because each of them follows all references, and follows them alone.  Downwards this takes that
every reference leads to a collection that exists, upwards that every slot belongs to one.  Neither
takes that no collection contains itself.  Only that nothing stands both below and above a
collection does.

Main results:

* `Anthology.Store.Resolved.exists_descendants`, `Anthology.Store.Owned.exists_ancestors` — both
  readings follow the references, the one forth and the other back;
* `Anthology.Store.Acyclic.eq_of_contains` — no two collections contain each other;
* `Anthology.Store.Reachable.ancestors_dual` — **a collection is read below another exactly when
  that is read above it**.
-/

import Anthology.Proofs.Descent
import Anthology.Proofs.Tally

set_option relaxedAutoImplicit false
set_option autoImplicit false

namespace Anthology

open Relation (ReflTransGen)
open Walk (Follows distance distance_swap)

namespace Store

variable {s : Store} {root c d : Id}

/-! ### Both readings follow the references -/

theorem Resolved.leadsTo_eq (h : s.Resolved) : s.LeadsTo = s.Refers :=
  funext fun _ => funext fun _ => propext
    ⟨And.left, fun hrefers => ⟨hrefers, h.hasCollection_of_mem (refers_iff.1 hrefers)⟩⟩

theorem Owned.follows_collectionsAbove (h : s.Owned) :
    Follows s.collectionsAbove s.hasCollection (Function.swap s.Refers) := by
  intro level c
  rw [mem_collectionsAbove]
  refine ⟨And.left, fun hrefers => ⟨hrefers, ?_⟩⟩
  obtain ⟨d, -, x, hx, rfl, -⟩ := hrefers
  exact h x hx

theorem Resolved.exists_descendants (h : s.Resolved) (hroot : s.hasCollection root = true) :
    ∃ t, s.descendants root = .ok t ∧ s.ReadAlong s.Refers root t.collections := by
  obtain ⟨t, hread, hcollections, -⟩ := Store.exists_descendants hroot
  exact ⟨t, hread, h.leadsTo_eq ▸ hcollections⟩

/-- Upwards the root is left out of what is read. -/
theorem Owned.exists_ancestors (h : s.Owned) (hroot : s.hasCollection root = true) :
    ∃ row rows, s.collection? root = some row ∧ s.ancestors root = .ok rows ∧
      s.ReadAlong (Function.swap s.Refers) root (row :: rows) := by
  obtain ⟨row, hrow⟩ := exists_collection?_iff.2 hroot
  refine ⟨row, s.collectionsAt (s.levelsAbove root).tail.flatten, hrow, ?_, ?_⟩
  · exact bind_eq_ok.2 ⟨row, requireCollection_eq_ok.2 hrow, rfl⟩
  · have hread := readAlong_levels h.follows_collectionsAbove hroot
    rwa [levelBound, Walk.flatten_levels_root, collectionsAt, List.filterMap_cons_some hrow]
      at hread

/-! ### What is read -/

/-- Of a collection that exists the row can be told from the id. -/
theorem mem_ids_iff {P : Id → Prop} {rows : List Collection}
    (h : ∀ x, x ∈ rows ↔ x ∈ s.collections.rows ∧ P x.id) (hc : s.hasCollection c = true) :
    c ∈ rows.map Collection.id ↔ P c := by
  obtain ⟨x, hx, rfl⟩ := hasCollection_iff.1 hc
  rw [List.mem_map]
  constructor
  · rintro ⟨y, hy, hid⟩
    exact hid ▸ ((h y).1 hy).2
  · intro hP
    exact ⟨x, (h x).2 ⟨hx, hP⟩, rfl⟩

/-- What is read upwards of a collection: every other one that contains it, once and none before a
nearer one. -/
structure ReadAbove (s : Store) (c : Id) (rows : List Collection) : Prop where
  mem : ∀ x, x ∈ rows ↔ x ∈ s.collections.rows ∧ x.id ≠ c ∧ s.Contains x.id c
  once : (rows.map Collection.id).Nodup
  nearer : rows.Pairwise fun x y => distance s.Refers x.id c ≤ distance s.Refers y.id c

theorem Owned.exists_readAbove (h : s.Owned) (hc : s.hasCollection c = true) :
    ∃ rows, s.ancestors c = .ok rows ∧ s.ReadAbove c rows := by
  obtain ⟨row, rows, hrow, hread, hall⟩ := h.exists_ancestors hc
  obtain ⟨-, rfl⟩ := collection?_eq_some.1 hrow
  obtain ⟨hnotin, honce⟩ := List.nodup_cons.1 (List.map_cons .. ▸ hall.once)
  refine ⟨rows, hread, fun x => ?_, honce, ?_⟩
  · have hmem := hall.mem x
    rw [List.mem_cons, Relation.reflTransGen_swap, reflTransGen_refers_iff] at hmem
    constructor
    · intro hx
      obtain ⟨hrows, hcontains⟩ := hmem.1 (.inr hx)
      exact ⟨hrows, fun hid => hnotin (List.mem_map.2 ⟨x, hx, hid⟩), hcontains⟩
    · rintro ⟨hrows, hne, hcontains⟩
      exact (hmem.2 ⟨hrows, hcontains⟩).resolve_left fun heq => hne (congrArg _ heq)
  · refine (List.pairwise_cons.1 hall.nearer).2.imp fun hle => ?_
    rwa [distance_swap (r := s.Refers), distance_swap (r := s.Refers)] at hle

/-! ### Nothing stands below and above -/

theorem Acyclic.eq_of_contains (ha : s.Acyclic) (h : s.Contains c d) (h' : s.Contains d c) :
    c = d := by
  cases h with
  | refl => rfl
  | step hchild rest => exact absurd (rest.trans h') (ha _ _ hchild)

/-- **A collection is read below another exactly when that is read above it.**  Above a collection
every other one that contains it is read, each once, the nearer before the farther and never the
collection itself, and nothing is read both below and above. -/
theorem Reachable.ancestors_dual [Arithmetic] (h : s.Reachable) :
    (∀ c d, s.hasCollection c = true → s.hasCollection d = true → c ≠ d →
      ∃ t above, s.descendants c = .ok t ∧ s.ancestors d = .ok above ∧
        (d ∈ t.collections.map Collection.id ↔ c ∈ above.map Collection.id)) ∧
    (∀ d, s.hasCollection d = true → ∃ above, s.ancestors d = .ok above ∧ s.ReadAbove d above) ∧
    ∀ c, s.hasCollection c = true → ∃ t, s.tree c = .ok t ∧
      s.descendants c = .ok t.descendants ∧ s.ancestors c = .ok t.ancestors ∧
        ∀ x ∈ t.descendants.collections, ∀ y ∈ t.ancestors, x.id ≠ y.id := by
  have howned := h.lawful.owner
  refine ⟨fun c d hc hd hne => ?_, fun d hd => howned.exists_readAbove hd, fun c hc => ?_⟩
  · obtain ⟨t, hbelow, hdown⟩ := h.resolved.exists_descendants hc
    obtain ⟨above, habove, hup⟩ := howned.exists_readAbove hd
    have hfound : d ∈ t.collections.map Collection.id ↔ ReflTransGen s.Refers c d :=
      mem_ids_iff hdown.mem hd
    have hmet : c ∈ above.map Collection.id ↔ c ≠ d ∧ s.Contains c d :=
      mem_ids_iff (P := fun id => id ≠ d ∧ s.Contains id d) hup.mem hc
    refine ⟨t, above, hbelow, habove, ?_⟩
    rw [hfound, hmet, reflTransGen_refers_iff, and_iff_right hne]
  · obtain ⟨t, hbelow, hdown⟩ := h.resolved.exists_descendants hc
    obtain ⟨above, habove, hup⟩ := howned.exists_readAbove hc
    refine ⟨⟨t, above⟩, ?_, hbelow, habove, fun x hx y hy hid => ?_⟩
    · exact bind_eq_ok.2 ⟨t, hbelow, bind_eq_ok.2 ⟨above, habove, rfl⟩⟩
    · -- what is both contains the collection and is contained in it
      have hcontained := reflTransGen_refers_iff.1 ((hdown.mem x).1 hx).2
      obtain ⟨-, hne, hcontains⟩ := (hup.mem y).1 hy
      exact hne (h.acyclic.eq_of_contains hcontains (hid ▸ hcontained))

/-- Three ways lead from the top to the collection they share, and it is read once. -/
theorem ancestors_dual_braid : ∃ s t above, Operation.runAll .empty Operation.braid = .ok s ∧
    s.descendants "top" = .ok t ∧ s.ancestors "shared" = .ok above ∧
      "shared" ∈ t.collections.map Collection.id ∧ "top" ∈ above.map Collection.id ∧
        (above.map Collection.id).Nodup ∧
        ∃ tree, s.tree "left" = .ok tree ∧
          ∀ x ∈ tree.descendants.collections, ∀ y ∈ tree.ancestors, x.id ≠ y.id := by
  obtain ⟨s, hrun, htop, hshared, hleft, hway, hfurther⟩ :
      ∃ s, Operation.runAll .empty Operation.braid = .ok s ∧ s.hasCollection "top" = true ∧
        s.hasCollection "shared" = true ∧ s.hasCollection "left" = true ∧
        "left" ∈ s.childrenOf "top" ∧ "shared" ∈ s.childrenOf "left" :=
    exists_eq_ok_of_any (by decide +kernel)
  obtain ⟨hdual, hup, hapart⟩ := Reachable.ancestors_dual (.runAll .empty hrun)
  obtain ⟨t, above, hbelow, habove, hiff⟩ := hdual "top" "shared" htop hshared (by decide)
  obtain ⟨_, habove', hread⟩ := hup "shared" hshared
  obtain rfl := Except.ok.inj (habove.symm.trans habove')
  obtain ⟨x, hx, hid⟩ := hasCollection_iff.1 htop
  have hmet : "top" ∈ above.map Collection.id := List.mem_map.2
    ⟨x, (hread.mem x).2 ⟨hx, by rw [hid]; decide, hid ▸ .step hway (.step hfurther (.refl _))⟩, hid⟩
  obtain ⟨tree, htree, -, -, hnone⟩ := hapart "left" hleft
  exact ⟨s, t, above, hrun, hbelow, habove, hiff.2 hmet, hmet, hread.once, tree, htree, hnone⟩

end Store

end Anthology
