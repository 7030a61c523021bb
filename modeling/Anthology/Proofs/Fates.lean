/-
**What becomes of an orphan.**

The fate of an orphan hangs on the works that it holds and on who is credited with them.  It is
computed from lists: the works are listed once each, the authorities are sifted, and the run
remembers whom it has linked.  Here it is said without lists, as a relation between the orphan, the
orphans before it with their fates, and its own fate; the relation and the computation agree.

A claim to an orphan is a credit on every work in it.  It is computed by counting: of the works that
the slots refer to, as many must be credited to the authority as there are.  The two agree although
a work may sit in several slots, an authority may have several credits on it, and slots may refer to
works that are gone, because a credit is always on a work that exists.

Main definitions:

* `Anthology.Store.Holds`, `Anthology.Store.Claims`, `Anthology.Store.Claimants` — works in a
  collection, and those with a claim to it;
* `Anthology.Store.Decided` — the fate of an orphan;
* `Anthology.Store.plan` — the fates of all orphans, as one store decides them.

Main results:

* `Anthology.Store.Lawful.claims_iff_counted` — claims can be counted;
* `Anthology.Store.Lawful.decided_iff` — **the fate is the one that is computed**;
* `Anthology.Store.Lawful.decided_of_plan` — the plan decides each orphan by those before it;
* `Anthology.Store.mem_orphans`, `Anthology.Store.pairwise_orphans` — orphans and their order.
-/

import Anthology.Proofs.Batch

set_option relaxedAutoImplicit false
set_option autoImplicit false

namespace Anthology

namespace Store

variable {s : Store} {c m : Id} {a : Authority} {linkedNow : List Id}
  {before done : List (Id × OrphanFate)} {fate : OrphanFate}

/-! ### Works and claims -/

/-- A slot of the collection refers to the work, and the work exists. -/
def Holds (s : Store) (c m : Id) : Prop :=
  (∃ x ∈ s.slots.rows, x.owner = c ∧ x.item = .manifestation m) ∧ s.hasManifestation m = true

/-- The authority is author, translator or editor of every work in the collection. -/
def Claims (s : Store) (a c : Id) : Prop := ∀ m, s.Holds c m → s.Creator a m

/-- The listed authorities, each listed once, are those with a claim to the collection. -/
def Claimants (s : Store) (c : Id) (as : List Authority) : Prop :=
  as.Nodup ∧ ∀ a, a ∈ as ↔ a ∈ s.authorities.rows ∧ s.Claims a.id c

theorem mem_distinctWorks : m ∈ s.distinctWorks c ↔ s.Holds c m := by
  simp only [distinctWorks, List.mem_eraseDups, List.mem_filter, List.mem_filterMap, mem_slotsOf,
    ItemRef.manifestation?_eq_some, Holds, and_assoc]

/-- Lists of those with a claim differ in nothing but their order. -/
theorem Claimants.perm {as bs : List Authority} (h : s.Claimants c as) (h' : s.Claimants c bs) :
    as.Perm bs :=
  (List.perm_ext_iff_of_nodup h.1 h'.1).2 fun a => (h.2 a).trans (h'.2 a).symm

/-! ### Claims by counting -/

/-- A credit is on a work that exists, so a slot that refers to the work holds it. -/
theorem Lawful.mem_creditedWorks (hl : s.Lawful) {a : Id} :
    m ∈ s.creditedWorks a c ↔ s.Holds c m ∧ s.Creator a m := by
  rw [← qualifies_iff]
  simp only [creditedWorks, List.mem_eraseDups, List.mem_map, List.mem_filter, Bool.and_eq_true,
    beq_iff_eq, List.any_eq_true, mem_slotsOf, qualifies, Holds]
  constructor
  · rintro ⟨i, ⟨hi, ⟨ha, hrole⟩, x, ⟨hx, howner⟩, hitem⟩, rfl⟩
    exact ⟨⟨⟨x, hx, howner, hitem⟩, (hl.credit i hi).2⟩, i, hi, ⟨ha, rfl⟩, hrole⟩
  · rintro ⟨⟨⟨x, hx, howner, hitem⟩, -⟩, i, hi, ⟨ha, rfl⟩, hrole⟩
    exact ⟨i, ⟨hi, ⟨ha, hrole⟩, x, ⟨hx, howner⟩, hitem⟩, rfl⟩

/-- **Claims can be counted**: as many works are credited as there are exactly when each is. -/
theorem Lawful.claims_iff_counted (hl : s.Lawful) {a : Id} :
    s.Claims a c ↔ (s.creditedWorks a c).length = (s.distinctWorks c).length := by
  have hcredited : (s.creditedWorks a c).Nodup := nodup_eraseDups _
  have hworks : (s.distinctWorks c).Nodup := nodup_eraseDups _
  have hsub : (s.creditedWorks a c).Subperm (s.distinctWorks c) :=
    List.subperm_of_subset hcredited fun m hm =>
      mem_distinctWorks.2 (hl.mem_creditedWorks.1 hm).1
  constructor
  · intro hclaims
    refine ((List.perm_ext_iff_of_nodup hcredited hworks).2 fun m => ?_).length_eq
    rw [hl.mem_creditedWorks, mem_distinctWorks, and_iff_left_of_imp (hclaims m)]
  · intro hcount m hm
    have hperm := hsub.perm_of_length_le hcount.ge
    exact (hl.mem_creditedWorks.1 (hperm.mem_iff.2 (mem_distinctWorks.2 hm))).2

/-- The owners are those with a claim. -/
theorem Lawful.claimants_owners (hl : s.Lawful) (c : Id) :
    s.Claimants c (s.owners c (s.distinctWorks c).length) := by
  refine ⟨(List.Nodup.of_map _ s.authorities.nodup).filter _, fun a => ?_⟩
  rw [owners, List.mem_filter, beq_iff_eq, hl.claims_iff_counted]

/-! ### Fates -/

/-- The fate of the collection `c`, an orphan, where `before` are the orphans that were treated
before it with their fates. -/
inductive Decided (s : Store) (before : List (Id × OrphanFate)) (c : Id) : OrphanFate → Prop
  | empty (bare : ∀ m, ¬ s.Holds c m) : Decided s before c .deleteEmpty
  /-- The one authority with a claim has no collection yet, and was given none before. -/
  | link {a : Authority} (held : ∃ m, s.Holds c m) (sole : s.Claimants c [a])
      (free : a.uncollected = none) (first : ∀ d, (d, .link a.id) ∉ before) :
      Decided s before c (.link a.id)
  | duplicate {a : Authority} (held : ∃ m, s.Holds c m) (sole : s.Claimants c [a])
      (taken : a.uncollected ≠ none ∨ ∃ d, (d, .link a.id) ∈ before) :
      Decided s before c (.deleteDuplicate a.id)
  /-- No authority has a claim, or more than one. -/
  | unfixable {as : List Authority} (held : ∃ m, s.Holds c m) (claimants : s.Claimants c as)
      (several : as.length ≠ 1) : Decided s before c (.deleteUnfixable as.length)

theorem isEmpty_distinctWorks_iff : (s.distinctWorks c).isEmpty = true ↔ ∀ m, ¬ s.Holds c m := by
  rw [List.isEmpty_iff, List.eq_nil_iff_forall_not_mem]
  simp only [mem_distinctWorks]

/-- The fate that is computed is one that the relation allows. -/
theorem Lawful.decided_fateOf (hl : s.Lawful)
    (hnow : ∀ a, a ∈ linkedNow ↔ ∃ d, (d, .link a) ∈ before) :
    s.Decided before c (s.fateOf linkedNow c) := by
  have hclaimants := hl.claimants_owners c
  unfold fateOf
  dsimp only
  split
  · rename_i hempty
    exact .empty (isEmpty_distinctWorks_iff.1 hempty)
  · rename_i hheld
    have hheld : ∃ m, s.Holds c m := by
      by_contra hnone
      exact hheld (isEmpty_distinctWorks_iff.2 (not_exists.1 hnone))
    split
    · rename_i a hone
      rw [hone] at hclaimants
      split
      · rename_i htaken
        refine .duplicate hheld hclaimants ?_
        rw [Bool.or_eq_true, List.contains_iff_mem, hnow] at htaken
        exact htaken.imp_left fun hsome hnone => by simp [hnone] at hsome
      · rename_i hfree
        rw [Bool.or_eq_true, not_or, List.contains_iff_mem, hnow, not_exists] at hfree
        exact .link hheld hclaimants (Option.not_isSome_iff_eq_none.1 hfree.1) hfree.2
    · rename_i hseveral
      refine .unfixable hheld hclaimants fun hone => ?_
      obtain ⟨a, ha⟩ := List.length_eq_one_iff.1 hone
      exact hseveral a ha

/-- The relation allows one fate only. -/
theorem Decided.unique {fate' : OrphanFate} (h : s.Decided before c fate)
    (h' : s.Decided before c fate') : fate = fate' := by
  -- two sole claimants are the same, and then it is the same authority that is free or not
  have hsole : ∀ {a b : Authority}, s.Claimants c [a] → s.Claimants c [b] → a = b := fun ha hb =>
    List.singleton_perm_singleton.1 (ha.perm hb)
  have hcount : ∀ {a : Authority} {as : List Authority}, s.Claimants c [a] → s.Claimants c as →
      as.length = 1 := fun ha has => (has.perm ha).length_eq
  cases h with
  | empty bare =>
      cases h' with
      | empty => rfl
      | link held | duplicate held | unfixable held => exact absurd held.choose_spec (bare _)
  | link held sole free first =>
      cases h' with
      | empty bare => exact absurd held.choose_spec (bare _)
      | link _ sole' => rw [hsole sole sole']
      | duplicate _ sole' taken =>
          cases hsole sole sole'
          exact absurd taken (by simp [free, first])
      | unfixable _ claimants several => exact absurd (hcount sole claimants) several
  | duplicate held sole taken =>
      cases h' with
      | empty bare => exact absurd held.choose_spec (bare _)
      | link _ sole' free first =>
          cases hsole sole sole'
          exact absurd taken (by simp [free, first])
      | duplicate _ sole' => rw [hsole sole sole']
      | unfixable _ claimants several => exact absurd (hcount sole claimants) several
  | unfixable held claimants several =>
      cases h' with
      | empty bare => exact absurd held.choose_spec (bare _)
      | link _ sole' | duplicate _ sole' => exact absurd (hcount sole' claimants) several
      | unfixable _ claimants' => rw [(claimants.perm claimants').length_eq]

/-- **The fate is the one that is computed**, where the run remembers whom it has linked. -/
theorem Lawful.decided_iff (hl : s.Lawful)
    (hnow : ∀ a, a ∈ linkedNow ↔ ∃ d, (d, .link a) ∈ before) :
    s.Decided before c fate ↔ fate = s.fateOf linkedNow c := by
  refine ⟨fun h => h.unique (hl.decided_fateOf hnow), ?_⟩
  rintro rfl
  exact hl.decided_fateOf hnow

/-! ### Plans -/

/-- The fates of the listed orphans in their order, as the store decides them, where `linkedNow`
were linked before. -/
def plan (s : Store) (linkedNow : List Id) : List Id → List (Id × OrphanFate)
  | [] => []
  | c :: cs =>
    let fate := s.fateOf linkedNow c
    (c, fate) :: s.plan (fate.linked?.toList ++ linkedNow) cs

theorem plan_cons (s : Store) (linkedNow : List Id) (c : Id) (cs : List Id) :
    s.plan linkedNow (c :: cs) = (c, s.fateOf linkedNow c) ::
      s.plan ((s.fateOf linkedNow c).linked?.toList ++ linkedNow) cs := rfl

@[simp] theorem plan_map_fst (s : Store) (linkedNow cs : List Id) :
    (s.plan linkedNow cs).map Prod.fst = cs := by
  induction cs generalizing linkedNow with
  | nil => rfl
  | cons c cs ih => rw [plan_cons, List.map_cons, ih]

theorem linked?_eq_some {a : Id} : fate.linked? = some a ↔ fate = .link a := by
  cases fate <;> simp [OrphanFate.linked?]

/-- Whoever is linked by the next fate is remembered with the others. -/
theorem mem_linkedNow_snoc (hnow : ∀ a, a ∈ linkedNow ↔ ∃ d, (d, .link a) ∈ done) (a : Id) :
    a ∈ fate.linked?.toList ++ linkedNow ↔ ∃ d, (d, .link a) ∈ done ++ [(c, fate)] := by
  simp only [List.mem_append, Option.mem_toList, linked?_eq_some, hnow,
    List.mem_singleton, Prod.mk.injEq, exists_or, exists_eq_left]
  rw [or_comm, eq_comm]

/-- **The plan decides each orphan by those before it.** -/
theorem Lawful.decided_of_plan (hl : s.Lawful) {cs : List Id} {after : List (Id × OrphanFate)}
    (hnow : ∀ a, a ∈ linkedNow ↔ ∃ d, (d, .link a) ∈ done)
    (hplan : s.plan linkedNow cs = before ++ (c, fate) :: after) :
    s.Decided (done ++ before) c fate := by
  induction cs generalizing linkedNow done before with
  | nil => exact absurd hplan (by simp [plan])
  | cons d cs ih =>
      rw [plan_cons] at hplan
      cases before with
      | nil =>
          obtain ⟨hhead, -⟩ := List.cons.inj hplan
          obtain ⟨rfl, rfl⟩ := Prod.mk.inj hhead
          rw [List.append_nil]
          exact hl.decided_fateOf hnow
      | cons first before =>
          obtain ⟨rfl, hrest⟩ := List.cons.inj hplan
          rw [List.append_cons]
          exact ih (mem_linkedNow_snoc hnow) hrest

/-! ### Orphans in their order -/

theorem mem_orphans {row : Collection} :
    row ∈ s.orphans ↔ row ∈ s.collections.rows ∧ s.Orphan row.id := by
  simp only [orphans, List.mem_mergeSort, List.mem_filter, Bool.and_eq_true, linkedTo?,
    Option.isNone_iff_eq_none, List.find?_eq_none, beq_iff_eq]
  refine and_congr_right fun hrow => ?_
  constructor
  · rintro ⟨hkind, hunlinked⟩
    exact ⟨⟨row, collection?_eq_some.2 ⟨hrow, rfl⟩, hkind⟩, hunlinked⟩
  · intro h
    exact ⟨h.isUncollected row (collection?_eq_some.2 ⟨hrow, rfl⟩), h.unlinked⟩

/-- What orphans are ordered by. -/
def age (row : Collection) : ℤ ×ₗ Id := toLex (row.createdAt, row.id)

theorem olderThan_iff {row old : Collection} : olderThan row old = true ↔ age row ≤ age old := by
  simp [olderThan, age, Prod.Lex.toLex_le_toLex]

/-- Orphans are treated by the time they were made and then by id, each once. -/
theorem pairwise_orphans (s : Store) : s.orphans.Pairwise fun old row =>
    old.createdAt < row.createdAt ∨ old.createdAt = row.createdAt ∧ old.id < row.id := by
  have hsorted : s.orphans.Pairwise fun old row => age old < age row := by
    refine pairwise_mergeSort_lt (fun _ _ => olderThan_iff) (nodup_rank (fun _ => rfl) ?_)
    exact s.collections.nodup.sublist (List.filter_sublist.map _)
  exact hsorted.imp fun h => Prod.Lex.toLex_lt_toLex.1 h

end Store

end Anthology
