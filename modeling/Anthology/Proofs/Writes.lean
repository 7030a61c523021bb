/-
**Writes, and what they keep.**

Every operation on the store is a sequence of writes of rows, and before a write it sees to some
conditions: a slot comes to refer to something only if that exists and no cycle is closed, a
collection goes only when no slot refers to it any more.  This module lists the writes with these
conditions, once for all operations, and shows what one write keeps; what any operation keeps
follows by induction on its writes.

Main definitions:

* `Anthology.Store.Lawful` — the rules of the schema, which the store checks at each write;
* `Anthology.Store.Write` — one write of rows with what is seen to before it;
* `Anthology.Store.Writes` — any number of them.

Main results:

* `Anthology.Store.Write.lawful`, `Anthology.Store.Writes.lawful` — the schema is kept;
* `Anthology.Store.Write.oneGuarded` — a write adds at most one reference, and a guarded one;
* `Anthology.Store.Writes.acyclic` — **containment stays without cycles**.
-/

import Anthology.Proofs.Containment

set_option relaxedAutoImplicit false
set_option autoImplicit false

namespace Anthology

open Relation (ReflTransGen)

/-! ### Tables after a write -/

namespace Table

variable {α κ : Type} [Keyed α κ] [DecidableEq κ] {t u : Table α} {k : κ}

@[simp] theorem has_update (t : Table α) (f : α → α) (hf : ∀ a, Keyed.key (f a) = Keyed.key a)
    (k : κ) : (t.update f hf).has k = t.has k := by
  simp only [has, rows_update, List.any_map]
  congr 1
  funext a
  simp [hf]

theorem has_modify (t : Table α) (f : α → α) (hf : ∀ a, Keyed.key (f a) = Keyed.key a)
    (l k : κ) : (t.modify l f hf).has k = t.has k := has_update ..

@[simp] theorem find?_update (t : Table α) (f : α → α)
    (hf : ∀ a, Keyed.key (f a) = Keyed.key a) (k : κ) :
    (t.update f hf).find? k = (t.find? k).map f := by
  simp only [find?, rows_update, List.find?_map]
  congr 2
  funext a
  simp [hf]

theorem has_of_append {a : α} (h : u.rows = t.rows ++ [a]) (hk : t.has k = true) :
    u.has k = true := by
  obtain ⟨b, hb, e⟩ := has_iff.1 hk
  exact has_iff.2 ⟨b, h ▸ List.mem_append_left _ hb, e⟩

end Table

namespace Store

/-! ### The rules of the schema -/

/-- Every slot belongs to a collection that exists. -/
def Owned (s : Store) : Prop := ∀ x ∈ s.slots.rows, s.hasCollection x.owner = true

/-- The rules that the schema lays down for the rows of a store, beyond the keys. -/
structure Lawful (s : Store) : Prop where
  owner : s.Owned
  seqno : ∀ x ∈ s.slots.rows, 0 < x.seqno
  count : ∀ c ∈ s.collections.rows, 0 ≤ c.count
  link : ∀ a ∈ s.authorities.rows, ∀ c, a.uncollected = some c → s.hasCollection c = true
  linkUnique : ∀ a ∈ s.authorities.rows, ∀ b ∈ s.authorities.rows, ∀ c,
    a.uncollected = some c → b.uncollected = some c → a.id = b.id
  credit : ∀ i ∈ s.involvements.rows,
    (∃ a ∈ s.authorities.rows, a.id = i.authority) ∧ s.hasManifestation i.manifestation = true

theorem Lawful.empty : Store.empty.Lawful := by
  constructor <;> simp [Owned, Store.empty]

/-! ### Writes -/

/-- One write of rows, with what every operation that makes it has seen to. -/
inductive Write : Store → Store → Prop
  | putSlot {s s' : Store} {x : Slot} (target : s.requireTarget x.item = .ok ())
      (guarded : s.guard x.owner x.item = .ok ()) (put : s.putSlot x = .ok s') : Write s s'
  /-- A slot is pointed at something else, or moved to another collection. -/
  | placeSlot {s : Store} {x : Slot} (f : Slot → Slot) (hf : ∀ x, (f x).id = x.id)
      (found : x ∈ s.slots.rows) (owned : s.hasCollection (f x).owner = true)
      (numbered : 0 < (f x).seqno)
      (target : (f x).item = x.item ∨ s.requireTarget (f x).item = .ok ())
      (guarded : s.guard (f x).owner (f x).item = .ok ()) : Write s (s.editSlot x.id f hf)
  /-- Slots are labelled or numbered anew. -/
  | relabel {s : Store} (f : Slot → Slot) (hf : ∀ x, (f x).id = x.id)
      (owner : ∀ x, (f x).owner = x.owner) (item : ∀ x, (f x).item = x.item)
      (numbered : ∀ x, 0 < x.seqno → 0 < (f x).seqno) :
      Write s { s with slots := s.slots.update f hf }
  | dropSlots (s : Store) (p : Slot → Bool) : Write s (s.dropSlots p)
  | putCollection {s s' : Store} {c : Collection} (put : s.putCollection c = .ok s') : Write s s'
  | editCollections {s : Store} (f : Collection → Collection) (hf : ∀ c, (f c).id = c.id)
      (kind : ∀ c ∈ s.collections.rows, (f c).isUncollected = c.isUncollected)
      (counted : ∀ c ∈ s.collections.rows, 0 ≤ c.count → 0 ≤ (f c).count) :
      Write s { s with collections := s.collections.update f hf }
  | dropCollection {s : Store} {id : Id} (alone : ∀ x ∈ s.slots.rows, x.item ≠ .collection id) :
      Write s (s.dropCollection id)
  | putManifestation {s s' : Store} {m : Manifestation} (put : s.putManifestation m = .ok s') :
      Write s s'
  | editManifestation (s : Store) (id : Id) (f : Manifestation → Manifestation)
      (hf : ∀ m, (f m).id = m.id) : Write s (s.editManifestation id f hf)
  | dropManifestation (s : Store) (id : Id) : Write s (s.dropManifestation id)
  | putAuthority {s s' : Store} {a : Authority} (put : s.putAuthority a = .ok s') : Write s s'
  | editAuthority (s : Store) (id : Id) (f : Authority → Authority) (hf : ∀ a, (f a).id = a.id)
      (linked : ∀ a, (f a).uncollected = a.uncollected) : Write s (s.editAuthority id f hf)
  /-- An authority is linked to an uncollected collection. -/
  | setLink {s s' : Store} {a c : Id}
      (uncollected : ∀ row, s.collection? c = some row → row.isUncollected = true)
      (set : s.setLink a (some c) = .ok s') : Write s s'
  | dropAuthority (s : Store) (id : Id) : Write s (s.dropAuthority id)
  | putInvolvement {s s' : Store} {i : Involvement} (put : s.putInvolvement i = .ok s') :
      Write s s'
  | dropInvolvements (s : Store) (p : Involvement → Bool) :
      Write s { s with involvements := s.involvements.keep p }

/-- Any number of writes. -/
abbrev Writes (s t : Store) : Prop := ReflTransGen Write s t

variable {s t : Store}

/-! ### The schema is kept -/

theorem mem_editSlot {id : Id} {f : Slot → Slot} {hf : ∀ x, (f x).id = x.id} {y : Slot} :
    y ∈ (s.editSlot id f hf).slots.rows ↔
      (y ∈ s.slots.rows ∧ y.id ≠ id) ∨ ∃ x, s.slot? id = some x ∧ f x = y := by
  simp only [editSlot, Table.rows_modify, List.mem_map, slot?_eq_some]
  constructor
  · rintro ⟨x, hx, rfl⟩
    split
    · rename_i h
      exact .inr ⟨x, ⟨hx, h⟩, rfl⟩
    · rename_i h
      exact .inl ⟨hx, h⟩
  · rintro (⟨hy, h⟩ | ⟨x, ⟨hx, h⟩, rfl⟩)
    · exact ⟨y, hy, if_neg h⟩
    · exact ⟨x, hx, if_pos h⟩

/-- Authorities may be changed as long as the links lead to collections, no two to the same one. -/
theorem Lawful.update_authorities (h : s.Lawful) {f : Authority → Authority}
    (hf : ∀ a, (f a).id = a.id)
    (hlink : ∀ a ∈ s.authorities.rows, ∀ c, (f a).uncollected = some c → s.hasCollection c = true)
    (hunique : ∀ a ∈ s.authorities.rows, ∀ b ∈ s.authorities.rows, ∀ c,
      (f a).uncollected = some c → (f b).uncollected = some c → a.id = b.id) :
    Lawful { s with authorities := s.authorities.update f hf } := by
  refine { h with link := fun a' ha' c hc => ?_, linkUnique := ?_, credit := fun i hi => ?_ }
  · obtain ⟨a, ha, rfl⟩ := List.mem_map.1 ha'
    exact hlink a ha c hc
  · intro a' ha' b' hb' c hac hbc
    obtain ⟨a, ha, rfl⟩ := List.mem_map.1 ha'
    obtain ⟨b, hb, rfl⟩ := List.mem_map.1 hb'
    rw [hf, hf]
    exact hunique a ha b hb c hac hbc
  · obtain ⟨⟨a, ha, e⟩, hm⟩ := h.credit i hi
    exact ⟨⟨f a, List.mem_map_of_mem ha, (hf a).trans e⟩, hm⟩

theorem Lawful.putCollection (h : s.Lawful) {c : Collection} (put : s.putCollection c = .ok t) :
    t.Lawful := by
  obtain ⟨hf, -, collections, hrows, rfl⟩ := putCollection_eq_ok.1 put
  have hhas : ∀ id, s.hasCollection id = true →
      Store.hasCollection { s with collections } id = true :=
    fun id => Table.has_of_append hrows
  refine { h with
    owner := fun x hx => hhas _ (h.owner x hx)
    link := fun a ha d hd => hhas _ (h.link a ha d hd)
    count := fun d hd => ?_ }
  rcases List.mem_append.1 (hrows ▸ hd) with hd | hd
  · exact h.count d hd
  · rw [List.mem_singleton.1 hd]
    unfold Collection.flaw? at hf
    split at hf
    · contradiction
    · split at hf
      · contradiction
      · omega

/-- A collection goes with its slots, and links to it are cut. -/
theorem Lawful.dropCollection (h : s.Lawful) (id : Id) : (s.dropCollection id).Lawful := by
  have hhas : ∀ c, c ≠ id → s.hasCollection c = true →
      (s.dropCollection id).hasCollection c = true := by
    intro c hc hs
    obtain ⟨row, hrow, rfl⟩ := hasCollection_iff.1 hs
    exact hasCollection_iff.2 ⟨row, List.mem_filter.2 ⟨hrow, bne_iff_ne.2 hc⟩, rfl⟩
  -- a link that is left was there before, and did not lead to the collection
  have hlink : ∀ a ∈ (s.dropCollection id).authorities.rows, ∀ c, a.uncollected = some c →
      c ≠ id ∧ ∃ b ∈ s.authorities.rows, b.id = a.id ∧ b.uncollected = some c := by
    intro a ha c hc
    obtain ⟨b, hb, rfl⟩ := List.mem_map.1 ha
    by_cases hid : b.uncollected = some id
    · simp [hid] at hc
    · rw [if_neg hid] at hc
      exact ⟨fun e => hid (e ▸ hc), b, hb, by rw [if_neg hid], hc⟩
  constructor
  · intro x hx
    obtain ⟨hx, ho⟩ := List.mem_filter.1 hx
    exact hhas _ (bne_iff_ne.1 ho) (h.owner x hx)
  · exact fun x hx => h.seqno x (List.mem_filter.1 hx).1
  · exact fun c hc => h.count c (List.mem_filter.1 hc).1
  · intro a ha c hc
    obtain ⟨hne, b, hb, -, hbc⟩ := hlink a ha c hc
    exact hhas c hne (h.link b hb c hbc)
  · intro a ha b hb c hac hbc
    obtain ⟨-, a', ha', ea, ha'c⟩ := hlink a ha c hac
    obtain ⟨-, b', hb', eb, hb'c⟩ := hlink b hb c hbc
    rw [← ea, ← eb]
    exact h.linkUnique a' ha' b' hb' c ha'c hb'c
  · intro i hi
    obtain ⟨⟨a, ha, hai⟩, hm⟩ := h.credit i hi
    refine ⟨⟨_, List.mem_map_of_mem ha, ?_⟩, hm⟩
    split <;> exact hai

theorem Lawful.putAuthority (h : s.Lawful) {a : Authority} (put : s.putAuthority a = .ok t) :
    t.Lawful := by
  obtain ⟨-, hlink, -, authorities, hrows, rfl⟩ := putAuthority_eq_ok.1 put
  -- the new authority has no link, so the rows with a link are those from before
  have hold : ∀ b ∈ authorities.rows, ∀ c, b.uncollected = some c → b ∈ s.authorities.rows := by
    intro b hb c hc
    rcases List.mem_append.1 (hrows ▸ hb) with hb | hb
    · exact hb
    · rw [List.mem_singleton.1 hb, hlink] at hc
      contradiction
  refine { h with
    link := fun b hb c hc => h.link b (hold b hb c hc) c hc
    linkUnique := fun b hb b' hb' c hc hc' =>
      h.linkUnique b (hold b hb c hc) b' (hold b' hb' c hc') c hc hc'
    credit := fun i hi => ?_ }
  obtain ⟨⟨b, hb, e⟩, hm⟩ := h.credit i hi
  exact ⟨⟨b, hrows ▸ List.mem_append_left _ hb, e⟩, hm⟩

/-- A link is set only to a collection that exists and that no other authority is linked to. -/
theorem Lawful.setLink (h : s.Lawful) {a c : Id} (set : s.setLink a (some c) = .ok t) :
    t.Lawful := by
  rcases setLink_eq_ok set with ⟨-, rfl⟩ | ⟨hfree, hc, rfl⟩
  · exact h
  -- a link is the new one, or one of another authority from before
  have hlinks : ∀ b : Authority, ∀ d,
      (if b.id = a then { b with uncollected := some c } else b).uncollected = some d →
        b.id = a ∧ d = c ∨ b.id ≠ a ∧ b.uncollected = some d := by
    intro b d hd
    split at hd
    · rename_i hb
      exact .inl ⟨hb, (Option.some.inj hd).symm⟩
    · rename_i hb
      exact .inr ⟨hb, hd⟩
  refine h.update_authorities _ (fun b hb d hd => ?_) fun b hb b' hb' d hd hd' => ?_
  · rcases hlinks b d hd with ⟨-, rfl⟩ | ⟨-, hd⟩
    · exact hc
    · exact h.link b hb d hd
  · rcases hlinks b d hd with ⟨e, rfl⟩ | ⟨-, hbd⟩ <;>
      rcases hlinks b' _ hd' with ⟨e', e''⟩ | ⟨-, hbd'⟩
    · rw [e, e']
    · rw [e, hfree b' hb' hbd']
    · rw [e', hfree b hb (e'' ▸ hbd)]
    · exact h.linkUnique b hb b' hb' d hbd hbd'

theorem Write.lawful (hw : Write s t) (h : s.Lawful) : t.Lawful := by
  cases hw with
  | putSlot target guarded put =>
      obtain ⟨hn, -, ho, slots, hrows, rfl⟩ := putSlot_eq_ok.1 put
      refine { h with owner := fun x hx => ?_, seqno := fun x hx => ?_ }
      · rcases List.mem_append.1 (hrows ▸ hx) with hx | hx
        · exact h.owner x hx
        · exact List.mem_singleton.1 hx ▸ ho
      · rcases List.mem_append.1 (hrows ▸ hx) with hx | hx
        · exact h.seqno x hx
        · exact List.mem_singleton.1 hx ▸ hn
  | @placeSlot x f hf found owned numbered target guarded =>
      have hplaced : ∀ y, s.slot? x.id = some y → y = x := fun y hy =>
        Table.eq_of_key_eq (slot?_eq_some.1 hy).1 found (slot?_eq_some.1 hy).2
      refine { h with owner := fun y hy => ?_, seqno := fun y hy => ?_ }
      · rcases mem_editSlot.1 hy with ⟨hy, -⟩ | ⟨z, hz, rfl⟩
        · exact h.owner y hy
        · exact hplaced z hz ▸ owned
      · rcases mem_editSlot.1 hy with ⟨hy, -⟩ | ⟨z, hz, rfl⟩
        · exact h.seqno y hy
        · exact hplaced z hz ▸ numbered
  | relabel f hf owner item numbered =>
      refine { h with owner := fun y hy => ?_, seqno := fun y hy => ?_ }
      · obtain ⟨x, hx, rfl⟩ := List.mem_map.1 hy
        rw [owner]
        exact h.owner x hx
      · obtain ⟨x, hx, rfl⟩ := List.mem_map.1 hy
        exact numbered x (h.seqno x hx)
  | dropSlots p =>
      exact { h with
        owner := fun x hx => h.owner x (List.mem_filter.1 hx).1
        seqno := fun x hx => h.seqno x (List.mem_filter.1 hx).1 }
  | putCollection put => exact h.putCollection put
  | editCollections f hf kind counted =>
      have hhas : ∀ id, Store.hasCollection { s with collections := s.collections.update f hf } id =
          s.hasCollection id := Table.has_update _ f hf
      refine { h with
        owner := fun x hx => (hhas _).trans (h.owner x hx)
        link := fun a ha d hd => (hhas _).trans (h.link a ha d hd)
        count := fun d hd => ?_ }
      obtain ⟨c, hc, rfl⟩ := List.mem_map.1 hd
      exact counted c hc (h.count c hc)
  | @dropCollection id alone => exact h.dropCollection id
  | putManifestation put =>
      obtain ⟨-, -, manifestations, hrows, rfl⟩ := putManifestation_eq_ok.1 put
      exact { h with credit := fun i hi =>
        ⟨(h.credit i hi).1, Table.has_of_append hrows (h.credit i hi).2⟩ }
  | editManifestation id f hf =>
      have hhas : ∀ m, (s.editManifestation id f hf).hasManifestation m = s.hasManifestation m :=
        Table.has_modify s.manifestations f hf id
      exact { h with credit := fun i hi =>
        ⟨(h.credit i hi).1, (hhas _).trans (h.credit i hi).2⟩ }
  | dropManifestation id =>
      refine { h with credit := fun i hi => ?_ }
      obtain ⟨hi, hne⟩ := List.mem_filter.1 hi
      obtain ⟨ha, hm⟩ := h.credit i hi
      obtain ⟨m, hm, e⟩ := hasManifestation_iff.1 hm
      refine ⟨ha, hasManifestation_iff.2 ⟨m, List.mem_filter.2 ⟨hm, ?_⟩, e⟩⟩
      rw [e]
      exact hne
  | putAuthority put => exact h.putAuthority put
  | editAuthority id f hf linked =>
      have hold : ∀ a : Authority, (if a.id = id then f a else a).uncollected = a.uncollected := by
        intro a
        split
        · exact linked a
        · rfl
      refine h.update_authorities _ (fun a ha c hc => ?_) fun a ha b hb c hac hbc => ?_
      · exact h.link a ha c (hold a ▸ hc)
      · exact h.linkUnique a ha b hb c (hold a ▸ hac) (hold b ▸ hbc)
  | setLink uncollected set => exact h.setLink set
  | dropAuthority id =>
      refine { h with
        link := fun a ha => h.link a (List.mem_filter.1 ha).1
        linkUnique := fun a ha b hb =>
          h.linkUnique a (List.mem_filter.1 ha).1 b (List.mem_filter.1 hb).1
        credit := fun i hi => ?_ }
      obtain ⟨hi, hne⟩ := List.mem_filter.1 hi
      obtain ⟨⟨a, ha, e⟩, hm⟩ := h.credit i hi
      refine ⟨⟨a, List.mem_filter.2 ⟨ha, ?_⟩, e⟩, hm⟩
      rw [e]
      exact hne
  | putInvolvement put =>
      rcases putInvolvement_eq_ok put with rfl | ⟨ha, hm, involvements, hrows, rfl⟩
      · exact h
      · refine { h with credit := fun i hi => ?_ }
        rcases List.mem_append.1 (hrows ▸ hi) with hi | hi
        · exact h.credit i hi
        · rw [List.mem_singleton.1 hi]
          exact ⟨isSome_authority?_iff.1 ha, hm⟩
  | dropInvolvements p =>
      exact { h with credit := fun i hi => h.credit i (List.mem_filter.1 hi).1 }

theorem Writes.lawful (hw : Writes s t) (h : s.Lawful) : t.Lawful := by
  induction hw with
  | refl => exact h
  | tail _ hw ih => exact hw.lawful ih

/-! ### Containment stays without cycles -/

/-- The store `t` has at most one reference that `s` has not, from `o` to `r`, and the guard of `s`
lets that one pass. -/
def OneGuarded (s t : Store) : Prop :=
  ∃ (o : Id) (r : ItemRef), (∀ d, r = .collection d → ¬ s.Contains d o) ∧
    ∀ c d, d ∈ t.childrenOf c → d ∈ s.childrenOf c ∨ c = o ∧ r = .collection d

/-- Where no slot is written, or slots only go, the empty reference stands for the one. -/
theorem OneGuarded.of_slots
    (hold : ∀ x ∈ t.slots.rows, ∃ y ∈ s.slots.rows, y.owner = x.owner ∧ y.item = x.item) :
    s.OneGuarded t := by
  refine ⟨"", .empty, fun _ h => (nomatch h), fun c d hd => .inl ?_⟩
  obtain ⟨x, hx, ho, hr⟩ := mem_childrenOf.1 hd
  obtain ⟨y, hy, ho', hr'⟩ := hold x hx
  exact mem_childrenOf.2 ⟨y, hy, ho'.trans ho, hr'.trans hr⟩

theorem OneGuarded.of_eq (h : t.slots = s.slots) : s.OneGuarded t :=
  .of_slots fun x hx => ⟨x, h ▸ hx, rfl, rfl⟩

theorem Write.oneGuarded (hw : Write s t) : s.OneGuarded t := by
  cases hw with
  | @putSlot _ x target guarded put =>
      obtain ⟨-, -, -, slots, hrows, rfl⟩ := putSlot_eq_ok.1 put
      refine ⟨x.owner, x.item, guard_eq_ok.1 guarded, fun c d hd => ?_⟩
      obtain ⟨y, hy, ho, hr⟩ := mem_childrenOf.1 hd
      rcases List.mem_append.1 (hrows ▸ hy) with hy | hy
      · exact .inl (mem_childrenOf.2 ⟨y, hy, ho, hr⟩)
      · cases List.mem_singleton.1 hy
        exact .inr ⟨ho.symm, hr⟩
  | @placeSlot x f hf found owned numbered target guarded =>
      refine ⟨(f x).owner, (f x).item, guard_eq_ok.1 guarded, fun c d hd => ?_⟩
      obtain ⟨y, hy, ho, hr⟩ := mem_childrenOf.1 hd
      rcases mem_editSlot.1 hy with ⟨hy, -⟩ | ⟨z, hz, rfl⟩
      · exact .inl (mem_childrenOf.2 ⟨y, hy, ho, hr⟩)
      · obtain ⟨hz, hid⟩ := slot?_eq_some.1 hz
        cases Table.eq_of_key_eq hz found hid
        exact .inr ⟨ho.symm, hr⟩
  | relabel f hf owner item numbered =>
      refine .of_slots fun x hx => ?_
      obtain ⟨y, hy, rfl⟩ := List.mem_map.1 hx
      exact ⟨y, hy, (owner y).symm, (item y).symm⟩
  | dropSlots p => exact .of_slots fun x hx => ⟨x, (List.mem_filter.1 hx).1, rfl, rfl⟩
  | dropCollection alone => exact .of_slots fun x hx => ⟨x, (List.mem_filter.1 hx).1, rfl, rfl⟩
  | putCollection put =>
      obtain ⟨_, _, _, _, rfl⟩ := putCollection_eq_ok.1 put
      exact .of_eq rfl
  | putManifestation put =>
      obtain ⟨_, _, _, _, rfl⟩ := putManifestation_eq_ok.1 put
      exact .of_eq rfl
  | putAuthority put =>
      obtain ⟨_, _, _, _, _, rfl⟩ := putAuthority_eq_ok.1 put
      exact .of_eq rfl
  | putInvolvement put =>
      rcases putInvolvement_eq_ok put with rfl | ⟨_, _, _, _, rfl⟩ <;> exact .of_eq rfl
  | setLink uncollected set =>
      rcases setLink_eq_ok set with ⟨_, rfl⟩ | ⟨_, _, rfl⟩ <;> exact .of_eq rfl
  | editCollections | editManifestation | dropManifestation | editAuthority | dropAuthority
  | dropInvolvements => exact .of_eq rfl

/-- **Containment stays without cycles**, whatever is written. -/
theorem Writes.acyclic (hw : Writes s t) (h : s.Acyclic) : t.Acyclic := by
  induction hw with
  | refl => exact h
  | tail _ hw ih =>
      obtain ⟨o, r, hguard, hedges⟩ := hw.oneGuarded
      exact ih.of_edges hguard hedges

theorem Acyclic.of_slots (ha : s.Acyclic) (hslots : t.slots = s.slots) : t.Acyclic := by
  have hchildren : t.childrenOf = s.childrenOf := by
    funext c
    rw [childrenOf, childrenOf, slotsOf, slotsOf, hslots]
  intro c d hd hdc
  exact ha c d (hchildren ▸ hd) (hdc.mono fun _ _ h => hchildren ▸ h)

end Store

end Anthology
