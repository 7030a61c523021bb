/-
**Tables.**

A table is a list of rows in which no two rows have the same key.  That keys are unique is part of
the type, so every way to change a table has to keep it: a row comes in only under a new key, rows
are replaced only by rows with the same key, and any rows may go.

Main definitions:

* `Anthology.Keyed` — the key of a row;
* `Anthology.Table` — rows with distinct keys;
* `Anthology.Table.find?`, `Anthology.Table.insert?`, `Anthology.Table.update`,
  `Anthology.Table.modify`, `Anthology.Table.keep` — reading and changing a table.

Main results:

* `Anthology.Table.find?_eq_some_iff` — a look-up finds exactly the row with the key;
* `Anthology.Table.insert?_eq_some_iff` — a row comes in exactly when its key is new, at the end.
-/

set_option relaxedAutoImplicit false
set_option autoImplicit false

namespace Anthology

/-- Rows that are found by a key. -/
class Keyed (α : Type) (κ : outParam Type) where
  key : α → κ

/-- Rows with distinct keys. -/
structure Table (α : Type) {κ : Type} [Keyed α κ] where
  rows : List α
  nodup : (rows.map Keyed.key).Nodup

namespace Table

variable {α κ : Type} [Keyed α κ]

theorem ext {t u : Table α} (h : t.rows = u.rows) : t = u := by
  cases t
  cases u
  cases h
  rfl

/-- The table without rows. -/
def empty : Table α := ⟨[], List.nodup_nil⟩

instance : Inhabited (Table α) := ⟨empty⟩

@[simp] theorem rows_empty : (empty : Table α).rows = [] := rfl

def size (t : Table α) : Nat := t.rows.length

/-! ### Reading -/

variable [DecidableEq κ]

/-- The row with a given key. -/
def find? (t : Table α) (k : κ) : Option α := t.rows.find? fun a => decide (Keyed.key a = k)

/-- Whether there is a row with a given key. -/
def has (t : Table α) (k : κ) : Bool := t.rows.any fun a => decide (Keyed.key a = k)

omit [DecidableEq κ] in
theorem eq_of_key_eq {t : Table α} {a b : α} (ha : a ∈ t.rows) (hb : b ∈ t.rows)
    (h : Keyed.key a = Keyed.key b) : a = b := by
  have : ∀ {l : List α}, (l.map Keyed.key).Nodup → a ∈ l → b ∈ l → a = b := by
    intro l hl ha hb
    induction l with
    | nil => simp at ha
    | cons c l ih =>
      simp only [List.map_cons, List.nodup_cons, List.mem_map, not_exists, not_and] at hl
      rcases List.mem_cons.1 ha with rfl | ha'
      · rcases List.mem_cons.1 hb with rfl | hb'
        · rfl
        · exact absurd h.symm (hl.1 b hb')
      · rcases List.mem_cons.1 hb with rfl | hb'
        · exact absurd h (hl.1 a ha')
        · exact ih hl.2 ha' hb'
  exact this t.nodup ha hb

theorem find?_eq_some_iff {t : Table α} {k : κ} {a : α} :
    t.find? k = some a ↔ a ∈ t.rows ∧ Keyed.key a = k := by
  constructor
  · intro h
    exact ⟨List.mem_of_find?_eq_some h, by simpa using List.find?_some h⟩
  · rintro ⟨ha, rfl⟩
    cases hf : t.find? (Keyed.key a) with
    | none =>
      have := List.find?_eq_none.1 hf a ha
      simp at this
    | some b =>
      have hb : Keyed.key b = Keyed.key a := by simpa using List.find?_some hf
      rw [eq_of_key_eq (List.mem_of_find?_eq_some hf) ha hb]

theorem has_iff {t : Table α} {k : κ} : t.has k = true ↔ ∃ a ∈ t.rows, Keyed.key a = k := by
  simp [has]

theorem has_iff_find? {t : Table α} {k : κ} : t.has k = true ↔ ∃ a, t.find? k = some a := by
  rw [has_iff]
  constructor
  · rintro ⟨a, ha, hk⟩
    exact ⟨a, find?_eq_some_iff.2 ⟨ha, hk⟩⟩
  · rintro ⟨a, ha⟩
    exact ⟨a, find?_eq_some_iff.1 ha⟩

/-! ### Changing -/

/-- The table with one more row at the end, if the key of that row is new. -/
def insert? (t : Table α) (a : α) : Option (Table α) :=
  if h : t.has (Keyed.key a) = true then none
  else some ⟨t.rows ++ [a], by
    rw [List.map_append, List.nodup_append]
    refine ⟨t.nodup, by simp, ?_⟩
    intro k hk l hl e
    obtain ⟨b, hb, rfl⟩ := List.mem_map.1 hk
    simp only [List.map_cons, List.map_nil, List.mem_singleton] at hl
    exact h (has_iff.2 ⟨b, hb, e.trans hl⟩)⟩

theorem insert?_eq_some_iff {t u : Table α} {a : α} :
    t.insert? a = some u ↔ t.has (Keyed.key a) = false ∧ u.rows = t.rows ++ [a] := by
  unfold insert?
  split
  · rename_i h
    simp [h]
  · rename_i h
    simp only [Option.some.injEq, h, true_and]
    exact ⟨fun e => e ▸ rfl, fun e => (ext e).symm⟩

omit [DecidableEq κ] in
/-- The table with every row replaced by one with the same key. -/
def update (t : Table α) (f : α → α) (hf : ∀ a, Keyed.key (f a) = Keyed.key a) : Table α :=
  ⟨t.rows.map f, by
    have : (t.rows.map f).map Keyed.key = t.rows.map Keyed.key := by
      rw [List.map_map]
      exact List.map_congr_left fun a _ => hf a
    rw [this]
    exact t.nodup⟩

omit [DecidableEq κ] in
@[simp] theorem rows_update (t : Table α) (f : α → α) (hf : ∀ a, Keyed.key (f a) = Keyed.key a) :
    (t.update f hf).rows = t.rows.map f := rfl

/-- The table with the row under a given key replaced by one with the same key. -/
def modify (t : Table α) (k : κ) (f : α → α) (hf : ∀ a, Keyed.key (f a) = Keyed.key a) : Table α :=
  t.update (fun a => if Keyed.key a = k then f a else a) fun a => by
    split
    · exact hf a
    · rfl

@[simp] theorem rows_modify (t : Table α) (k : κ) (f : α → α)
    (hf : ∀ a, Keyed.key (f a) = Keyed.key a) :
    (t.modify k f hf).rows = t.rows.map fun a => if Keyed.key a = k then f a else a := rfl

omit [DecidableEq κ] in
/-- The table of the rows that pass a test. -/
def keep (t : Table α) (p : α → Bool) : Table α :=
  ⟨t.rows.filter p, List.Pairwise.sublist (List.Sublist.map _ List.filter_sublist) t.nodup⟩

omit [DecidableEq κ] in
@[simp] theorem rows_keep (t : Table α) (p : α → Bool) : (t.keep p).rows = t.rows.filter p := rfl

end Table

end Anthology
