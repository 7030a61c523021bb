/-
**Rewordings of a Json value.**

Whoever sends a record does not have to write it as this library does.  The fields of an object may
come in any order; fields that the record does not have may stand among them; an optional field that
is null may be left out.  Each of these may happen at any depth, and several of them at once.  A
reader that understands every rewording of what its writer writes is faithful, as long as it gives
nothing that its writer cannot write down again.

Main definitions:

* `Anthology.Json.Reworded` — one value is a rewording of another;
* `Anthology.Json.StandsAt` — what may stand in the place of a field;
* `Anthology.Codec.Faithful` — the reader undoes the writer on every value that fits.

Main results:

* `Anthology.Json.Reworded.fields` — what stands under the names of a reworded object;
* `Anthology.Codec.Lawful.get`, `Anthology.Codec.Lawful.get?` — a field is read from it;
* `Anthology.Codec.Lawful.of_record` — a record is read back when its fields are;
* `Anthology.Codec.Faithful.list` — a list of values is read back when each of them is.
-/

import Anthology.Json
import Mathlib.Data.Int.Notation
import Mathlib.Data.List.Forall2

set_option relaxedAutoImplicit false
set_option autoImplicit false

namespace Anthology

/-! ### Rewordings -/

namespace Fields

/-- No field of the record that was written has the name.  An empty reference has an id, though it
does not write it. -/
def Unknown (fs : Fields) (key : String) : Prop :=
  key ∉ fs.map Prod.fst ∧ (fs = [("type", .string "Empty")] → key ≠ "id")

/-- The fields with their values exchanged, of which those that were null may be missing. -/
inductive Kept (R : Json → Json → Prop) : Fields → Fields → Prop where
  | nil : Kept R [] []
  | keep {v w : Json} {fs gs : Fields} (key : String) :
      R v w → Kept R fs gs → Kept R ((key, v) :: fs) ((key, w) :: gs)
  | drop {fs gs : Fields} (key : String) : Kept R fs gs → Kept R ((key, .null) :: fs) gs

variable {R : Json → Json → Prop} {fs gs : Fields} {key : String} {v w : Json}

theorem Kept.refl (hR : ∀ j, R j j) (fs : Fields) : Kept R fs fs := by
  induction fs with
  | nil => exact .nil
  | cons f fs ih => exact .keep f.1 (hR f.2) ih

theorem Kept.key_mem (h : Kept R fs gs) (hw : (key, w) ∈ gs) : key ∈ fs.map Prod.fst := by
  induction h with
  | nil => cases hw
  | keep k _ _ ih =>
    rw [List.map_cons, List.mem_cons]
    rcases List.mem_cons.mp hw with heq | hw
    · exact .inl (congrArg Prod.fst heq)
    · exact .inr (ih hw)
  | drop k _ ih => exact List.mem_cons_of_mem _ (ih hw)

/-- Under each name there is one value that was exchanged, or none where it was null. -/
theorem Kept.find (h : Kept R fs gs) (hfs : (fs.map Prod.fst).Nodup) (hv : (key, v) ∈ fs) :
    (∃ w, R v w ∧ (key, w) ∈ gs ∧ ∀ w', (key, w') ∈ gs → w' = w) ∨
      (v = .null ∧ ∀ w', (key, w') ∉ gs) := by
  induction h with
  | nil => cases hv
  | @keep v₁ w₁ fs gs k hR hkept ih =>
    obtain ⟨hk, hfs⟩ := List.nodup_cons.mp hfs
    rcases List.mem_cons.mp hv with heq | hrest
    · cases heq
      refine .inl ⟨w₁, hR, List.mem_cons_self, ?_⟩
      intro w' hw'
      rcases List.mem_cons.mp hw' with heq | hw'
      · exact congrArg Prod.snd heq
      · exact absurd (hkept.key_mem hw') hk
    · have hne : key ≠ k := by
        rintro rfl
        exact hk (List.mem_map.mpr ⟨_, hrest, rfl⟩)
      have hpast : ∀ w', (key, w') ∈ (k, w₁) :: gs ↔ (key, w') ∈ gs := by simp [hne]
      simpa only [hpast] using ih hfs hrest
  | @drop fs gs k hkept ih =>
    obtain ⟨hk, hfs⟩ := List.nodup_cons.mp hfs
    rcases List.mem_cons.mp hv with heq | hrest
    · cases heq
      exact .inr ⟨rfl, fun w' hw' => hk (hkept.key_mem hw')⟩
    · exact ih hfs hrest

theorem lookup_of_unique (hw : (key, w) ∈ fs) (hunique : ∀ w', (key, w') ∈ fs → w' = w) :
    fs.lookup key = some w := by
  induction fs with
  | nil => cases hw
  | cons f fs ih =>
    rw [List.lookup_cons]
    by_cases hkey : key = f.1
    · subst hkey
      simp [hunique f.2 List.mem_cons_self]
    · have hpast : ∀ w', (key, w') ∈ f :: fs ↔ (key, w') ∈ fs := by
        intro w'
        rw [List.mem_cons, or_iff_right]
        rintro rfl
        exact hkey rfl
      rw [beq_false_of_ne hkey]
      exact ih ((hpast w).mp hw) fun w' hw' => hunique w' ((hpast w').mpr hw')

theorem lookup_of_absent (h : ∀ w, (key, w) ∉ fs) : fs.lookup key = none := by
  rw [List.lookup_eq_none_iff]
  rintro ⟨k, w⟩ hw
  rw [bne_iff_ne]
  rintro rfl
  exact h w hw

end Fields

namespace Json

/-- The second value says the same as the first: the fields of objects may have changed their
order, fields of unknown names may have come in, and fields that were null may have gone. -/
inductive Reworded : Json → Json → Prop where
  | same (j : Json) : Reworded j j
  | array {xs ys : List Json} : List.Forall₂ Reworded xs ys → Reworded (.array xs) (.array ys)
  | object {fs kept others gs : Fields} : Fields.Kept Reworded fs kept →
      (∀ f ∈ others, fs.Unknown f.1) → gs.Perm (kept ++ others) →
      Reworded (.object fs) (.object gs)

/-- What may stand in the place of a value: a rewording, or nothing in the place of null. -/
inductive StandsAt (v : Json) : Option Json → Prop where
  | found {w : Json} : v.Reworded w → StandsAt v (some w)
  | missing : v = .null → StandsAt v none

variable {fs : Fields} {xs : List Json} {j k : Json} {s : String}

/-- A value without parts has no other rewording. -/
theorem Reworded.eq_of_leaf (h : j.Reworded k) (hitems : j.array? = none)
    (hfields : j.fields? = none) : k = j := by
  cases h with
  | same => rfl
  | array => cases hitems
  | object => cases hfields

/-- Nothing but null is reworded as null. -/
theorem Reworded.eq_null (h : j.Reworded null) : j = null := by
  cases h
  rfl

theorem Reworded.items (h : (Json.array xs).Reworded j) :
    ∃ ys, j = .array ys ∧ List.Forall₂ Reworded xs ys := by
  cases h with
  | same => exact ⟨xs, rfl, List.forall₂_same.mpr fun x _ => .same x⟩
  | array hxs => exact ⟨_, rfl, hxs⟩

/-- Under the name of a field stands what may stand in its place, and the empty reference comes
without an id. -/
theorem Reworded.fields (h : (Json.object fs).Reworded j) (hfs : (fs.map Prod.fst).Nodup) :
    ∃ gs : Fields, j = .object gs ∧ (fs.Forall fun f => f.2.StandsAt (gs.lookup f.1)) ∧
      (fs = [("type", .string "Empty")] → gs.lookup "id" = none) := by
  have hkept : ∃ kept others gs : Fields, j = .object gs ∧ fs.Kept Reworded kept ∧
      (∀ f ∈ others, fs.Unknown f.1) ∧ gs.Perm (kept ++ others) := by
    cases h with
    | same => exact ⟨fs, [], fs, rfl, .refl .same fs, by simp, by simp⟩
    | object hkept hothers hgs => exact ⟨_, _, _, rfl, hkept, hothers, hgs⟩
  obtain ⟨kept, others, gs, rfl, hkept, hothers, hgs⟩ := hkept
  have hmem : ∀ k w, ¬ fs.Unknown k → ((k, w) ∈ gs ↔ (k, w) ∈ kept) := by
    intro k w hk
    rw [hgs.mem_iff, List.mem_append, or_iff_left]
    intro hw
    exact hk (hothers _ hw)
  refine ⟨gs, rfl, ?_, ?_⟩
  · rw [List.forall_iff_forall_mem]
    rintro ⟨k, v⟩ hv
    have hk : ¬ fs.Unknown k := fun hk => hk.1 (List.mem_map_of_mem hv)
    rcases hkept.find hfs hv with ⟨w, hR, hw, hunique⟩ | ⟨hnull, habsent⟩
    · have hfound : gs.lookup k = some w :=
        Fields.lookup_of_unique ((hmem k w hk).mpr hw) fun w' hw' =>
          hunique w' ((hmem k w' hk).mp hw')
      rw [hfound]
      exact .found hR
    · have hnone : gs.lookup k = none :=
        Fields.lookup_of_absent fun w' hw' => habsent w' ((hmem k w' hk).mp hw')
      rw [hnone]
      exact .missing hnull
  · intro hempty
    have hk : ¬ fs.Unknown "id" := fun hk => hk.2 hempty rfl
    apply Fields.lookup_of_absent
    intro w hw
    have hid := hkept.key_mem ((hmem "id" w hk).mp hw)
    simp [hempty] at hid

/-- A value that is not null cannot be left out. -/
theorem StandsAt.exists_of_ne_null {v : Json} {o : Option Json} (h : v.StandsAt o)
    (hv : v ≠ null) : ∃ w, o = some w ∧ v.Reworded w := by
  cases h with
  | found hw => exact ⟨_, rfl, hw⟩
  | missing hnull => exact absurd hnull hv

theorem StandsAt.string {o : Option Json} (h : (Json.string s).StandsAt o) :
    o = some (.string s) := by
  obtain ⟨w, rfl, hw⟩ := h.exists_of_ne_null nofun
  rw [hw.eq_of_leaf rfl rfl]

end Json

/-! ### Faithful codecs -/

namespace Codec

open Json (Reworded StandsAt)

variable {α : Type} {c : Codec α} {fits : α → Prop}

/-- Every rewording of what is written of a value that fits is read back, and whatever is read
fits, so that it can be written and read again. -/
structure Faithful (c : Codec α) (fits : α → Prop) : Prop where
  reads : ∀ a, fits a → ∀ j, (c.encode a).Reworded j → c.decode j = some a
  settles : ∀ j a, c.decode j = some a → fits a ∧ c.decode (c.encode a) = some a

/-- A faithful codec that never writes null: a value can be told from a missing one. -/
structure Lawful (c : Codec α) (fits : α → Prop) : Prop extends c.Faithful fits where
  ne_null : ∀ a, c.encode a ≠ .null

/-- What is read settles when it fits. -/
theorem Faithful.of_fits (hreads : ∀ a, fits a → ∀ j, (c.encode a).Reworded j → c.decode j = some a)
    (hfits : ∀ j a, c.decode j = some a → fits a) : c.Faithful fits where
  reads := hreads
  settles j a h := ⟨hfits j a h, hreads a (hfits j a h) _ (.same _)⟩

/-- The law of a codec that writes objects. -/
theorem Lawful.of_object (hobject : ∀ a, (c.encode a).isObject)
    (hreads : ∀ a, fits a → ∀ j, (c.encode a).Reworded j → c.decode j = some a)
    (hfits : ∀ j a, c.decode j = some a → fits a) : c.Lawful fits where
  toFaithful := .of_fits hreads hfits
  ne_null a h := by
    have hnull := hobject a
    rw [h] at hnull
    cases hnull

/-- The law of the codec of a record, which is read by the names that it is written with. -/
theorem Lawful.of_record {keys : List String} {write : α → Fields} {read : Fields → Option α}
    (hwrite : ∀ a, (write a).map Prod.fst = keys) (hkeys : keys.Nodup)
    (hreads : ∀ a, fits a → ∀ gs : Fields,
      ((write a).Forall fun f => f.2.StandsAt (gs.lookup f.1)) → read gs = some a)
    (hfits : ∀ gs a, read gs = some a → fits a) :
    Lawful ⟨fun a => .object (write a), fun j => j.record? keys >>= read⟩ fits := by
  refine .of_object (fun _ => rfl) ?_ ?_
  · intro a ha j h
    obtain ⟨gs, rfl, hgs, -⟩ := h.fields ((hwrite a).symm ▸ hkeys)
    exact hreads a ha gs hgs
  · intro j a h
    obtain ⟨gs, -, hread⟩ := Option.bind_eq_some_iff.mp h
    exact hfits gs a hread

/-! #### Fields -/

section Get

variable {gs : Fields} {key : String} {a : α} {x : Option α}

theorem Lawful.get (hc : c.Lawful fits) (ha : fits a)
    (h : (c.encode a).StandsAt (gs.lookup key)) : gs.get key c = some a := by
  obtain ⟨w, hlookup, hw⟩ := h.exists_of_ne_null (hc.ne_null a)
  rw [Fields.get, hlookup]
  exact hc.reads a ha w hw

/-- A value that is written as something other than null is not taken for none. -/
theorem Lawful.optional_decode (hc : c.Lawful fits) (ha : fits a) {w : Json}
    (hw : (c.encode a).Reworded w) : c.optional.decode w = some (some a) := by
  have hread := hc.reads a ha w hw
  cases w with
  | null => exact absurd hw.eq_null (hc.ne_null a)
  | _ => exact congrArg (Option.map some) hread

theorem Lawful.get? (hc : c.Lawful fits) (hx : ∀ a ∈ x, fits a)
    (h : (c.optional.encode x).StandsAt (gs.lookup key)) : gs.get? key c = some x := by
  rw [Fields.get?]
  cases x with
  | none =>
    generalize gs.lookup key = o at h ⊢
    cases h with
    | found hw => rw [hw.eq_of_leaf rfl rfl]; rfl
    | missing => rfl
  | some a =>
    obtain ⟨w, hlookup, hw⟩ := h.exists_of_ne_null (hc.ne_null a)
    rw [hlookup]
    exact hc.optional_decode (hx a rfl) hw

theorem Faithful.fits_of_get (hc : c.Faithful fits) (h : gs.get key c = some a) : fits a := by
  obtain ⟨j, -, hj⟩ := Option.bind_eq_some_iff.mp h
  exact (hc.settles j a hj).1

end Get

/-! #### Simple values -/

theorem lawful_text : text.Lawful fun _ => True where
  toFaithful := by
    refine .of_fits ?_ fun _ _ _ => trivial
    intro s _ j h
    rw [h.eq_of_leaf rfl rfl]
    rfl
  ne_null _ := nofun

theorem lawful_flag : flag.Lawful fun _ => True where
  toFaithful := by
    refine .of_fits ?_ fun _ _ _ => trivial
    intro b _ j h
    rw [h.eq_of_leaf rfl rfl]
    rfl
  ne_null _ := nofun

theorem lawful_signed (bits : ℕ) : (signed bits).Lawful fun n => Word.fitsSigned bits n where
  toFaithful := by
    apply Faithful.of_fits
    · intro n hn j h
      rw [h.eq_of_leaf rfl rfl]
      exact if_pos hn
    · intro j n h
      cases j with
      | number m =>
        simp only [signed, Option.ite_none_right_eq_some, Option.some.injEq] at h
        exact h.2 ▸ h.1
      | _ => cases h
  ne_null _ := nofun

theorem lawful_word : word.Lawful fun _ => True where
  toFaithful := by
    refine .of_fits ?_ fun _ _ _ => trivial
    intro n _ j h
    have hread := (lawful_signed 64).reads n.toInt (Word.fitsSigned_toInt n) j h
    simp only [word, hread, Option.map_some, Int64.ofInt_toInt]
  ne_null _ := nofun

theorem lawful_unsigned (bits : ℕ) :
    (unsigned bits).Lawful fun n => Word.fitsUnsigned bits n where
  toFaithful := by
    apply Faithful.of_fits
    · intro n hn j h
      rw [h.eq_of_leaf rfl rfl]
      exact if_pos hn
    · intro j n h
      cases j with
      | number m =>
        simp only [unsigned, Option.ite_none_right_eq_some, Option.some.injEq] at h
        obtain ⟨hm, rfl⟩ := h
        have hpos : 0 ≤ m := by
          simp only [Word.fitsUnsigned, Bool.and_eq_true, decide_eq_true_eq] at hm
          exact hm.1
        rwa [Int.toNat_of_nonneg hpos]
      | _ => cases h
  ne_null _ := nofun

/-- The members of a closed set are told apart by their names. -/
theorem lawful_named {members : List α} {name : α → String} (hmem : ∀ a, a ∈ members)
    (hname : ∀ a b, name a = name b → a = b) : (named members name).Lawful fun _ => True where
  toFaithful := by
    refine .of_fits ?_ fun _ _ _ => trivial
    intro a _ j h
    rw [h.eq_of_leaf rfl rfl]
    show members.find? (fun b => name b == name a) = some a
    have hfound : (members.find? fun b => name b == name a).isSome := by
      rw [List.find?_isSome]
      exact ⟨a, hmem a, beq_self_eq_true _⟩
    obtain ⟨b, hb⟩ := Option.isSome_iff_exists.mp hfound
    rw [hb, hname b a (beq_iff_eq.mp (List.find?_some (p := fun b => name b == name a) hb))]
  ne_null _ := nofun

/-! #### Lists -/

theorem mapM_decode (hc : c.Faithful fits) {as : List α} (has : ∀ a ∈ as, fits a) {js : List Json}
    (h : List.Forall₂ Reworded (as.map c.encode) js) : js.mapM c.decode = some as := by
  induction as generalizing js with
  | nil =>
    cases h
    rfl
  | cons a as ih =>
    obtain ⟨j, js, hj, hjs, rfl⟩ := List.forall₂_cons_left_iff.mp h
    rw [List.mapM_cons, hc.reads a (has a List.mem_cons_self) j hj,
      ih (fun b hb => has b (List.mem_cons_of_mem a hb)) hjs]
    rfl

theorem fits_of_mapM (hc : c.Faithful fits) {as : List α} {js : List Json}
    (h : js.mapM c.decode = some as) : ∀ a ∈ as, fits a := by
  induction js generalizing as with
  | nil =>
    cases h
    simp
  | cons j js ih =>
    rw [List.mapM_cons] at h
    obtain ⟨a, ha, h⟩ := Option.bind_eq_some_iff.mp h
    obtain ⟨bs, hbs, h⟩ := Option.bind_eq_some_iff.mp h
    cases h
    rw [List.forall_mem_cons]
    exact ⟨(hc.settles j a ha).1, ih hbs⟩

theorem Faithful.list (hc : c.Faithful fits) : c.list.Lawful fun as => ∀ a ∈ as, fits a where
  toFaithful := by
    apply Faithful.of_fits
    · intro as has j h
      obtain ⟨js, rfl, hjs⟩ := h.items
      exact mapM_decode hc has hjs
    · intro j as h
      obtain ⟨js, -, hjs⟩ := Option.bind_eq_some_iff.mp h
      exact fits_of_mapM hc hjs
  ne_null _ := nofun

end Codec

/-! ### Reading a field -/

namespace Json.StandsAt

open Codec (lawful_text lawful_flag lawful_signed lawful_unsigned)

variable {gs : Fields} {key : String}

theorem text {s : String} (h : (Json.string s).StandsAt (gs.lookup key)) :
    gs.get key .text = some s :=
  lawful_text.get trivial h

theorem text? {x : Option String} (h : (Codec.text.optional.encode x).StandsAt (gs.lookup key)) :
    gs.get? key .text = some x :=
  lawful_text.get? (fun _ _ => trivial) h

theorem flag {b : Bool} (h : (Json.bool b).StandsAt (gs.lookup key)) :
    gs.get key .flag = some b :=
  lawful_flag.get trivial h

theorem signed {bits : ℕ} {n : ℤ} (h : (Json.number n).StandsAt (gs.lookup key))
    (hn : Word.fitsSigned bits n) : gs.get key (.signed bits) = some n :=
  (lawful_signed bits).get hn h

theorem unsigned {bits n : ℕ} (h : (Json.number n).StandsAt (gs.lookup key))
    (hn : Word.fitsUnsigned bits n) : gs.get key (.unsigned bits) = some n :=
  (lawful_unsigned bits).get hn h

end Json.StandsAt

end Anthology
