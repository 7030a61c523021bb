/-
**Paging loses nothing and repeats nothing.**

A page is cut out of a listing by an offset and a limit, and the number of pages and whether there
is a next one are computed from the number of records, apart from that.  The offset is a product
that stops at the largest word.  Where a listing is shorter than that, an offset that stops lies
behind it, as the product would; so each page is the window of its place, windows side by side make
up the listing, and the number of pages counts those that are not empty.

The listing itself is in order by the bytes of titles and ids, and no two of its records have the
same id, so there is no other way to page through it.

Main definitions:

* `Anthology.Page.everything` — the records of all pages one after the other;
* `Anthology.Page.Through` — pages that go through the given rows.

Main results:

* `Anthology.PageRequest.cut_items`, `Anthology.PageRequest.cut_totalPages` — a page is a window,
  and how many there are;
* `Anthology.PageRequest.through_cut` — pages go through a listing in order;
* `Anthology.Session.pages_through` — **paging loses nothing and repeats nothing**.
-/

import Anthology.Proofs.Bytes
import Anthology.Proofs.Completeness
import Anthology.Proofs.Totals

set_option relaxedAutoImplicit false
set_option autoImplicit false

namespace Anthology

variable {α : Type}

/-! ### Windows of a list -/

/-- Windows side by side make up the list as far as they go. -/
theorem flatMap_window (xs : List α) (size k : ℕ) :
    ((List.range k).flatMap fun p => (xs.drop (p * size)).take size) = xs.take (k * size) := by
  induction k with
  | zero => simp
  | succ k ih =>
      rw [List.range_succ, List.flatMap_append, ih, List.flatMap_singleton, Nat.succ_mul,
        List.take_add]

/-! ### One page -/

namespace PageRequest

variable {r : PageRequest} {xs : List α} {p size : ℕ}

/-- **A page is the window of its place**, also where its offset stops at the largest word. -/
theorem cut_items (hxs : xs.length < Word.count 32) :
    (r.cut xs).items = (xs.drop (r.page * r.pageSize)).take r.pageSize := by
  show (xs.drop (min _ _)).take r.pageSize = _
  by_cases hstops : r.page * r.pageSize ≤ Word.count 32 - 1
  · rw [Nat.min_eq_left hstops]
  · rw [Nat.min_eq_right (by omega), List.drop_of_length_le (by omega),
      List.drop_of_length_le (by omega)]

/-- The number of pages fits into a word. -/
theorem cut_totalPages (hr : 0 < r.pageSize) (hxs : xs.length < Word.count 32) :
    (r.cut xs).totalPages = xs.length ⌈/⌉ r.pageSize := by
  have hfits : xs.length ≤ (Word.count 32 - 1) * r.pageSize :=
    Nat.le_trans (Nat.le_sub_one_of_lt hxs) (Nat.le_mul_of_pos_right _ hr)
  rw [cut, Page.totalPages_of hr, Nat.mod_eq_of_lt ((Page.ceilDiv_lt_iff hr).2 hfits)]

/-- The pages are those that begin before the end of the listing. -/
theorem lt_cut_totalPages_iff (hr : 0 < r.pageSize) (hxs : xs.length < Word.count 32) :
    p < (r.cut xs).totalPages ↔ p * r.pageSize < xs.length := by
  rw [cut_totalPages hr hxs, Page.lt_ceilDiv_iff hr]

/-- The pages that are not empty are those that are counted. -/
theorem cut_items_ne_nil_iff (hr : 0 < r.pageSize) (hxs : xs.length < Word.count 32) :
    (r.cut xs).items ≠ [] ↔ r.page < (r.cut xs).totalPages := by
  rw [lt_cut_totalPages_iff hr hxs, cut_items hxs, Ne, List.take_eq_nil_iff, List.drop_eq_nil_iff]
  omega

end PageRequest

/-! ### All pages -/

namespace Page

/-- The records of all pages that are counted, one after the other. -/
def everything (pages : ℕ → Page α) : List α :=
  (List.range (pages 0).totalPages).flatMap fun p => (pages p).items

/-- The pages go through the rows: each of the rows is on one of them, once, in the order of titles
and ids by their bytes. -/
structure Through (rows : List α) (title id : α → String) (pages : ℕ → Page α) : Prop where
  /-- Every page carries the number of rows. -/
  total : ∀ p, (pages p).total = rows.length
  /-- Every page carries the same number of pages. -/
  totalPages : ∀ p, (pages p).totalPages = (pages 0).totalPages
  complete : (everything pages).Perm rows
  ordered : (everything pages).Pairwise fun a b =>
    Text.utf8 (title a) < Text.utf8 (title b) ∨
      title a = title b ∧ Text.utf8 (id a) < Text.utf8 (id b)
  /-- Pages that are not counted are empty. -/
  beyond : ∀ p, (pages 0).totalPages ≤ p → (pages p).items = []
  /-- A page has a next one where that holds a record, as long as the number of that is a word. -/
  hasNext : ∀ p, p + 1 < Word.count 32 →
    ((pages p).hasNext = true ↔ (pages (p + 1)).items ≠ [])

end Page

namespace PageRequest

variable {rows xs : List α} {title id : α → String} {size : ℕ}

/-- **The pages of a listing in order go through its rows.** -/
theorem through_cut (hsize : 0 < size) (hrows : rows.length < Word.count 32) (hperm : xs.Perm rows)
    (hordered : xs.Pairwise fun a b => title a < title b ∨ title a = title b ∧ id a < id b) :
    Page.Through rows title id fun p => (⟨p, size⟩ : PageRequest).cut xs := by
  have hlength := hperm.length_eq
  have hxs : xs.length < Word.count 32 := hlength ▸ hrows
  have hend : xs.length ≤ ((⟨0, size⟩ : PageRequest).cut xs).totalPages * size :=
    not_lt.1 fun hlt => lt_irrefl _ ((lt_cut_totalPages_iff hsize hxs).2 hlt)
  have hall : Page.everything (fun p => (⟨p, size⟩ : PageRequest).cut xs) = xs := by
    simp only [Page.everything, cut_items hxs]
    rw [flatMap_window, List.take_of_length_le hend]
  have hcounted : ∀ p, ((⟨p, size⟩ : PageRequest).cut xs).items ≠ [] ↔
      p < ((⟨0, size⟩ : PageRequest).cut xs).totalPages :=
    fun p => cut_items_ne_nil_iff (r := ⟨p, size⟩) hsize hxs
  refine {
    total := fun _ => hlength
    totalPages := fun _ => rfl
    complete := hall.symm ▸ hperm
    ordered := ?ordered
    beyond := ?beyond
    hasNext := ?hasNext }
  case ordered =>
    rw [hall]
    refine hordered.imp ?_
    intro a b h
    rwa [Text.lt_iff_utf8_lt, Text.lt_iff_utf8_lt] at h
  case beyond =>
    intro p hp
    by_contra hne
    exact absurd ((hcounted p).1 hne) (not_lt.2 hp)
  case hasNext =>
    intro p _
    rw [hcounted]
    exact decide_eq_true_iff

end PageRequest

/-! ### Pages of collections and works -/

namespace Store

variable {s : Store}

/-- The collections of a kind are listed each once, by title and id. -/
theorem ordered_collectionsOfKind (s : Store) (kind : CollectionKind) :
    (s.collectionsOfKind kind).Pairwise fun c d =>
      c.title < d.title ∨ c.title = d.title ∧ c.id < d.id := by
  have hsorted : (s.collectionsOfKind kind).Pairwise fun c d => c.rank < d.rank := by
    refine pairwise_mergeSort_lt (fun _ _ => Collection.precedes_iff) (nodup_rank (fun _ => rfl) ?_)
    exact s.collections.nodup.sublist (List.filter_sublist.map _)
  exact hsorted.imp Collection.rank_lt_iff.1

/-- The works are listed each once, by title and id. -/
theorem ordered_worksByTitle (s : Store) : s.worksByTitle.Pairwise fun m n =>
    m.title < n.title ∨ m.title = n.title ∧ m.id < n.id := by
  have hsorted : s.worksByTitle.Pairwise fun m n => m.rank < n.rank :=
    pairwise_mergeSort_lt (fun _ _ => Manifestation.precedes_iff)
      (nodup_rank (fun _ => rfl) s.manifestations.nodup)
  exact hsorted.imp Manifestation.rank_lt_iff.1

end Store

namespace Session

variable {n : Session} {size : ℕ}

/-- A session that is open answers what is read from its store. -/
theorem look_eq (hopen : n.closed = false) (f : Store → Reply) :
    n.look (fun s => .ok (f s)) = (.ok (f n.store), n) := by
  rw [look, read, readable, hopen]
  rfl

/-- **Paging loses nothing and repeats nothing.**  An open session with fewer than `2 ^ 32` rows
goes through all collections of a kind, and through all works, whatever the size of a page. -/
theorem pages_through [Arithmetic] (hopen : n.closed = false) (hsize : 0 < size)
    (hcollections : n.store.collections.size < Word.count 32)
    (hworks : n.store.manifestations.size < Word.count 32) :
    (∀ kind, ∃ pages : ℕ → Page Collection,
      (∀ p, n.answer (.listByKind kind ⟨p, size⟩) = (.ok (.collectionPage (pages p)), n)) ∧
        Page.Through (n.store.collections.rows.filter fun c => c.kind == kind)
          Collection.title Collection.id pages) ∧
    ∃ pages : ℕ → Page Manifestation,
      (∀ p, n.answer (.listManifestations ⟨p, size⟩) = (.ok (.manifestationPage (pages p)), n)) ∧
        Page.Through n.store.manifestations.rows Manifestation.title Manifestation.id pages := by
  constructor
  · intro kind
    have hrows : (n.store.collections.rows.filter fun c => c.kind == kind).length <
        Word.count 32 := Nat.lt_of_le_of_lt (List.length_filter_le _ _) hcollections
    exact ⟨fun p => (⟨p, size⟩ : PageRequest).cut (n.store.collectionsOfKind kind),
      fun p => look_eq hopen _,
      PageRequest.through_cut hsize hrows (List.mergeSort_perm _ _)
        (n.store.ordered_collectionsOfKind kind)⟩
  · exact ⟨fun p => (⟨p, size⟩ : PageRequest).cut n.store.worksByTitle, fun p => look_eq hopen _,
      PageRequest.through_cut hsize hworks (List.mergeSort_perm _ _)
        n.store.ordered_worksByTitle⟩

/-- Three collections, of which two have the same title, and two works, for examples. -/
def catalogued : List (Time × Request) := [
  (1, .createCollection (.titled "later" "Letters")),
  (2, .createCollection (.titled "early" "Letters")),
  (3, .createCollection (.titled "essays" "Essays")),
  (4, .createManifestation (.titled "work" "Work")),
  (5, .createManifestation (.titled "draft" "Draft"))]

theorem pages_through_catalogued :
    (∃ pages : ℕ → Page Collection,
      (∀ p, (trial.stepEach catalogued).answer (.listByKind .default ⟨p, 2⟩) =
        (.ok (.collectionPage (pages p)), trial.stepEach catalogued)) ∧
      Page.Through ((trial.stepEach catalogued).store.collections.rows.filter
        fun c => c.kind == .default) Collection.title Collection.id pages ∧
      (pages 0).total = 3) ∧
    ∃ pages : ℕ → Page Manifestation,
      (∀ p, (trial.stepEach catalogued).answer (.listManifestations ⟨p, 2⟩) =
        (.ok (.manifestationPage (pages p)), trial.stepEach catalogued)) ∧
      Page.Through (trial.stepEach catalogued).store.manifestations.rows Manifestation.title
        Manifestation.id pages ∧
      (pages 0).total = 2 := by
  have hopen : (trial.stepEach catalogued).closed = false := by decide +kernel
  have hcollections : (trial.stepEach catalogued).store.collections.size < Word.count 32 := by
    decide +kernel
  have hworks : (trial.stepEach catalogued).store.manifestations.size < Word.count 32 := by
    decide +kernel
  obtain ⟨hkinds, pages, hpages, hthrough⟩ :=
    pages_through hopen Nat.two_pos hcollections hworks
  obtain ⟨shelves, hshelves, hthrough'⟩ := hkinds .default
  refine ⟨⟨shelves, hshelves, hthrough', ?_⟩, pages, hpages, hthrough, ?_⟩
  · rw [hthrough'.total]
    decide +kernel
  · rw [hthrough.total]
    decide +kernel

end Session

end Anthology
