/-
**Pages of a listing.**

A listing is read page by page.  A request names a page, counted from zero, and how many records a
page holds; the answer carries the records of that page and the totals of the whole listing.  Page
numbers, page sizes and the offset are 32-bit words: an offset past the largest word stops there,
and the number of pages is kept modulo `2 ^ 32`.

Main definitions:

* `Anthology.PageRequest`, `Anthology.Page` — what is asked for and what is answered;
* `Anthology.PageRequest.offset` — how many records stand before the page;
* `Anthology.Page.of` — the answer made of the records of a page and the total;
* `Anthology.PageRequest.cut` — the records of a listing that fall on the page.
-/

import Anthology.Json
import Anthology.Word

set_option relaxedAutoImplicit false
set_option autoImplicit false

namespace Anthology

/-! ### Requests -/

/-- The page asked for, counted from zero, and the number of records on a page. -/
@[ext] structure PageRequest where
  page : Nat
  pageSize : Nat
deriving DecidableEq

namespace PageRequest

/-- The first fifty records. -/
def default : PageRequest := ⟨0, 50⟩

instance : Inhabited PageRequest := ⟨default⟩

/-- The number of records before the page; at most the largest word. -/
def offset (r : PageRequest) : Nat := min (r.page * r.pageSize) (Word.count 32 - 1)

/-- The most records that the page can hold. -/
def limit (r : PageRequest) : Nat := r.pageSize

/-- The request for the page after this one. -/
def next (r : PageRequest) : PageRequest := { r with page := r.page + 1 }

/-- The request for the `n`-th page after this one. -/
def skip (r : PageRequest) : Nat → PageRequest
  | 0 => r
  | n + 1 => r.next.skip n

theorem skip_eq (r : PageRequest) (n : Nat) : r.skip n = ⟨r.page + n, r.pageSize⟩ := by
  induction n generalizing r with
  | zero => rfl
  | succ n ih => simp [skip, ih, next, Nat.add_comm, Nat.add_left_comm]

def codec : Codec PageRequest where
  encode r := .object [("page", .number r.page), ("page_size", .number r.pageSize)]
  decode j := do
    let fs ← j.record? ["page", "page_size"]
    return {
      page := ← fs.get "page" (.unsigned 32)
      pageSize := ← fs.get "page_size" (.unsigned 32) }

end PageRequest

/-! ### Pages -/

/-- One page of records with the totals of the listing it is taken from. -/
@[ext] structure Page (α : Type) where
  items : List α
  total : Nat
  page : Nat
  totalPages : Nat
  pageSize : Nat
deriving DecidableEq

namespace Page

variable {α β : Type}

/-- The answer to a request: the records of the page, and how many records and pages there are.
Pages without room for a record are none. -/
def of (items : List α) (total : Nat) (r : PageRequest) : Page α where
  items
  total
  page := r.page
  totalPages :=
    if r.pageSize = 0 then 0 else (total + (r.pageSize - 1)) / r.pageSize % Word.count 32
  pageSize := r.pageSize

def hasNext (p : Page α) : Bool := p.page + 1 < p.totalPages

def hasPrevious (p : Page α) : Bool := 0 < p.page

/-- The same page with every record replaced. -/
def map (f : α → β) (p : Page α) : Page β := { p with items := p.items.map f }

@[simp] theorem items_map (f : α → β) (p : Page α) : (p.map f).items = p.items.map f := rfl

/-- A page of records that have a codec. -/
def codec (c : Codec α) : Codec (Page α) where
  encode p := .object [
    ("items", c.list.encode p.items),
    ("total", .number p.total),
    ("page", .number p.page),
    ("total_pages", .number p.totalPages),
    ("page_size", .number p.pageSize)]
  decode j := do
    let fs ← j.record? ["items", "total", "page", "total_pages", "page_size"]
    return {
      items := ← fs.get "items" c.list
      total := ← fs.get "total" (.unsigned 64)
      page := ← fs.get "page" (.unsigned 32)
      totalPages := ← fs.get "total_pages" (.unsigned 32)
      pageSize := ← fs.get "page_size" (.unsigned 32) }

end Page

/-- The answer to a request for a page of the listing `xs`. -/
def PageRequest.cut {α : Type} (r : PageRequest) (xs : List α) : Page α :=
  Page.of ((xs.drop r.offset).take r.limit) xs.length r

end Anthology
