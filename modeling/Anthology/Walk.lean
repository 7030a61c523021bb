/-
**Walks along a relation.**

Two ways to find everything that can be reached along a relation whose neighbours are listed: a
walk from element to element, which expands each element once, and a walk from level to level,
which keeps the elements in the order of their distance.  Both carry the number of steps that they
may still take; the callers give them enough of it to reach everything.

Main definitions:

* `Anthology.Walk.visit` — the elements met along a queue, each once, in the order of the visits;
* `Anthology.Walk.levels` — the elements by distance, each at its first level only.
-/

set_option relaxedAutoImplicit false
set_option autoImplicit false

namespace Anthology.Walk

variable {α : Type} [DecidableEq α]

/-- The visited elements after the queue `todo` has been worked off, where `seen` were visited
before.  The neighbours of a newly visited element join the end of the queue. -/
def visit (next : α → List α) : Nat → List α → List α → List α
  | 0, _, seen => seen
  | _ + 1, [], seen => seen
  | fuel + 1, a :: todo, seen =>
    if a ∈ seen then visit next fuel todo seen
    else visit next fuel (todo ++ next a) (seen ++ [a])

/-- The levels that follow `level`: each holds what the level before it leads to and what was not
`seen` before, without what fails the test `keep`.  The walk ends at the first empty level. -/
def levels (expand : List α → List α) (keep : α → Bool) : Nat → List α → List α → List (List α)
  | 0, _, _ => []
  | _ + 1, [], _ => []
  | fuel + 1, a :: level, seen =>
    let found := (expand (a :: level)).eraseDups.filter fun b => b ∉ seen
    (a :: level) :: levels expand keep fuel (found.filter keep) (seen ++ found)

@[simp] theorem visit_nil (next : α → List α) (fuel : Nat) (seen : List α) :
    visit next fuel [] seen = seen := by
  cases fuel <;> rfl

@[simp] theorem levels_nil (expand : List α → List α) (keep : α → Bool) (fuel : Nat)
    (seen : List α) : levels expand keep fuel [] seen = [] := by
  cases fuel <;> rfl

/-- What was visited stays visited. -/
theorem mem_visit_of_mem {next : α → List α} {fuel : Nat} {todo seen : List α} {a : α}
    (h : a ∈ seen) : a ∈ visit next fuel todo seen := by
  fun_induction visit next fuel todo seen with
  | case1 => exact h
  | case2 => exact h
  | case3 _ _ _ _ _ ih => exact ih h
  | case4 _ _ _ _ _ ih => exact ih (List.mem_append_left _ h)

/-- Nothing is visited twice. -/
theorem nodup_visit {next : α → List α} {fuel : Nat} {todo seen : List α} (h : seen.Nodup) :
    (visit next fuel todo seen).Nodup := by
  fun_induction visit next fuel todo seen with
  | case1 => exact h
  | case2 => exact h
  | case3 _ _ _ _ _ ih => exact ih h
  | case4 _ a _ _ ha ih =>
    refine ih (List.nodup_append.2 ⟨h, by simp, ?_⟩)
    intro b hb c hc e
    rw [List.mem_singleton.1 hc] at e
    exact ha (e ▸ hb)

end Anthology.Walk
