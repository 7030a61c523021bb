/-
**What an empty slot shows of its text.**

An empty slot is a paratext if its text is not blank, and is shown by the first line of the text
that is not blank.  The first rule looks at the text as a whole and the second at its lines, which
have lost their endings.  Both come to the same: what a line loses is a line feed and at most one
carriage return before it, and both are white space.

Main definitions:

* `Anthology.Text.chomp` — a line without the carriage return at its end;
* `Anthology.Text.Splits` — a text is cut at its line feeds into the given lines.

Main results:

* `Anthology.Text.splits_iff` — every text is cut in one way, the way of `Anthology.Text.lines`;
* `Anthology.Text.Splits.all_isSpace` — a text is blank exactly if its lines are;
* `Anthology.Slot.first_line_shown` — **an empty slot is a paratext exactly if a line is shown**.
-/

import Anthology.Record.Slot

set_option relaxedAutoImplicit false
set_option autoImplicit false

namespace Anthology

/-! ### Cutting a text into lines -/

namespace Text

variable {cs l rest : List Char} {ls : List (List Char)}

/-- A line without one carriage return at its end. -/
def chomp : List Char → List Char
  | [] => []
  | ['\r'] => []
  | c :: l => c :: chomp l

/-- The text is cut at its line feeds into the lines.  Behind the last of them there is a further
line only if there is a character. -/
inductive Splits : List Char → List (List Char) → Prop where
  | nil : Splits [] []
  | last (l : List Char) : l ≠ [] → '\n' ∉ l → Splits l [l]
  | line (l : List Char) {rest : List Char} {ls : List (List Char)} : '\n' ∉ l → Splits rest ls →
      Splits (l ++ '\n' :: rest) (chomp l :: ls)

/-- A character that is no part of an ending belongs to the first line. -/
theorem lines_cons {c : Char} (hc : c ≠ '\n')
    (hending : ∀ rest', c = '\r' → rest = '\n' :: rest' → False) (h : lines rest = l :: ls) :
    lines (c :: rest) = (c :: l) :: ls := by
  rw [lines, h]
  · exact hc
  · exact hending

theorem lines_of_not_mem (hne : l ≠ []) (hl : '\n' ∉ l) : lines l = [l] := by
  induction l with
  | nil => exact absurd rfl hne
  | cons c l ih =>
      have hc : c ≠ '\n' := by
        rintro rfl
        simp at hl
      cases l with
      | nil =>
          rw [lines, lines_nil]
          · exact hc
          · simp
      | cons d l =>
          have hl' : '\n' ∉ d :: l := by
            intro h
            exact hl (List.mem_cons_of_mem c h)
          refine lines_cons hc ?_ (ih (by simp) hl')
          rintro rest' - hrest
          simp [hrest] at hl'

theorem lines_append (hl : '\n' ∉ l) : lines (l ++ '\n' :: rest) = chomp l :: lines rest := by
  induction l with
  | nil => simp [lines, chomp]
  | cons c l ih =>
      have hc : c ≠ '\n' := by
        rintro rfl
        simp at hl
      have hl' : '\n' ∉ l := by
        intro h
        exact hl (List.mem_cons_of_mem c h)
      by_cases hreturn : c = '\r' ∧ l = []
      · obtain ⟨rfl, rfl⟩ := hreturn
        simp [lines, chomp]
      · have hchomp : chomp (c :: l) = c :: chomp l := by
          rw [chomp]
          intro h hnil
          exact hreturn ⟨h, hnil⟩
        rw [hchomp]
        refine lines_cons hc ?_ (ih hl')
        intro rest' hcr happend
        -- the line feed of an ending would be a character of the line
        cases l with
        | nil => exact hreturn ⟨hcr, rfl⟩
        | cons d l => simp_all

theorem splits_lines (cs : List Char) : Splits cs (lines cs) := by
  induction hn : cs.length using Nat.strongRecOn generalizing cs with
  | _ n ih =>
      by_cases hfeed : '\n' ∈ cs
      · obtain ⟨l, rest, rfl, hl⟩ := List.eq_append_cons_of_mem hfeed
        have hshorter : rest.length < n := by
          simp at hn
          omega
        rw [lines_append hl]
        exact .line l hl (ih rest.length hshorter rest rfl)
      · cases hcs : cs with
        | nil => exact .nil
        | cons c rest =>
            have hne : cs ≠ [] := by simp [hcs]
            rw [← hcs, lines_of_not_mem hne hfeed]
            exact .last cs hne hfeed

/-- **Every text is cut in one way.** -/
theorem splits_iff : Splits cs ls ↔ lines cs = ls := by
  constructor
  · intro h
    induction h with
    | nil => exact lines_nil
    | last l hne hl => exact lines_of_not_mem hne hl
    | line l hl _ ih => rw [lines_append hl, ih]
  · rintro rfl
    exact splits_lines cs

/-! ### Blank texts and blank lines -/

theorem all_isSpace_chomp (l : List Char) : (chomp l).all isSpace = l.all isSpace := by
  induction l using chomp.induct with
  | case1 => rfl
  | case2 => decide
  | case3 c l h ih =>
      rw [chomp, List.all_cons, List.all_cons, ih]
      exact h

/-- **A text is blank exactly if its lines are**, for what the lines lack is white space. -/
theorem Splits.all_isSpace (h : Splits cs ls) :
    (ls.all fun l => l.all isSpace) = cs.all isSpace := by
  have hfeed : isSpace '\n' = true := by decide
  induction h with
  | nil => rfl
  | last l _ _ => simp
  | line l _ _ ih => simp [all_isSpace_chomp, ih, hfeed]

/-- The first line that is not blank is shown; without one, nothing is. -/
theorem firstContentful_spec (s : String) :
    (trim s.toList = [] ∧ firstContentful s = "") ∨
      ∃ before line after, Splits s.toList (before ++ line :: after) ∧
        (∀ l ∈ before, trim l = []) ∧ trim line ≠ [] ∧ firstContentful s = String.ofList line := by
  rw [firstContentful]
  cases hfind : (lines s.toList).find? fun line => !line.all isSpace with
  | none =>
      have hblank : ((lines s.toList).all fun l => l.all isSpace) = true := by
        simpa using hfind
      rw [(splits_lines s.toList).all_isSpace] at hblank
      exact .inl ⟨(trim_eq_nil_iff _).2 hblank, rfl⟩
  | some line =>
      obtain ⟨hline, before, after, hlines, hbefore⟩ := List.find?_eq_some_iff_append.1 hfind
      refine .inr ⟨before, line, after, splits_iff.2 hlines, ?_, ?_, rfl⟩
      · intro l hl
        rw [trim_eq_nil_iff]
        simpa using hbefore l hl
      · intro htrim
        rw [trim_eq_nil_iff] at htrim
        simp [htrim] at hline

theorem firstContentful_eq_empty_iff (s : String) :
    firstContentful s = "" ↔ trim s.toList = [] := by
  rcases firstContentful_spec s with ⟨htrim, hempty⟩ | ⟨before, line, after, hsplits, -, hline, hs⟩
  · simp [htrim, hempty]
  · have hsome : line ≠ [] := by
      rintro rfl
      exact hline rfl
    have hcontent : trim s.toList ≠ [] := by
      intro h
      rw [trim_eq_nil_iff, ← hsplits.all_isSpace] at h
      simp only [List.all_append, List.all_cons, Bool.and_eq_true] at h
      exact hline ((trim_eq_nil_iff line).2 h.2.1)
    simp [hs, hsome, hcontent]

end Text

/-! ### Empty slots -/

theorem ItemRef.isEmpty_iff {r : ItemRef} : r.isEmpty = true ↔ r = .empty := by
  cases r <;> simp [isEmpty]

namespace Slot

theorem firstContentfulMarkdown_eq_empty_iff (s : Slot) :
    s.firstContentfulMarkdown = "" ↔ ∀ m ∈ s.markdown, Text.trim m.toList = [] := by
  rw [firstContentfulMarkdown]
  cases s.markdown with
  | none => simp
  | some m => simp [Text.firstContentful_eq_empty_iff]

theorem isParatext_iff (s : Slot) :
    s.isParatext = true ↔ s.item = .empty ∧ s.firstContentfulMarkdown ≠ "" := by
  rw [isParatext, Ne, firstContentfulMarkdown_eq_empty_iff, ← ItemRef.isEmpty_iff]
  cases s.markdown with
  | none => simp
  | some m => simp [Text.isBlank, Text.trim_eq_nil_iff]

/-- **An empty slot is a paratext exactly if a line is shown.**  What is shown of a slot is empty
exactly if its text is blank or absent, and otherwise it is a line of the text that is not blank and
has only blank lines before it; and every slot is one of a reference, a placeholder and a
paratext. -/
theorem first_line_shown (s : Slot) :
    (s.firstContentfulMarkdown = "" ↔ ∀ m ∈ s.markdown, Text.trim m.toList = []) ∧
    (s.firstContentfulMarkdown = "" ∨ ∃ m before line after, s.markdown = some m ∧
      Text.Splits m.toList (before ++ line :: after) ∧ (∀ l ∈ before, Text.trim l = []) ∧
      Text.trim line ≠ [] ∧ s.firstContentfulMarkdown = String.ofList line) ∧
    (s.isParatext = true ↔ s.item = .empty ∧ s.firstContentfulMarkdown ≠ "") ∧
    [decide (s.item ≠ .empty), s.isPlaceholder, s.isParatext].count true = 1 := by
  refine ⟨s.firstContentfulMarkdown_eq_empty_iff, ?shown, s.isParatext_iff, ?kinds⟩
  case shown =>
    cases hm : s.markdown with
    | none => exact .inl (by simp [firstContentfulMarkdown, hm])
    | some m =>
        rw [firstContentfulMarkdown, hm]
        rcases Text.firstContentful_spec m with ⟨-, hempty⟩ | ⟨before, line, after, hline⟩
        · exact .inl hempty
        · exact .inr ⟨m, before, line, after, rfl, hline⟩
  case kinds =>
    have hrefers : decide (s.item ≠ .empty) = !s.item.isEmpty := by cases s.item <;> rfl
    rw [hrefers, isPlaceholder, isParatext]
    cases s.item.isEmpty <;> cases s.markdown.any fun m => !Text.isBlank m <;> rfl

/-- A carriage return that stands alone is white space inside its line, as the ideographic space
is. -/
example : Text.firstContentful "\r\n \u3000\ra\r\nb" = " \u3000\ra" := by decide

end Slot

end Anthology
