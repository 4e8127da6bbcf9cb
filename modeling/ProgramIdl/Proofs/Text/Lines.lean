import ProgramIdl.Text.Lines

/-!
# Lines and the texts they make up

A text that is made up of lines falls into these lines again, as long as no line holds a break and the
last one is not empty.
-/

set_option autoImplicit false

namespace ProgramIdl.Text

/-- A text without a break inside. -/
def Unbroken (line : List Char) : Prop :=
  ∀ c ∈ line, isLineBreak c = false

theorem lines_cons {c : Char} (visible : isLineBreak c = false) (rest : List Char) :
    lines (c :: rest) = growLine c (lines rest) := by
  have noReturn : c ≠ '\x0d' := by
    intro same
    subst same
    exact absurd visible (by decide)
  simp [lines, noReturn, visible]

theorem lines_break (rest : List Char) : lines ('\n' :: rest) = [] :: lines rest := by
  simp [lines, isLineBreak]

/-- The text up to the first break is the first line. -/
theorem lines_append_break {line : List Char} (unbroken : Unbroken line) (rest : List Char) :
    lines (line ++ '\n' :: rest) = line :: lines rest := by
  induction line with
  | nil => exact lines_break rest
  | cons c line inductionHypothesis =>
      obtain ⟨here, later⟩ := List.forall_mem_cons.mp unbroken
      rw [List.cons_append, lines_cons here, inductionHypothesis later, growLine]

/-- A text without a break is its only line. -/
theorem lines_of_unbroken {line : List Char} (unbroken : Unbroken line) (nonempty : line ≠ []) :
    lines line = [line] := by
  induction line with
  | nil => exact absurd rfl nonempty
  | cons c line inductionHypothesis =>
      obtain ⟨here, later⟩ := List.forall_mem_cons.mp unbroken
      rw [lines_cons here]
      by_cases last : line = []
      · subst last
        rfl
      · rw [inductionHypothesis later last, growLine]

/-- Lines that each end in a break, and the text behind them. -/
theorem lines_flatMap_append {texts : List (List Char)} (unbroken : ∀ line ∈ texts, Unbroken line)
    (rest : List Char) :
    lines (texts.flatMap (fun line => line ++ ['\n']) ++ rest) = texts ++ lines rest := by
  induction texts with
  | nil => rfl
  | cons line texts inductionHypothesis =>
      obtain ⟨here, later⟩ := List.forall_mem_cons.mp unbroken
      rw [List.flatMap_cons, List.append_assoc, List.append_assoc, List.singleton_append,
        lines_append_break here, inductionHypothesis later, List.cons_append]

/-- Lines with breaks between them. -/
theorem lines_intercalate {texts : List (List Char)} (unbroken : ∀ line ∈ texts, Unbroken line)
    (last : texts.getLast? ≠ some []) : lines (['\n'].intercalate texts) = texts := by
  induction texts with
  | nil => rfl
  | cons line texts inductionHypothesis =>
      obtain ⟨here, later⟩ := List.forall_mem_cons.mp unbroken
      cases texts with
      | nil =>
          rw [List.intercalate_singleton]
          exact lines_of_unbroken here (by simpa using last)
      | cons next texts =>
          rw [List.intercalate_cons_cons, List.append_assoc, List.singleton_append,
            lines_append_break here, inductionHypothesis later (by simpa using last)]

end ProgramIdl.Text
