import ProgramIdl.Proofs.Text.Filling
import ProgramIdl.Proofs.Text.Words

/-!
# The names of a project

A name whose first letter or digit is a letter yields two words of ASCII that start with a letter, one
in snake case and one in Pascal case, so that both can be filled into a template
(`LetterLed.filling`).
-/

set_option autoImplicit false

namespace ProgramIdl

open ProgramIdl.Text

namespace Text

theorem isAlphanum_toLower {c : Char} (visible : c.isAlphanum = true) :
    c.toLower.isAlphanum = true := by
  cases letter : c.isAlpha with
  | true => exact isAlphanum_of_isAlpha ((Char.isAlpha_toLower_eq_isAlpha c).trans letter)
  | false => rwa [toLower_of_isDigit (isDigit_of_not_isAlpha visible letter)]

theorem isAlphanum_toUpper {c : Char} (visible : c.isAlphanum = true) :
    c.toUpper.isAlphanum = true := by
  cases letter : c.isAlpha with
  | true => exact isAlphanum_of_isAlpha ((Char.isAlpha_toUpper_eq_isAlpha c).trans letter)
  | false =>
      have small : ¬ c.isLower = true := by
        intro small
        rw [isAlpha_of_isLower small] at letter
        cases letter
      rwa [Char.toUpper_eq_of_not_isLower small]

theorem isAlphanum_of_mem_nameWords {text word : List Char} (listed : word ∈ nameWords text) :
    ∀ c ∈ word, c.isAlphanum = true := by
  intro c member
  have kept : c ∈ text.filter Char.isAlphanum := by
    rw [← flatten_nameWords]
    exact List.mem_flatten.mpr ⟨word, listed, member⟩
  exact (List.mem_filter.mp kept).2

theorem isAlphanum_of_mem_capitalize {word : List Char} (visible : ∀ c ∈ word, c.isAlphanum = true) :
    ∀ c ∈ capitalize word, c.isAlphanum = true := by
  cases word with
  | nil => exact visible
  | cons first rest =>
      obtain ⟨here, later⟩ := List.forall_mem_cons.mp visible
      rw [capitalize]
      refine List.forall_mem_cons.mpr ⟨isAlphanum_toUpper here, fun c member => ?_⟩
      obtain ⟨d, listed, rfl⟩ := List.mem_map.mp member
      exact isAlphanum_toLower (later d listed)

theorem isAsciiWordChar_of_isAlphanum {c : Char} (visible : c.isAlphanum = true) :
    isAsciiWordChar c = true := by
  rw [isAsciiWordChar, visible, Bool.true_or]

theorem isAsciiWordChar_of_mem_pascalCase (name : String) :
    ∀ c ∈ (pascalCase name).toList, isAsciiWordChar c = true := by
  rw [pascalCase, String.toList_ofList]
  intro c member
  obtain ⟨_, listed, inside⟩ := List.mem_flatten.mp member
  obtain ⟨word, inWords, rfl⟩ := List.mem_map.mp listed
  exact isAsciiWordChar_of_isAlphanum
    (isAlphanum_of_mem_capitalize (isAlphanum_of_mem_nameWords inWords) c inside)

theorem isAsciiWordChar_of_mem_snakeCase (name : String) :
    ∀ c ∈ (snakeCase name).toList, isAsciiWordChar c = true := by
  intro c member
  by_cases underscore : c = '_'
  · rw [underscore]
    rfl
  · have snake := isSnakeWord_of_mem name.toList
    have kept : c ∈ (snakeCase name).toList.filter (· ≠ '_') :=
      List.mem_filter.mpr ⟨member, by simpa using underscore⟩
    rw [toList_snakeCase, filter_intercalate snake] at kept
    obtain ⟨word, listed, inside⟩ := List.mem_flatten.mp kept
    exact isAsciiWordChar_of_isAlphanum ((snake word listed).isAlphanum c inside)

end Text

namespace Scaffold

/-- The first letter or digit of a name is a letter. -/
def LetterLed (name : String) : Prop :=
  ∃ c ∈ (name.toList.filter Char.isAlphanum).head?, c.isAlpha = true

namespace LetterLed

variable {name : String}

/-- The first word of the name starts with the letter. -/
theorem exists_nameWords (led : LetterLed name) : ∃ c rest words,
    nameWords name.toList = (c :: rest) :: words ∧ c.isAlpha = true := by
  obtain ⟨c, first, letter⟩ := led
  have nonempty := ne_nil_of_mem_nameWords name.toList
  rw [← flatten_nameWords] at first
  cases split : nameWords name.toList with
  | nil =>
      rw [split] at first
      cases first
  | cons word words =>
      rw [split] at first nonempty
      cases word with
      | nil => exact absurd rfl (nonempty [] List.mem_cons_self)
      | cons d rest =>
          obtain rfl := Option.some.inj first
          exact ⟨d, rest, words, rfl, letter⟩

theorem snakeCase_ne (led : LetterLed name) : snakeCase name ≠ "" := by
  obtain ⟨c, rest, words, split, _⟩ := led.exists_nameWords
  rw [ne_eq, ← String.toList_eq_nil_iff, toList_snakeCase, snakeWords, split]
  cases words <;> simp [List.intercalate]

/-- The two forms of a name, to fill into a template. -/
def filling (led : LetterLed name) : Filling where
  pascal := (pascalCase name).toList
  snake := (snakeCase name).toList
  pascal_word := List.all_eq_true.mpr (isAsciiWordChar_of_mem_pascalCase name)
  snake_word := List.all_eq_true.mpr (isAsciiWordChar_of_mem_snakeCase name)
  pascal_capital := by
    obtain ⟨c, rest, words, split, letter⟩ := led.exists_nameWords
    refine ⟨c.toUpper, ?_, (Char.isUpper_toUpper_eq_isAlpha c).trans letter⟩
    rw [pascalCase, String.toList_ofList, split]
    rfl
  snake_small := by
    obtain ⟨c, rest, words, split, letter⟩ := led.exists_nameWords
    refine ⟨c.toLower, ?_, (Char.isLower_toLower_eq_isAlpha c).trans letter⟩
    rw [toList_snakeCase, snakeWords, split]
    cases words <;> rfl

end LetterLed

end Scaffold

end ProgramIdl
