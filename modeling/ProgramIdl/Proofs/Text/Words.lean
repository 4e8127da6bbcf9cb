import Mathlib
import ProgramIdl.Text.Words

/-!
# Words in snake case

The words of a name hold its letters and digits, each once and in order, and no word has both.  So a
name in snake case is made of words in small letters and words of digits, joined by underscores, and is
its own form in snake case (`snakeCase_words`).
-/

set_option autoImplicit false

namespace ProgramIdl.Text

/-! ## One word -/

/-- A text of letters only, or of digits only. -/
def IsWord (word : List Char) : Prop :=
  (∀ c ∈ word, c.isAlpha = true) ∨ ∀ c ∈ word, c.isDigit = true

/-- A text of small letters only, or of digits only; it is not empty. -/
structure IsSnakeWord (word : List Char) : Prop where
  nonempty : word ≠ []
  uniform : (∀ c ∈ word, c.isLower = true) ∨ ∀ c ∈ word, c.isDigit = true

theorem isAlphanum_of_isAlpha {c : Char} (letter : c.isAlpha = true) : c.isAlphanum = true := by
  simp [Char.isAlphanum, letter]

theorem isAlphanum_of_isDigit {c : Char} (digit : c.isDigit = true) : c.isAlphanum = true := by
  simp [Char.isAlphanum, digit]

theorem isAlpha_of_isLower {c : Char} (small : c.isLower = true) : c.isAlpha = true := by
  simp [Char.isAlpha, small]

theorem isDigit_of_not_isAlpha {c : Char} (visible : c.isAlphanum = true)
    (other : c.isAlpha = false) : c.isDigit = true := by
  simpa [Char.isAlphanum, other] using visible

theorem not_isAlpha_of_isDigit {c : Char} (digit : c.isDigit = true) : c.isAlpha = false := by
  simp only [Char.isDigit, Char.isAlpha, Char.isUpper, Char.isLower, Bool.and_eq_true,
    decide_eq_true_eq, Bool.or_eq_false_iff, Bool.and_eq_false_iff, decide_eq_false_iff_not,
    UInt32.le_iff_toNat_le, ge_iff_le] at digit ⊢
  have digits : '0'.val.toNat = 48 ∧ '9'.val.toNat = 57 := by decide
  have letters : 'A'.val.toNat = 65 ∧ 'a'.val.toNat = 97 := by decide
  omega

theorem toLower_of_isDigit {c : Char} (digit : c.isDigit = true) : c.toLower = c := by
  apply Char.toLower_eq_of_not_isUpper
  intro capital
  have letter : c.isAlpha = true := by simp [Char.isAlpha, capital]
  rw [not_isAlpha_of_isDigit digit] at letter
  cases letter

theorem toLower_of_isLower {c : Char} (small : c.isLower = true) : c.toLower = c := by
  apply Char.toLower_eq_of_not_isUpper
  simpa using Char.not_isUpper_of_isLower small

namespace IsSnakeWord

variable {word : List Char}

theorem isAlphanum (snake : IsSnakeWord word) : ∀ c ∈ word, c.isAlphanum = true := by
  intro c member
  rcases snake.uniform with small | digits
  · exact isAlphanum_of_isAlpha (isAlpha_of_isLower (small c member))
  · exact isAlphanum_of_isDigit (digits c member)

theorem map_toLower (snake : IsSnakeWord word) : word.map Char.toLower = word := by
  apply (List.map_congr_left _).trans (List.map_id word)
  intro c member
  rcases snake.uniform with small | digits
  · exact toLower_of_isLower (small c member)
  · exact toLower_of_isDigit (digits c member)

theorem of_isWord (isWord : IsWord word) (nonempty : word ≠ []) :
    IsSnakeWord (word.map Char.toLower) := by
  constructor
  · simpa using nonempty
  · rcases isWord with letters | digits
    · left
      simpa [Char.isLower_toLower_eq_isAlpha] using letters
    · right
      intro c member
      obtain ⟨d, listed, rfl⟩ := List.mem_map.mp member
      rw [toLower_of_isDigit (digits d listed)]
      exact digits d listed

end IsSnakeWord

/-! ## The words of a name -/

/-- Characters that stand in one word are of one kind. -/
theorem exists_of_joins {c : Char} {rest : List Char} (joined : joins c rest = true) :
    ∃ next later, rest = next :: later ∧ next.isAlphanum = true ∧
      c.isAlpha = next.isAlpha := by
  cases rest with
  | nil => simp [joins] at joined
  | cons next later =>
      refine ⟨next, later, rfl, ?_⟩
      simp only [joins] at joined
      by_cases digit : c.isDigit = true
      · rw [if_pos digit] at joined
        rw [not_isAlpha_of_isDigit digit, not_isAlpha_of_isDigit joined]
        exact ⟨isAlphanum_of_isDigit joined, rfl⟩
      · rw [if_neg digit] at joined
        have letters : c.isAlpha = true ∧ next.isAlpha = true := by
          simp only [Char.isAlpha]
          grind
        rw [letters.1, letters.2]
        exact ⟨isAlphanum_of_isAlpha letters.2, rfl⟩

theorem nameWords_of_not_isAlphanum {c : Char} (hidden : c.isAlphanum = false) (rest : List Char) :
    nameWords (c :: rest) = nameWords rest := by
  simp [nameWords, hidden]

/-- A letter or digit opens the first word, which goes on with what stands in one word with it. -/
theorem nameWords_cons {c : Char} (visible : c.isAlphanum = true) (rest : List Char) :
    (joins c rest = false ∧ nameWords (c :: rest) = [c] :: nameWords rest) ∨
      ∃ word more, joins c rest = true ∧ nameWords rest = word :: more ∧
        nameWords (c :: rest) = (c :: word) :: more := by
  cases joined : joins c rest with
  | false =>
      left
      simp [nameWords, visible, joined]
  | true =>
      right
      obtain ⟨next, later, rfl, continues, _⟩ := exists_of_joins joined
      cases words : nameWords (next :: later) with
      | nil =>
          exfalso
          rw [nameWords] at words
          simp only [continues, Bool.not_true, Bool.false_eq_true, if_false] at words
          split at words <;> cases words
      | cons word more => exact ⟨word, more, rfl, rfl, by simp [nameWords.eq_2 c, visible, joined, words]⟩

theorem flatten_nameWords (text : List Char) :
    (nameWords text).flatten = text.filter Char.isAlphanum := by
  induction text with
  | nil => rfl
  | cons c rest inductionHypothesis =>
      cases visible : c.isAlphanum with
      | false => rw [nameWords_of_not_isAlphanum visible, inductionHypothesis,
          List.filter_cons_of_neg (by simp [visible])]
      | true =>
          rw [List.filter_cons_of_pos visible, ← inductionHypothesis]
          rcases nameWords_cons visible rest with ⟨_, alone⟩ | ⟨word, more, _, words, longer⟩
          · simp [alone]
          · simp [words, longer]

theorem ne_nil_of_mem_nameWords (text : List Char) : ∀ word ∈ nameWords text, word ≠ [] := by
  induction text with
  | nil => intro word member; cases member
  | cons c rest inductionHypothesis =>
      cases visible : c.isAlphanum with
      | false => rwa [nameWords_of_not_isAlphanum visible]
      | true =>
          rcases nameWords_cons visible rest with ⟨_, alone⟩ | ⟨word, more, _, words, longer⟩
          · simpa [alone] using inductionHypothesis
          · rw [words] at inductionHypothesis
            rw [longer]
            intro other member
            rcases List.mem_cons.mp member with rfl | listed
            · simp
            · exact inductionHypothesis other (List.mem_cons_of_mem _ listed)

/-- The first word starts with the first character, if that is a letter or digit. -/
theorem exists_nameWords_cons {c : Char} (visible : c.isAlphanum = true) (rest : List Char) :
    ∃ word more, nameWords (c :: rest) = (c :: word) :: more := by
  rcases nameWords_cons visible rest with ⟨_, alone⟩ | ⟨word, more, _, _, longer⟩
  · exact ⟨[], _, alone⟩
  · exact ⟨word, more, longer⟩

theorem isWord_of_mem_nameWords (text : List Char) : ∀ word ∈ nameWords text, IsWord word := by
  induction text with
  | nil => intro word member; cases member
  | cons c rest inductionHypothesis =>
      cases visible : c.isAlphanum with
      | false => rwa [nameWords_of_not_isAlphanum visible]
      | true =>
          have alone : IsWord [c] := by
            cases letter : c.isAlpha with
            | true => left; simpa using letter
            | false => right; simpa using isDigit_of_not_isAlpha visible letter
          rcases nameWords_cons visible rest with ⟨_, single⟩ | ⟨word, more, joined, words, longer⟩
          · rw [single]
            simpa [alone] using inductionHypothesis
          · -- The word behind `c` starts with a character of the same kind as `c`.
            obtain ⟨next, later, rfl, continues, sameKind⟩ := exists_of_joins joined
            obtain ⟨tail, others, split⟩ := exists_nameWords_cons continues later
            rw [split] at words
            obtain ⟨rfl, rfl⟩ := List.cons.inj words
            rw [split] at inductionHypothesis
            rw [longer]
            intro other member
            rcases List.mem_cons.mp member with rfl | listed
            · rcases inductionHypothesis _ List.mem_cons_self with letters | digits
              · left
                have first := letters next List.mem_cons_self
                simp only [List.mem_cons, forall_eq_or_imp] at letters ⊢
                exact ⟨sameKind.trans first, letters⟩
              · right
                have first := not_isAlpha_of_isDigit (digits next List.mem_cons_self)
                simp only [List.mem_cons, forall_eq_or_imp] at digits ⊢
                exact ⟨isDigit_of_not_isAlpha visible (sameKind.trans first), digits⟩
            · exact inductionHypothesis other (List.mem_cons_of_mem _ listed)

/-! ## Snake case -/

theorem joins_of_isLower {c next : Char} (small : c.isLower = true) (smallNext : next.isLower = true)
    (later : List Char) : joins c (next :: later) = true := by
  have noDigit : ¬ c.isDigit = true := by
    intro digit
    have letter := isAlpha_of_isLower small
    rw [not_isAlpha_of_isDigit digit] at letter
    cases letter
  simp only [joins]
  rw [if_neg noDigit, if_pos small]
  exact smallNext

theorem joins_of_isDigit {c next : Char} (digit : c.isDigit = true) (digitNext : next.isDigit = true)
    (later : List Char) : joins c (next :: later) = true := by
  simp only [joins]
  rw [if_pos digit]
  exact digitNext

/-- The words of a name in small letters. -/
def snakeWords (text : List Char) : List (List Char) :=
  (nameWords text).map (·.map Char.toLower)

theorem toList_snakeCase (name : String) :
    (snakeCase name).toList = ['_'].intercalate (snakeWords name.toList) := by
  rw [snakeCase, String.toList_ofList, snakeWords]

theorem isSnakeWord_of_mem (text : List Char) : ∀ word ∈ snakeWords text, IsSnakeWord word := by
  intro word member
  obtain ⟨written, listed, rfl⟩ := List.mem_map.mp member
  exact .of_isWord (isWord_of_mem_nameWords text written listed)
    (ne_nil_of_mem_nameWords text written listed)

/-- A word in snake case is found again in front of an underscore or the end. -/
theorem nameWords_append {word rest : List Char} (snake : IsSnakeWord word)
    (ended : ∀ c ∈ rest.head?, c.isAlphanum = false) :
    nameWords (word ++ rest) = word :: nameWords rest := by
  obtain ⟨nonempty, uniform⟩ := snake
  induction word with
  | nil => exact absurd rfl nonempty
  | cons c word inductionHypothesis =>
      have visible : c.isAlphanum = true :=
        IsSnakeWord.isAlphanum ⟨nonempty, uniform⟩ c List.mem_cons_self
      rcases nameWords_cons visible (word ++ rest) with ⟨apart, single⟩ | ⟨front, more, joined, words, longer⟩
      · cases word with
        | nil => exact single
        | cons next word =>
            exfalso
            simp only [List.mem_cons, forall_eq_or_imp] at uniform
            rw [List.cons_append] at apart
            rcases uniform with ⟨small, smallNext, _⟩ | ⟨digit, digitNext, _⟩
            · rw [joins_of_isLower small smallNext] at apart
              cases apart
            · rw [joins_of_isDigit digit digitNext] at apart
              cases apart
      · cases word with
        | nil =>
            exfalso
            obtain ⟨next, later, first, continues, _⟩ := exists_of_joins joined
            rw [List.nil_append] at first
            have hidden := ended next (by simp [first])
            rw [continues] at hidden
            cases hidden
        | cons next word =>
            have later := inductionHypothesis (by simp) (by
              simp only [List.mem_cons, forall_eq_or_imp] at uniform ⊢
              tauto)
            rw [later] at words
            obtain ⟨rfl, rfl⟩ := List.cons.inj words
            exact longer

theorem nameWords_intercalate {words : List (List Char)}
    (snake : ∀ word ∈ words, IsSnakeWord word) :
    nameWords (['_'].intercalate words) = words := by
  have hidden : Char.isAlphanum '_' = false := by decide
  induction words with
  | nil => rfl
  | cons word words inductionHypothesis =>
      have first := snake word List.mem_cons_self
      have later := inductionHypothesis fun word member => snake word (List.mem_cons_of_mem _ member)
      cases words with
      | nil =>
          have whole := @nameWords_append _ [] first (by simp)
          simpa [List.intercalate_singleton, nameWords] using whole
      | cons next words =>
          rw [List.intercalate_cons_cons, List.append_assoc, nameWords_append first (by simp [hidden]),
            List.singleton_append, nameWords_of_not_isAlphanum hidden, later]

theorem filter_intercalate {words : List (List Char)} (snake : ∀ word ∈ words, IsSnakeWord word) :
    (['_'].intercalate words).filter (· ≠ '_') = words.flatten := by
  have kept : ∀ word ∈ words, word.filter (· ≠ '_') = word := by
    intro word member
    rw [List.filter_eq_self]
    intro c listed
    have visible := (snake word member).isAlphanum c listed
    simp only [ne_eq, decide_not, Bool.not_eq_true', decide_eq_false_iff_not]
    rintro rfl
    exact absurd visible (by decide)
  induction words with
  | nil => rfl
  | cons word words inductionHypothesis =>
      have first := kept word List.mem_cons_self
      have later := inductionHypothesis (fun word member => snake word (List.mem_cons_of_mem _ member))
        fun word member => kept word (List.mem_cons_of_mem _ member)
      cases words with
      | nil => simpa using first
      | cons next words =>
          rw [List.intercalate_cons_cons, List.filter_append, List.filter_append, first, later]
          simp

/-- A name in snake case is empty or made of words joined by underscores, each of small letters or of
digits; without the underscores it has the letters and digits of the name in small letters; and it is
its own form in snake case. -/
theorem snakeCase_words (name : String) :
    (∃ words, (snakeCase name).toList = ['_'].intercalate words ∧
      ∀ word ∈ words, IsSnakeWord word) ∧
    (snakeCase name).toList.filter (· ≠ '_') =
      (name.toList.filter Char.isAlphanum).map Char.toLower ∧
    snakeCase (snakeCase name) = snakeCase name := by
  have snake := isSnakeWord_of_mem name.toList
  refine ⟨⟨snakeWords name.toList, toList_snakeCase name, snake⟩, ?_, ?_⟩
  · rw [toList_snakeCase, filter_intercalate snake, snakeWords, ← flatten_nameWords, List.map_flatten]
  · have again : snakeWords (snakeCase name).toList = snakeWords name.toList := by
      rw [snakeWords, toList_snakeCase, nameWords_intercalate snake]
      apply (List.map_congr_left _).trans (List.map_id _)
      intro word member
      exact (snake word member).map_toLower
    apply String.toList_inj.mp
    rw [toList_snakeCase, again, ← toList_snakeCase]

example : snakeCase "HTTPServer2go" = "http_server_2_go" := by decide +kernel

end ProgramIdl.Text
