import ProgramIdl.Text.QualifiedName

/-!
# Qualified names and their last segment

`Qualified text segment` says what a qualified name looks like, without saying how one is read.  The
reader finds the last segment of exactly these texts (`qualifiedName?_eq_some_iff`); a closing line
break, which it forgives, does not occur in trimmed text.
-/

set_option autoImplicit false

namespace ProgramIdl.Text

/-- A text is words with `::` between them, and the last of them is `segment`. -/
inductive Qualified : List Char → List Char → Prop where
  | word {segment : List Char} (nonempty : segment ≠ [])
      (letters : ∀ c ∈ segment, isWordChar c = true) : Qualified segment segment
  | qualifier {first rest segment : List Char} (nonempty : first ≠ [])
      (letters : ∀ c ∈ first, isWordChar c = true) (behind : Qualified rest segment) :
      Qualified (first ++ ':' :: ':' :: rest) segment

/-! ## Segments and what they put together -/

theorem ne_of_isWordChar {c mark : Char} (letter : isWordChar c = true)
    (noLetter : isWordChar mark = false) : c ≠ mark := by
  rintro rfl
  rw [letter] at noLetter
  cases noLetter

theorem pathSegments_ne_nil (text : List Char) : pathSegments text ≠ [] := by
  fun_cases pathSegments text with
  | case1 => simp
  | case2 rest => simp
  | case3 c rest =>
      cases pathSegments rest <;> simp [growFirst]

theorem intercalate_growFirst (c : Char) (segments : List (List Char)) :
    [':', ':'].intercalate (growFirst c segments) = c :: [':', ':'].intercalate segments := by
  cases segments with
  | nil => rfl
  | cons segment rest => cases rest <;> simp [growFirst, List.intercalate]

/-- Taking a text apart at `::` loses nothing. -/
theorem intercalate_pathSegments (text : List Char) :
    [':', ':'].intercalate (pathSegments text) = text := by
  fun_induction pathSegments text with
  | case1 => rfl
  | case2 rest inductionHypothesis =>
      obtain ⟨segment, more, segments⟩ := List.exists_cons_of_ne_nil (pathSegments_ne_nil rest)
      rw [segments] at inductionHypothesis ⊢
      simpa [List.intercalate] using inductionHypothesis
  | case3 c rest _ inductionHypothesis =>
      rw [intercalate_growFirst, inductionHypothesis]

theorem pathSegments_word {word : List Char} (letters : ∀ c ∈ word, isWordChar c = true) :
    pathSegments word = [word] := by
  induction word with
  | nil => rfl
  | cons c rest inductionHypothesis =>
      have later := inductionHypothesis fun c member => letters c (List.mem_cons_of_mem _ member)
      rw [pathSegments, later, growFirst]
      intro _ colon
      exact absurd colon (ne_of_isWordChar (letters c (by simp)) (by decide))

theorem pathSegments_append {word : List Char} (letters : ∀ c ∈ word, isWordChar c = true)
    (rest : List Char) : pathSegments (word ++ ':' :: ':' :: rest) = word :: pathSegments rest := by
  induction word with
  | nil => rfl
  | cons c word inductionHypothesis =>
      have later := inductionHypothesis fun c member => letters c (List.mem_cons_of_mem _ member)
      rw [List.cons_append, pathSegments, later, growFirst]
      intro _ colon
      exact absurd colon (ne_of_isWordChar (letters c (by simp)) (by decide))

/-! ## Reading qualified names -/

theorem Qualified.pathSegments {text segment : List Char} (qualified : Qualified text segment) :
    (∀ word ∈ pathSegments text, word ≠ [] ∧ ∀ c ∈ word, isWordChar c = true) ∧
      (Text.pathSegments text).getLast? = some segment := by
  induction qualified with
  | word nonempty letters =>
      rw [pathSegments_word letters]
      simpa using ⟨nonempty, letters⟩
  | @qualifier first rest segment nonempty letters _ inductionHypothesis =>
      rw [pathSegments_append letters]
      refine ⟨?_, ?_⟩
      · intro word member
        rcases List.mem_cons.mp member with rfl | member
        · exact ⟨nonempty, letters⟩
        · exact inductionHypothesis.1 word member
      · rw [List.getLast?_cons, inductionHypothesis.2, Option.getD_some]

theorem qualified_intercalate {words : List (List Char)} {segment : List Char}
    (proper : ∀ word ∈ words, word ≠ [] ∧ ∀ c ∈ word, isWordChar c = true)
    (last : words.getLast? = some segment) : Qualified ([':', ':'].intercalate words) segment := by
  induction words with
  | nil => cases last
  | cons word rest inductionHypothesis =>
      obtain ⟨nonempty, letters⟩ := proper word (by simp)
      cases rest with
      | nil =>
          obtain rfl : word = segment := by simpa using last
          simpa [List.intercalate] using Qualified.word nonempty letters
      | cons next more =>
          have behind := inductionHypothesis (fun word member => proper word (by simp [member]))
            (by simpa [List.getLast?_cons] using last)
          simpa [List.intercalate] using Qualified.qualifier nonempty letters behind

theorem dropFinalBreak_of_getLast? {text : List Char} (unbroken : text.getLast? ≠ some '\n') :
    dropFinalBreak text = text := by
  rw [dropFinalBreak, if_neg unbroken]

/-- The reader of qualified names finds the last segment of exactly the qualified names. -/
theorem qualifiedName?_eq_some_iff {text segment : List Char}
    (unbroken : text.getLast? ≠ some '\n') :
    qualifiedName? text = some segment ↔ Qualified text segment := by
  rw [qualifiedName?, dropFinalBreak_of_getLast? unbroken]
  simp only [List.all_eq_true, Bool.and_eq_true, Bool.not_eq_true', List.isEmpty_eq_false_iff]
  constructor
  · intro read
    split at read
    · rename_i proper
      rw [← intercalate_pathSegments text]
      exact qualified_intercalate proper read
    · cases read
  · intro qualified
    obtain ⟨proper, last⟩ := qualified.pathSegments
    rw [if_pos proper, last]

theorem getLast?_trim_ne (text : List Char) {blank : Char} (isBlank : isBlank blank = true) :
    (trim text).getLast? ≠ some blank := by
  intro last
  rw [trim, trimEnd, List.getLast?_reverse] at last
  have stopped := List.head?_dropWhile_not Text.isBlank (trimStart text).reverse
  rw [last] at stopped
  simp [isBlank] at stopped

/-- The same for trimmed texts, which do not end in a line break. -/
theorem qualifiedName?_trim_eq_some_iff {text segment : List Char} :
    qualifiedName? (trim text) = some segment ↔ Qualified (trim text) segment :=
  qualifiedName?_eq_some_iff (getLast?_trim_ne text (by decide))

theorem Qualified.unique {text first second : List Char} (one : Qualified text first)
    (other : Qualified text second) : first = second :=
  Option.some.inj (one.pathSegments.2.symm.trans other.pathSegments.2)

/-- A qualified name starts with a letter of its first word. -/
theorem Qualified.head? {text segment : List Char} (qualified : Qualified text segment) :
    ∃ c, text.head? = some c ∧ isWordChar c = true := by
  cases qualified with
  | word nonempty letters =>
      obtain ⟨c, rest, rfl⟩ := List.exists_cons_of_ne_nil nonempty
      exact ⟨c, rfl, letters c (by simp)⟩
  | qualifier nonempty letters _ =>
      obtain ⟨c, rest, rfl⟩ := List.exists_cons_of_ne_nil nonempty
      exact ⟨c, rfl, letters c (by simp)⟩

theorem Qualified.getLast? {text segment : List Char} (qualified : Qualified text segment) :
    ∃ c, text.getLast? = some c ∧ isWordChar c = true := by
  induction qualified with
  | @word segment nonempty letters =>
      exact ⟨segment.getLast nonempty, List.getLast?_eq_some_getLast nonempty,
        letters _ (List.getLast_mem nonempty)⟩
  | @qualifier first rest segment _ _ _ inductionHypothesis =>
      obtain ⟨c, last, letter⟩ := inductionHypothesis
      refine ⟨c, ?_, letter⟩
      rw [List.getLast?_append, List.getLast?_cons_cons, List.getLast?_cons, last]
      rfl

section Ends

variable {text segment : List Char} {mark : Char}

theorem Qualified.head?_ne (qualified : Qualified text segment)
    (noLetter : isWordChar mark = false) : text.head? ≠ some mark := by
  obtain ⟨c, head, letter⟩ := qualified.head?
  rw [head]
  exact fun same => ne_of_isWordChar letter noLetter (Option.some.inj same)

theorem Qualified.getLast?_ne (qualified : Qualified text segment)
    (noLetter : isWordChar mark = false) : text.getLast? ≠ some mark := by
  obtain ⟨c, last, letter⟩ := qualified.getLast?
  rw [last]
  exact fun same => ne_of_isWordChar letter noLetter (Option.some.inj same)

end Ends

end ProgramIdl.Text
