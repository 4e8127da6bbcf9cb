import ProgramIdl.Proofs.Text.Identifier

/-!
# Names that are filled in

A text may leave two names open: the letter omega stands for a name in Pascal case, the letter sigma for
one in snake case.  What is filled in for them are words of ASCII, so the blanks and the marks of the
text stay where they are.
-/

set_option autoImplicit false

namespace ProgramIdl

open ProgramIdl.Text

/-- Two names to fill in, words of ASCII that start with a letter. -/
structure Filling where
  pascal : List Char
  snake : List Char
  pascal_word : pascal.all isAsciiWordChar = true
  snake_word : snake.all isAsciiWordChar = true
  pascal_capital : ∃ c ∈ pascal.head?, c.isUpper = true
  snake_small : ∃ c ∈ snake.head?, c.isLower = true

namespace Filling

/-- The letters that stand for names. -/
def holes : List Char :=
  ['Ω', 'σ']

/-- Whether a text leaves no name open. -/
def isWhole (text : List Char) : Bool :=
  text.all fun c => c ∉ holes

variable (ρ : Filling)

/-- What a character stands for. -/
def char (c : Char) : List Char :=
  if c = 'Ω' then ρ.pascal else if c = 'σ' then ρ.snake else [c]

/-- A text with the names filled in. -/
def fill (text : List Char) : List Char :=
  text.flatMap ρ.char

/-- A text with the names filled in. -/
def string (text : String) : String :=
  .ofList (ρ.fill text.toList)

@[simp] theorem fill_nil : ρ.fill [] = [] := rfl

@[simp] theorem fill_cons (c : Char) (text : List Char) :
    ρ.fill (c :: text) = ρ.char c ++ ρ.fill text := rfl

@[simp] theorem fill_append (front back : List Char) :
    ρ.fill (front ++ back) = ρ.fill front ++ ρ.fill back :=
  List.flatMap_append

@[simp] theorem fill_flatten (texts : List (List Char)) :
    ρ.fill texts.flatten = (texts.map ρ.fill).flatten := by
  induction texts with
  | nil => rfl
  | cons text texts inductionHypothesis => simp [inductionHypothesis]

@[simp] theorem toList_string (text : String) : (ρ.string text).toList = ρ.fill text.toList :=
  String.toList_ofList

theorem char_of_not_mem {c : Char} (whole : c ∉ holes) : ρ.char c = [c] := by
  simp only [holes, List.mem_cons, List.not_mem_nil, or_false, not_or] at whole
  rw [char, if_neg whole.1, if_neg whole.2]

theorem fill_of_isWhole {text : List Char} (whole : isWhole text = true) : ρ.fill text = text := by
  induction text with
  | nil => rfl
  | cons c text inductionHypothesis =>
      rw [isWhole, List.all_cons, Bool.and_eq_true] at whole
      rw [fill_cons, ρ.char_of_not_mem (of_decide_eq_true whole.1), inductionHypothesis whole.2]
      rfl

/-- Whether the bytes of a text are of ASCII. -/
def isAscii (text : String) : Bool :=
  text.toByteArray.data.toList.all (· < 0x80)

/-- A text of ASCII leaves no name open. -/
theorem isWhole_of_isAscii {text : String} (ascii : isAscii text = true) :
    isWhole text.toList = true := by
  have bytes : text.toByteArray.data.toList = text.toList.flatMap String.utf8EncodeChar := by
    rw [← String.utf8Encode_toList, List.utf8Encode, List.toList_data_toByteArray]
  rw [isAscii, bytes, List.all_eq_true] at ascii
  rw [isWhole, List.all_eq_true]
  intro c listed
  have wide : ∀ c ∈ holes, ∃ byte ∈ String.utf8EncodeChar c, ¬ byte < 0x80 :=
    forall_mem_of_all (by decide)
  refine decide_eq_true fun hole => ?_
  obtain ⟨byte, among, high⟩ := wide c hole
  exact high (of_decide_eq_true (ascii byte (List.mem_flatMap.mpr ⟨c, listed, among⟩)))

theorem string_of_isAscii {text : String} (ascii : isAscii text = true) : ρ.string text = text := by
  rw [string, ρ.fill_of_isWhole (isWhole_of_isAscii ascii), String.ofList_toList]

/-! ## What stands in the holes -/

theorem word_of_hole {c : Char} (hole : c ∈ holes) : (ρ.char c).all isAsciiWordChar = true := by
  simp only [holes, List.mem_cons, List.not_mem_nil, or_false] at hole
  rcases hole with rfl | rfl
  · exact ρ.pascal_word
  · exact ρ.snake_word

/-- A letter of ASCII is no digit. -/
theorem not_isDigit_of_letter {c : Char} (letter : (c.isUpper || c.isLower) = true) :
    c.isDigit = false := by
  have above (least : UInt32) (low : least ≤ c.val) (high : '9'.val < least) : c.isDigit = false := by
    have beyond := UInt32.lt_of_lt_of_le high low
    rw [Char.isDigit, Bool.and_eq_false_iff]
    exact .inr (decide_eq_false (UInt32.not_le.mpr beyond))
  rcases (Bool.or_eq_true _ _).mp letter with capital | small
  · have bounds : 'A'.val ≤ c.val ∧ c.val ≤ 'Z'.val := of_decide_eq_true capital
    exact above _ bounds.1 (by decide)
  · have low : 'a'.val ≤ c.val := of_decide_eq_true ((Bool.and_eq_true _ _).mp small).1
    exact above _ low (by decide)

/-- A name starts with a letter. -/
theorem exists_letter_of_hole {c : Char} (hole : c ∈ holes) :
    ∃ letter more, ρ.char c = letter :: more ∧ isAsciiWordChar letter = true ∧
      letter.isDigit = false := by
  have word := ρ.word_of_hole hole
  obtain ⟨letter, first, case⟩ :
      ∃ letter ∈ (ρ.char c).head?, (letter.isUpper || letter.isLower) = true := by
    simp only [holes, List.mem_cons, List.not_mem_nil, or_false] at hole
    rcases hole with rfl | rfl
    · obtain ⟨letter, first, capital⟩ := ρ.pascal_capital
      exact ⟨letter, first, by rw [capital, Bool.true_or]⟩
    · obtain ⟨letter, first, small⟩ := ρ.snake_small
      exact ⟨letter, first, by rw [small, Bool.or_true]⟩
  obtain ⟨more, named⟩ := List.head?_eq_some_iff.mp first
  rw [named, List.all_cons, Bool.and_eq_true] at word
  exact ⟨letter, more, named, word.1, not_isDigit_of_letter case⟩

theorem fill_ne_nil {text : List Char} (nonempty : text ≠ []) : ρ.fill text ≠ [] := by
  cases text with
  | nil => exact absurd rfl nonempty
  | cons c text =>
      rw [fill_cons]
      by_cases hole : c ∈ holes
      · obtain ⟨letter, more, named, _⟩ := ρ.exists_letter_of_hole hole
        simp [named]
      · simp [ρ.char_of_not_mem hole]

/-- A condition that holds of the characters of words holds of a filled text if it does of the open
one. -/
theorem all_fill {p : Char → Bool} (words : ∀ c, isAsciiWordChar c = true → p c = true)
    {text : List Char} (all : text.all p = true) : (ρ.fill text).all p = true := by
  induction text with
  | nil => rfl
  | cons c text inductionHypothesis =>
      rw [List.all_cons, Bool.and_eq_true] at all
      rw [fill_cons, List.all_append, inductionHypothesis all.2, Bool.and_true]
      by_cases hole : c ∈ holes
      · have word := ρ.word_of_hole hole
        rw [List.all_eq_true] at word ⊢
        exact fun d listed => words d (word d listed)
      · rw [ρ.char_of_not_mem hole, List.all_cons, all.1]
        rfl

/-- Whether a text is an identifier of ASCII in which a name may be left open. -/
def isOpenName (text : List Char) : Bool :=
  text.all (fun c => isAsciiWordChar c || decide (c ∈ holes)) && text.head?.any fun c => !c.isDigit

theorem isAsciiName_fill {text : List Char} (open_ : isOpenName text = true) :
    isAsciiName (ρ.fill text) = true := by
  cases text with
  | nil => cases open_
  | cons c text =>
      obtain ⟨words, letter⟩ := Bool.and_eq_true_iff.mp open_
      rw [isAsciiName, Bool.and_eq_true]
      constructor
      · generalize c :: text = text at words
        induction text with
        | nil => rfl
        | cons c text inductionHypothesis =>
            rw [List.all_cons, Bool.and_eq_true, Bool.or_eq_true, decide_eq_true_eq] at words
            rw [fill_cons, List.all_append, inductionHypothesis words.2, Bool.and_true]
            by_cases hole : c ∈ holes
            · exact ρ.word_of_hole hole
            · rw [ρ.char_of_not_mem hole, List.all_cons, words.1.resolve_right hole]
              rfl
      · rw [fill_cons]
        by_cases hole : c ∈ holes
        · obtain ⟨first, more, named, _, noDigit⟩ := ρ.exists_letter_of_hole hole
          rw [named, List.cons_append, List.head?_cons, Option.any_some, noDigit]
          rfl
        · rw [ρ.char_of_not_mem hole]
          exact letter

/-! ## Trimming -/

/-- The name that stands for a hole starts and ends with visible characters. -/
theorem visible_of_hole {c : Char} (hole : c ∈ holes) (back : List Char) :
    Flush (ρ.char c ++ back) ∧ ∀ last, (back ++ ρ.char c).getLast? = some last → isBlank last = false := by
  obtain ⟨letter, more, named, word, _⟩ := ρ.exists_letter_of_hole hole
  constructor
  · rw [named]
    exact flush_cons_iff.mpr (isBlank_of_ascii word)
  · intro last found
    have whole := List.all_eq_true.mp (ρ.word_of_hole hole)
    rw [List.getLast?_append_of_ne_nil _ (by simp [named])] at found
    exact isBlank_of_ascii (whole last (List.mem_of_getLast? found))

/-- The letters that stand for names are letters of words too. -/
theorem letter_of_hole : ∀ c ∈ holes, isIdentifierStart c = true ∧ isIdentifierPart c = true ∧
    isBlank c = false :=
  forall_mem_of_all (by decide +kernel)

theorem trimStart_fill (text : List Char) : trimStart (ρ.fill text) = ρ.fill (trimStart text) := by
  induction text with
  | nil => rfl
  | cons c text inductionHypothesis =>
      by_cases blank : isBlank c = true
      · have whole : c ∉ holes := fun hole => by
          rw [(letter_of_hole c hole).2.2] at blank
          cases blank
        rw [fill_cons, ρ.char_of_not_mem whole, trimStart, trimStart, List.singleton_append,
          List.dropWhile_cons_of_pos blank, List.dropWhile_cons_of_pos blank]
        exact inductionHypothesis
      · rw [trimStart_of_flush (flush_cons_iff.mpr (Bool.not_eq_true _ ▸ blank)), fill_cons]
        by_cases hole : c ∈ holes
        · exact trimStart_of_flush (ρ.visible_of_hole hole _).1
        · rw [ρ.char_of_not_mem hole]
          exact trimStart_of_flush (flush_cons_iff.mpr (Bool.not_eq_true _ ▸ blank))

theorem trimEnd_fill (text : List Char) : trimEnd (ρ.fill text) = ρ.fill (trimEnd text) := by
  rw [trimEnd_eq_rdropWhile, trimEnd_eq_rdropWhile]
  induction text using List.reverseRecOn with
  | nil => rfl
  | append_singleton text c inductionHypothesis =>
      by_cases blank : isBlank c = true
      · have whole : c ∉ holes := fun hole => by
          rw [(letter_of_hole c hole).2.2] at blank
          cases blank
        rw [fill_append, fill_cons, ρ.char_of_not_mem whole, fill_nil, List.append_nil,
          List.rdropWhile_concat_pos _ _ _ blank, List.rdropWhile_concat_pos _ _ _ blank]
        exact inductionHypothesis
      · rw [List.rdropWhile_concat_neg _ _ _ blank, fill_append, fill_cons, fill_nil, List.append_nil,
          ← trimEnd_eq_rdropWhile]
        apply trimEnd_of_getLast?
        by_cases hole : c ∈ holes
        · exact (ρ.visible_of_hole hole _).2
        · intro last found
          rw [ρ.char_of_not_mem hole, List.getLast?_concat] at found
          obtain rfl := Option.some.inj found
          exact Bool.not_eq_true _ ▸ blank

theorem trim_fill (text : List Char) : trim (ρ.fill text) = ρ.fill (trim text) := by
  rw [trim, trim, trimStart_fill, trimEnd_fill]

end Filling

end ProgramIdl
