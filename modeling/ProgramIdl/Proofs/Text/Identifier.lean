import ProgramIdl.Proofs.Text.Trim
import ProgramIdl.Text.Identifier
import ProgramIdl.Text.WordChar

/-!
# The characters of identifiers

Sets of code points are compared range by range.  The letters and digits of ASCII and the underscore
are among the characters that names are made of, and no mark or blank is.
-/

set_option autoImplicit false

namespace ProgramIdl.Text

namespace CodePoints

theorem exists_of_contains {ranges : CodePoints} {point : Nat}
    (inside : contains ranges point = true) :
    ∃ range ∈ ranges, range.1 ≤ point ∧ point ≤ range.2 := by
  induction ranges with
  | nil => cases inside
  | cons range rest inductionHypothesis =>
      obtain ⟨low, high⟩ := range
      rw [contains] at inside
      split at inside
      · cases inside
      · rename_i above
        split at inside
        · rename_i within
          exact ⟨(low, high), List.mem_cons_self, Nat.le_of_not_lt above, within⟩
        · obtain ⟨range, listed, bounds⟩ := inductionHypothesis inside
          exact ⟨range, List.mem_cons_of_mem _ listed, bounds⟩

/-- No range of the one set meets a range of the other. -/
def apart (first second : CodePoints) : Bool :=
  first.all fun range => second.all fun other => range.2 < other.1 || other.2 < range.1

theorem not_mem_of_apart {first second : CodePoints} (apart : first.apart second = true)
    {point : Nat} (inside : contains first point = true) :
    ∀ range ∈ second, ¬ (range.1 ≤ point ∧ point ≤ range.2) := by
  rintro other listed ⟨low, high⟩
  obtain ⟨range, member, above, below⟩ := exists_of_contains inside
  have away := List.all_eq_true.mp (List.all_eq_true.mp apart range member) other listed
  simp only [Bool.or_eq_true, decide_eq_true_eq] at away
  omega

theorem not_contains_of_apart {first second : CodePoints} (apart : first.apart second = true)
    {point : Nat} (inside : contains first point = true) : contains second point = false := by
  by_contra both
  rw [Bool.not_eq_false] at both
  obtain ⟨range, listed, within⟩ := exists_of_contains both
  exact not_mem_of_apart apart inside range listed within

end CodePoints

theorem isWordChar_of_isBlank {c : Char} (blank : isBlank c = true) : isWordChar c = false := by
  have apart : ∀ range ∈ blankRanges, ∀ offset < range.2 - range.1 + 1,
      CodePoints.contains wordRanges (range.1 + offset) = false := by decide +kernel
  obtain ⟨range, listed, low, high⟩ :=
    (CodePoints.contains_iff blankRanges_wellFormed c.toNat).mp blank
  have here := apart range listed (c.toNat - range.1) (by omega)
  rwa [Nat.add_sub_cancel' low] at here

theorem not_isBlank_of_isWordChar {c : Char} (letter : isWordChar c = true) :
    isBlank c = false := by
  by_contra blank
  rw [isWordChar_of_isBlank (by simpa using blank)] at letter
  cases letter

theorem identifierStart_apart_blank :
    CodePoints.apart identifierStartRanges blankRanges = true := by
  decide +kernel

theorem identifierPart_apart_blank :
    CodePoints.apart identifierPartRanges blankRanges = true := by
  decide +kernel

theorem isBlank_of_isIdentifierStart {c : Char} (start : isIdentifierStart c = true) :
    isBlank c = false :=
  CodePoints.not_contains_of_apart identifierStart_apart_blank start

theorem isBlank_of_isIdentifierPart {c : Char} (part : isIdentifierPart c = true) :
    isBlank c = false :=
  CodePoints.not_contains_of_apart identifierPart_apart_blank part

/-! ## Words of ASCII -/

/-- Whether a character is a letter or digit of ASCII or the underscore. -/
def isAsciiWordChar (c : Char) : Bool :=
  c.isAlphanum || c = '_'

/-- Whether a character of ASCII is neither a letter nor a digit nor the underscore. -/
def isAsciiMark (c : Char) : Bool :=
  decide (c.toNat < 0x80) && !isAsciiWordChar c

theorem ascii_table : ∀ point < 0x80,
    isIdentifierPart (Char.ofNat point) = isAsciiWordChar (Char.ofNat point) ∧
    isIdentifierStart (Char.ofNat point) =
      (isAsciiWordChar (Char.ofNat point) && !(Char.ofNat point).isDigit) ∧
    isWordChar (Char.ofNat point) = isAsciiWordChar (Char.ofNat point) := by
  decide +kernel

section Ascii

variable {c : Char}

theorem table_of_lt (ascii : c.toNat < 0x80) :
    isIdentifierPart c = isAsciiWordChar c ∧
      isIdentifierStart c = (isAsciiWordChar c && !c.isDigit) ∧ isWordChar c = isAsciiWordChar c := by
  have here := ascii_table c.toNat ascii
  rwa [Char.ofNat_toNat] at here

theorem lt_of_ascii (ascii : isAsciiWordChar c = true) : c.toNat < 0x80 := by
  rcases (Bool.or_eq_true _ _).mp ascii with visible | underscore
  · rcases (Bool.or_eq_true _ _).mp visible with letter | digit
    · rcases (Bool.or_eq_true _ _).mp letter with capital | small
      · have bounds : 'A'.val ≤ c.val ∧ c.val ≤ 'Z'.val := of_decide_eq_true capital
        exact Nat.lt_of_le_of_lt bounds.2 (by decide)
      · have bounded : c.val ≤ 'z'.val := of_decide_eq_true ((Bool.and_eq_true _ _).mp small).2
        exact Nat.lt_of_le_of_lt bounded (by decide)
    · have bounded : c.val ≤ '9'.val := of_decide_eq_true ((Bool.and_eq_true _ _).mp digit).2
      exact Nat.lt_of_le_of_lt bounded (by decide)
  · obtain rfl := of_decide_eq_true underscore
    decide

theorem isIdentifierPart_of_ascii (ascii : isAsciiWordChar c = true) : isIdentifierPart c = true :=
  (table_of_lt (lt_of_ascii ascii)).1.trans ascii

theorem isWordChar_of_ascii (ascii : isAsciiWordChar c = true) : isWordChar c = true :=
  (table_of_lt (lt_of_ascii ascii)).2.2.trans ascii

theorem isBlank_of_ascii (ascii : isAsciiWordChar c = true) : isBlank c = false :=
  not_isBlank_of_isWordChar (isWordChar_of_ascii ascii)

theorem isIdentifierStart_of_ascii (ascii : isAsciiWordChar c = true) (letter : c.isDigit = false) :
    isIdentifierStart c = true := by
  rw [(table_of_lt (lt_of_ascii ascii)).2.1, ascii, letter]
  rfl

/-- A mark stands in no identifier. -/
theorem isIdentifierPart_of_mark (mark : isAsciiMark c = true) : isIdentifierPart c = false := by
  rw [isAsciiMark, Bool.and_eq_true, decide_eq_true_eq, Bool.not_eq_true'] at mark
  exact (table_of_lt mark.1).1.trans mark.2

theorem isIdentifierStart_of_mark (mark : isAsciiMark c = true) : isIdentifierStart c = false := by
  rw [isAsciiMark, Bool.and_eq_true, decide_eq_true_eq, Bool.not_eq_true'] at mark
  rw [(table_of_lt mark.1).2.1, mark.2]
  rfl

/-- A name of ASCII is no mark. -/
theorem ne_of_isAsciiWordChar {mark : Char} (ascii : isAsciiWordChar c = true)
    (other : isAsciiWordChar mark = false) : c ≠ mark := by
  rintro rfl
  rw [ascii] at other
  cases other

end Ascii

/-- Whether a text is an identifier of ASCII. -/
def isAsciiName (text : List Char) : Bool :=
  text.all isAsciiWordChar && text.head?.any fun c => !c.isDigit

theorem isIdentifier_of_isAsciiName {text : List Char} (name : isAsciiName text = true) :
    isIdentifier text = true := by
  cases text with
  | nil => cases name
  | cons c text =>
      obtain ⟨word, letter⟩ := Bool.and_eq_true_iff.mp name
      rw [List.all_cons, Bool.and_eq_true] at word
      rw [isIdentifier, Bool.and_eq_true, List.all_eq_true]
      refine ⟨isIdentifierStart_of_ascii word.1 (by simpa using letter), fun d listed => ?_⟩
      exact isIdentifierPart_of_ascii (List.all_eq_true.mp word.2 d listed)

end ProgramIdl.Text
