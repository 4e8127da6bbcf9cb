import ProgramIdl.Text.CodePoints

/-!
# Blank characters

White space as the readers of source metadata take it: the Unicode property `White_Space` together
with the four separators U+001C to U+001F.
-/

set_option autoImplicit false

namespace ProgramIdl.Text

/-- The ranges of blank characters. -/
def blankRanges : CodePoints :=
  [(0x9, 0xD), (0x1C, 0x20), (0x85, 0x85), (0xA0, 0xA0), (0x1680, 0x1680), (0x2000, 0x200A),
   (0x2028, 0x2029), (0x202F, 0x202F), (0x205F, 0x205F), (0x3000, 0x3000)]

/-- Whether a character is blank. -/
def isBlank (c : Char) : Bool :=
  CodePoints.contains blankRanges c.toNat

theorem blankRanges_wellFormed : blankRanges.WellFormed := by
  simp [blankRanges, CodePoints.WellFormed]

/-- What core calls white space is blank. -/
theorem isBlank_of_isWhitespace {c : Char} (white : c.isWhitespace = true) : isBlank c = true := by
  simp only [Char.isWhitespace, Bool.or_eq_true, decide_eq_true_eq] at white
  rcases white with ((rfl | rfl) | rfl) | rfl <;> decide

end ProgramIdl.Text
