/-!
# Lines

A text falls into lines at any of the line and paragraph separators; a line feed behind a carriage
return belongs to the same break, and a break at the very end opens no further line.
-/

set_option autoImplicit false

namespace ProgramIdl.Text

/-- The characters that end a line. -/
def isLineBreak (c : Char) : Bool :=
  c.toNat ∈ [0x0A, 0x0B, 0x0C, 0x0D, 0x1C, 0x1D, 0x1E, 0x85, 0x2028, 0x2029]

/-- A character in front of the first of some lines. -/
def growLine (c : Char) : List (List Char) → List (List Char)
  | [] => [[c]]
  | line :: rest => (c :: line) :: rest

/-- The lines of a text, without their breaks. -/
def lines : List Char → List (List Char)
  | [] => []
  | '\x0d' :: '\n' :: rest => [] :: lines rest
  | c :: rest => if isLineBreak c then [] :: lines rest else growLine c (lines rest)

/-- The text with every carriage return, alone or before a line feed, read as a line feed. -/
def normalizeNewlines : List Char → List Char
  | [] => []
  | '\x0d' :: '\n' :: rest => '\n' :: normalizeNewlines rest
  | c :: rest => (if c = '\x0d' then '\n' else c) :: normalizeNewlines rest

end ProgramIdl.Text
