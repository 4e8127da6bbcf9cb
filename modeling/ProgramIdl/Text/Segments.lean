import ProgramIdl.Text.Trim

/-!
# Top-level segments

A list of arguments is text with separators between its segments.  Separators inside brackets or
inside double-quoted strings belong to the segment they stand in.  Brackets are counted, not
matched; a backslash inside a string takes the next character with it.
-/

set_option autoImplicit false

namespace ProgramIdl.Text

/-- Where a reader of segments stands: between strings, inside one, or behind a backslash in one. -/
inductive Quotation where
  | outside
  | inside
  | escaped
  deriving DecidableEq, Repr

/-- The state of a reader of segments. -/
structure Nesting where
  depth : Int := 0
  quotation : Quotation := .outside
  deriving DecidableEq, Repr

/-- The state behind one more character. -/
def Nesting.step (state : Nesting) (c : Char) : Nesting :=
  match state.quotation with
  | .escaped => { state with quotation := .inside }
  | .inside =>
      if c = '\\' then { state with quotation := .escaped }
      else if c = '"' then { state with quotation := .outside }
      else state
  | .outside =>
      if c = '"' then { state with quotation := .inside }
      else if c = '(' ∨ c = '[' ∨ c = '\x7b' then { state with depth := state.depth + 1 }
      else if c = ')' ∨ c = ']' ∨ c = '\x7d' then { state with depth := state.depth - 1 }
      else state

/-- Whether a character means something to the reader itself, so that it separates nothing. -/
def isNestingMark (c : Char) : Bool :=
  c ∈ ['"', '(', '[', '\x7b', ')', ']', '\x7d']

/-- Whether the next character is a separator. -/
def Nesting.separates (state : Nesting) (separator : List Char) (c : Char) : Bool :=
  state = {} && !isNestingMark c && separator = [c]

/-- A character in front of the first of some segments. -/
def growFirst (c : Char) : List (List Char) → List (List Char)
  | [] => [[c]]
  | segment :: rest => (c :: segment) :: rest

/-- The segments of a text as they stand, blanks and empty ones included. -/
def rawSegments (separator : List Char) (state : Nesting) : List Char → List (List Char)
  | [] => [[]]
  | c :: rest =>
      if state.separates separator c then [] :: rawSegments separator state rest
      else growFirst c (rawSegments separator (state.step c) rest)

/-- The trimmed segments of a text; empty ones are dropped. -/
def topLevelSegments (separator text : List Char) : List (List Char) :=
  ((rawSegments separator {} text).map trim).filter fun segment => !segment.isEmpty

/-- The trimmed segments of a text; empty ones are dropped.  A separator of any other length than
one character separates nothing. -/
def splitTopLevel (text : String) (separator : String := ",") : List String :=
  (topLevelSegments separator.toList text.toList).map .ofList

/-- A trimmed text without one pair of delimiters around it, if it has both. -/
def unwrap (opening closing text : List Char) : List Char :=
  let text := trim text
  if opening.isPrefixOf text && closing.isSuffixOf text then
    trim ((text.take (text.length - closing.length)).drop opening.length)
  else text

/-- A trimmed text without one pair of delimiters around it, if it has both. -/
def stripDelimiters (text : String) (opening : String := "(") (closing : String := ")") : String :=
  .ofList (unwrap opening.toList closing.toList text.toList)

end ProgramIdl.Text
