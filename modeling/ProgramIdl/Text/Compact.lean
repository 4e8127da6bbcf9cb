import ProgramIdl.Text.Trim

/-!
# Compact source text

Expressions and types are compared and shown as text, so their layout is taken out of them: runs of
blanks become one space, none is left at the ends, and none beside `::`, `.` or `?`.
-/

set_option autoImplicit false

namespace ProgramIdl.Text

/-- One space for each run of blanks before a visible character; `waiting` says that such a run has
just been read.  Blanks at the end leave nothing. -/
def collapseBlanks (waiting : Bool) : List Char → List Char
  | [] => []
  | c :: rest =>
      if isBlank c then collapseBlanks true rest
      else if waiting then ' ' :: c :: collapseBlanks false rest
      else c :: collapseBlanks false rest

/-- The text with every run of blanks collapsed to one space, and none at the ends. -/
def normalizeBlanks (text : List Char) : List Char :=
  collapseBlanks false (trimStart text)

/-- The text without the spaces that stand directly before a mark. -/
def dropSpacesBefore (mark : List Char) : List Char → List Char
  | [] => []
  | c :: rest =>
      if c = ' ' ∧ mark.isPrefixOf rest then dropSpacesBefore mark rest
      else c :: dropSpacesBefore mark rest

/-- The text without the spaces that stand directly after a mark; `before` holds what has been read,
last character first. -/
def dropSpacesAfter (mark : List Char) (before : List Char) : List Char → List Char
  | [] => []
  | c :: rest =>
      if c = ' ' ∧ mark.reverse.isPrefixOf before then dropSpacesAfter mark (c :: before) rest
      else c :: dropSpacesAfter mark (c :: before) rest

/-- The text without the spaces on either side of a mark. -/
def closeUp (text mark : List Char) : List Char :=
  dropSpacesAfter mark [] (dropSpacesBefore mark text)

/-- The marks that stand without spaces around them in compact text. -/
def closedMarks : List (List Char) :=
  [[':', ':'], ['.'], ['?']]

/-- The compact form of a text. -/
def compactChars (text : List Char) : List Char :=
  closedMarks.foldl closeUp (normalizeBlanks text)

/-- The compact form of a text. -/
def compact (text : String) : String :=
  .ofList (compactChars text.toList)

end ProgramIdl.Text
