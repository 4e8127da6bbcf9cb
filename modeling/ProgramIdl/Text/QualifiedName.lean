import ProgramIdl.Text.Segments
import ProgramIdl.Text.WordChar

/-!
# Qualified names

A qualified name has segments with `::` between them, and what it names is told by the last one.
-/

set_option autoImplicit false

namespace ProgramIdl.Text

/-- What follows the last `::` of a text, if it has one. -/
def afterLastPathSeparator : List Char → Option (List Char)
  | [] => none
  | c :: rest =>
      match afterLastPathSeparator rest with
      | some segment => some segment
      | none => if [':', ':'].isPrefixOf (c :: rest) then some (rest.drop 1) else none

/-- The last segment of a `::` path; a text without separator is its own last segment. -/
def lastSegment (path : String) : String :=
  match afterLastPathSeparator path.toList with
  | some segment => .ofList segment
  | none => path

/-- The segments of a `::` path. -/
def pathSegments : List Char → List (List Char)
  | [] => [[]]
  | ':' :: ':' :: rest => [] :: pathSegments rest
  | c :: rest => growFirst c (pathSegments rest)

/-- The text without one line break at its end. -/
def dropFinalBreak (text : List Char) : List Char :=
  if text.getLast? = some '\n' then text.dropLast else text

/-- The last segment of a text that is a qualified name of words; one line break may follow it. -/
def qualifiedName? (text : List Char) : Option (List Char) :=
  let segments := pathSegments (dropFinalBreak text)
  if segments.all fun segment => !segment.isEmpty && segment.all isWordChar then segments.getLast?
  else none

/-- The text behind type arguments in angle brackets, if it starts with some. -/
def dropTypeArguments : List Char → List Char
  | '<' :: rest => (rest.dropWhile (· ≠ '>')).drop 1
  | text => text

end ProgramIdl.Text
