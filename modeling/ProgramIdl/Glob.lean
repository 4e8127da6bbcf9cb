import ProgramIdl.FileTree.Basic

/-!
# File patterns

A pattern names files below a directory, part by part.  In a part, a star stands for any characters,
a question mark for one, and brackets for one of those between them, or for none of them behind an
exclamation mark.  The part `**` stands for any directories.
-/

set_option autoImplicit false

namespace ProgramIdl.Glob

/-! ## Patterns of names -/

/-- The characters between two others. -/
structure CharRange where
  first : Char
  last : Char
  deriving DecidableEq, Repr

/-- One piece of a pattern. -/
inductive Piece where
  | star
  | any
  | one (ranges : List CharRange)
  | noneOf (ranges : List CharRange)
  deriving DecidableEq, Repr

/-- Whether a character lies in some range. -/
def inRanges (ranges : List CharRange) (c : Char) : Bool :=
  ranges.any fun range => range.first ≤ c && c ≤ range.last

/-- The ranges between brackets; a hyphen with characters on both sides makes a range of them. -/
def rangesOf : List Char → List CharRange
  | first :: '-' :: last :: rest => ⟨first, last⟩ :: rangesOf rest
  | c :: rest => ⟨c, c⟩ :: rangesOf rest
  | [] => []

/-- The text up to the bracket that closes a class, and what follows; a bracket in first place does
not close it. -/
def classBody? : List Char → Option (List Char × List Char)
  | [] => none
  | first :: rest =>
      match rest.dropWhile (· ≠ ']') with
      | _ :: behind => some (first :: rest.takeWhile (· ≠ ']'), behind)
      | [] => none

/-- The class behind an opening bracket, and what follows it. -/
def class? : List Char → Option (Piece × List Char)
  | '!' :: rest => (classBody? rest).map fun (body, behind) => (.noneOf (rangesOf body), behind)
  | text => (classBody? text).map fun (body, behind) => (.one (rangesOf body), behind)

/-- The first piece of a pattern, and what follows it; a bracket that is never closed stands for
itself. -/
def piece (c : Char) (rest : List Char) : Piece × List Char :=
  if c = '*' then (.star, rest)
  else if c = '?' then (.any, rest)
  else if c = '[' then (class? rest).getD (.one [⟨c, c⟩], rest)
  else (.one [⟨c, c⟩], rest)

/-- The pieces of a pattern, of which there are at most `limit`. -/
def piecesWithin : Nat → List Char → List Piece
  | 0, _ => []
  | _, [] => []
  | limit + 1, c :: rest =>
      let (first, behind) := piece c rest
      first :: piecesWithin limit behind

/-- The pieces of a pattern. -/
def pieces (text : String) : List Piece :=
  piecesWithin text.length text.toList

/-- Whether a piece stands for a character. -/
def Piece.accepts (c : Char) : Piece → Bool
  | .star | .any => true
  | .one ranges => inRanges ranges c
  | .noneOf ranges => !inRanges ranges c

/-- Whether pieces, the first of them a star, stand for a name; `rest` says so of the pieces behind
it. -/
def starMatches (rest : List Char → Bool) : List Char → Bool
  | [] => rest []
  | c :: name => rest (c :: name) || starMatches rest name

/-- Whether pieces stand for a name. -/
def matchesName : List Piece → List Char → Bool
  | [], name => name.isEmpty
  | .star :: pieces, name => starMatches (matchesName pieces) name
  | piece :: pieces, name =>
      match name with
      | [] => false
      | c :: name => piece.accepts c && matchesName pieces name

/-! ## Patterns of paths -/

/-- Whether a part of a pattern stands for more than itself. -/
def isWild (part : String) : Bool :=
  part.any fun c => c = '*' || c = '?' || c = '['

/-- The names in a directory. -/
def namesIn (tree : FileTree) (place : Place) : List String :=
  (tree.below place).filterMap fun (names, _) =>
    match names with
    | [name] => some name
    | _ => none

/-- The directories at and below a place, by the names that lead from there. -/
def directories (tree : FileTree) (place : Place) : List (List String) :=
  [] :: (tree.below place).filterMap fun (names, entry) =>
    if entry = .directory then some names else none

/-- The names that a part of a pattern stands for in a directory. -/
def expand (tree : FileTree) (place : Place) (part : String) : List String :=
  if isWild part then
    (namesIn tree place).filter fun name => matchesName (pieces part) name.toList
  else [part]

/-- What a pattern stands for below a directory, by the names that lead from there. -/
def select (tree : FileTree) (place : Place) : List String → List (List String)
  | [] => if (tree.entry? place).isSome then [[]] else []
  | part :: rest =>
      if tree.entry? place ≠ some .directory then []
      else if part = "**" then
        (directories tree place).flatMap fun names =>
          (select tree (place ++ names) rest).map (names ++ ·)
      else
        (expand tree place part).flatMap fun name =>
          (select tree (FileTree.step place name) rest).map (name :: ·)

/-- Whether a place is a file. -/
def isFile (tree : FileTree) (place : Place) : Bool :=
  match tree.entry? place with
  | some (.file _) => true
  | _ => false

/-- Whether some names stand in order with others: the first that differ decide, and names stand before
those that they lead to. -/
def namesInOrder : List String → List String → Bool
  | [], _ => true
  | _ :: _, [] => false
  | name :: names, other :: others =>
      if name = other then namesInOrder names others else decide (name < other)

/-- The files anywhere below a directory that a pattern stands for, by the names that lead from
there, in order and each once. -/
def files (tree : FileTree) (place : Place) (pattern : String) : List (List String) :=
  if pattern.endsWith "/" then []
  else
    let found := (select tree place ("**" :: (Path.ofString pattern).parts)).filter fun names =>
      isFile tree (names.foldl FileTree.step place)
    (found.mergeSort namesInOrder).eraseDups

end ProgramIdl.Glob
