/-!
# Paths

A path is a root, which is empty for relative paths, and the names behind it.  Empty names and single
points mean nothing and are dropped; double points are kept, since what they mean depends on the tree
that a path is followed in.
-/

set_option autoImplicit false

namespace ProgramIdl

/-- A path of a file or directory. -/
structure Path where
  /-- The slashes in front: none, one or two. -/
  root : String := ""
  parts : List String := []
  deriving DecidableEq, Repr, Inhabited

namespace Path

/-- The texts between slashes. -/
def splitSlashes : List Char → List (List Char)
  | [] => [[]]
  | c :: rest =>
      if c = '/' then [] :: splitSlashes rest
      else
        match splitSlashes rest with
        | [] => [[c]]
        | part :: parts => (c :: part) :: parts

/-- The root of a path text: exactly two slashes in front are kept, any other number means one. -/
def rootOf (text : List Char) : String :=
  match (text.takeWhile (· = '/')).length with
  | 0 => ""
  | 2 => "//"
  | _ => "/"

/-- A path, read from its text. -/
def ofString (text : String) : Path where
  root := rootOf text.toList
  parts := ((splitSlashes text.toList).filter fun part => part ≠ [] ∧ part ≠ ['.']).map .ofList

/-- The text of a path. -/
def toString (path : Path) : String :=
  if path.root = "" ∧ path.parts = [] then "."
  else path.root ++ "/".intercalate path.parts

instance : ToString Path := ⟨toString⟩

/-- A path followed from another one; an absolute path leads away from it. -/
def append (base path : Path) : Path :=
  if path.root = "" then { base with parts := base.parts ++ path.parts } else path

instance : Append Path := ⟨append⟩

/-- A path with one more name. -/
def child (base : Path) (name : String) : Path :=
  { base with parts := base.parts ++ [name] }

/-- The path without its last name. -/
def parent (path : Path) : Path :=
  { path with parts := path.parts.dropLast }

/-- The last name of a path. -/
def name (path : Path) : String :=
  path.parts.getLast?.getD ""

/-- The path, if it is not the empty relative one. -/
def isHere (path : Path) : Bool :=
  path.root = "" && path.parts.isEmpty

end Path

end ProgramIdl
