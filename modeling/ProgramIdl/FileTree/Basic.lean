import ProgramIdl.Failure

/-!
# File trees

Directories and regular files, each at a place: the names that lead to it from the root.  Paths are
followed name by name through directories that exist, and double points lead back up.
-/

set_option autoImplicit false

namespace ProgramIdl

/-- The names that lead from the root to a file or directory. -/
abbrev Place := List String

/-- What stands at a place. -/
inductive Entry where
  | file (content : List UInt8)
  | directory
  deriving DecidableEq, Repr, Inhabited

/-- A tree of files and directories; the root itself is always there. -/
structure FileTree where
  entries : List (Place × Entry) := []
  deriving DecidableEq, Repr, Inhabited

namespace FileTree

/-- What stands at a place. -/
def entry? (tree : FileTree) (place : Place) : Option Entry :=
  if place = [] then some .directory else tree.entries.lookup place

/-- The tree with something else at a place. -/
def put (tree : FileTree) (place : Place) (entry : Entry) : FileTree where
  entries := (place, entry) :: tree.entries.filter fun held => held.1 ≠ place

/-- The tree with nothing at a place. -/
def remove (tree : FileTree) (place : Place) : FileTree where
  entries := tree.entries.filter fun held => held.1 ≠ place

/-- The names that lead from a place to one below it. -/
def namesBelow? (place other : Place) : Option (List String) :=
  match place.isPrefixOf? other with
  | some [] | none => none
  | names => names

/-- Everything below a place, by the names that lead from there. -/
def below (tree : FileTree) (place : Place) : List (List String × Entry) :=
  tree.entries.filterMap fun (other, entry) =>
    (namesBelow? place other).map fun names => (names, entry)

/-- The place one name further. -/
def step (place : Place) (name : String) : Place :=
  if name = ".." then place.dropLast else place ++ [name]

/-- Why a place cannot be reached. -/
inductive Obstacle where
  | missing
  | notDirectory
  deriving DecidableEq, Repr

/-- The place that names lead to from another one, through directories. -/
def follow (tree : FileTree) (place : Place) : List String → Except Obstacle Place
  | [] => .ok place
  | name :: rest =>
      match tree.entry? place with
      | some .directory => follow tree (step place name) rest
      | some (.file _) => .error .notDirectory
      | none => .error .missing

end FileTree

/-- A tree, and the directory in it that relative paths start from. -/
structure Workspace where
  tree : FileTree := {}
  here : Place := []
  deriving DecidableEq, Repr, Inhabited

namespace Workspace

open FileTree (Obstacle)

/-- The place that a path starts from. -/
def start (workspace : Workspace) (path : Path) : Place :=
  if path.root = "" then workspace.here else []

/-- The place that a path leads to. -/
def locate (workspace : Workspace) (path : Path) : Except Obstacle Place :=
  workspace.tree.follow (workspace.start path) path.parts

/-- What stands where a path leads. -/
def entry? (workspace : Workspace) (path : Path) : Option Entry :=
  match workspace.locate path with
  | .ok place => workspace.tree.entry? place
  | .error _ => none

/-- Whether something stands where a path leads. -/
def exists? (workspace : Workspace) (path : Path) : Bool :=
  (workspace.entry? path).isSome

/-- Whether a path leads to a directory. -/
def isDirectory (workspace : Workspace) (path : Path) : Bool :=
  workspace.entry? path = some .directory

/-- Whether a path leads to a file. -/
def isFile (workspace : Workspace) (path : Path) : Bool :=
  match workspace.entry? path with
  | some (.file _) => true
  | _ => false

/-- The workspace with something else at a place. -/
def put (workspace : Workspace) (place : Place) (entry : Entry) : Workspace :=
  { workspace with tree := workspace.tree.put place entry }

/-- The workspace with nothing at a place. -/
def remove (workspace : Workspace) (place : Place) : Workspace :=
  { workspace with tree := workspace.tree.remove place }

/-- The place that a path names when double points are taken at their word: each takes back the name
before it. -/
def namedPlace (workspace : Workspace) (path : Path) : Place :=
  path.parts.foldl FileTree.step (workspace.start path)

/-- The absolute path of a place. -/
def absolute (place : Place) : Path :=
  ⟨"/", place⟩

/-- The cause of a failure to reach what a path names. -/
def obstacleCause (path : Path) : Obstacle → IoCause
  | .missing => .missing path
  | .notDirectory => .notDirectory path

/-- The content of a file. -/
def readFile (workspace : Workspace) (path : Path) : Except IoCause (List UInt8) :=
  match workspace.locate path with
  | .error obstacle => .error (obstacleCause path obstacle)
  | .ok place =>
      match workspace.tree.entry? place with
      | some (.file content) => .ok content
      | some .directory => .error (.isDirectory path)
      | none => .error (.missing path)

end Workspace

end ProgramIdl
