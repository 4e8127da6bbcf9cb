import ProgramIdl.FileTree.Basic

/-!
# Changes to file trees

Making directories, writing files, and putting a finished file in the place of another.  A change
that fails may have made directories before.
-/

set_option autoImplicit false

namespace ProgramIdl

/-- A change to a workspace, which may fail on its way. -/
abbrev FileChange := ExceptT IoCause (StateM Workspace)

namespace FileChange

/-- The place that a path leads to. -/
def locate (path : Path) : FileChange Place := do
  match (← get).locate path with
  | .ok place => return place
  | .error obstacle => throw (Workspace.obstacleCause path obstacle)

/-- Writes a file, in the place of another if there is one. -/
def writeFile (path : Path) (content : List UInt8) : FileChange Unit := do
  let place ← locate path
  if (← get).tree.entry? place = some .directory then throw (.isDirectory path)
  modify (·.put place (.file content))

/-- Makes a directory in one that exists. -/
def makeDirectory (path : Path) : FileChange Unit := do
  let place ← locate path
  if ((← get).tree.entry? place).isSome then throw (.alreadyExists path)
  modify (·.put place .directory)

/-- Makes a directory if there is none; those above it must exist. -/
def ensureDirectory (path : Path) : FileChange Unit := fun workspace =>
  match (makeDirectory path).run workspace with
  | (.ok (), changed) => (.ok (), changed)
  | (.error (.missing missing), _) => (.error (.missing missing), workspace)
  | (.error cause, _) =>
      (if workspace.isDirectory path then .ok () else .error cause, workspace)

/-- Makes a directory, and those above it, where there are none; the parts of the path come last
first. -/
def ensureDirectoriesFrom (root : String) : List String → FileChange Unit
  | [] => ensureDirectory ⟨root, []⟩
  | name :: above => fun workspace =>
      let path : Path := ⟨root, (name :: above).reverse⟩
      match (ensureDirectory path).run workspace with
      | (.error (.missing _), _) =>
          (do
            ensureDirectoriesFrom root above
            ensureDirectory path : FileChange Unit).run workspace
      | outcome => outcome

/-- Makes a directory, and those above it, where there are none. -/
def ensureDirectories (path : Path) : FileChange Unit :=
  ensureDirectoriesFrom path.root path.parts.reverse

/-- The first of some names that is not taken in a directory, or the last one tried. -/
def freshName (tree : FileTree) (directory : Place) (nameOf : String → String) (unique : String) :
    Nat → String
  | 0 => nameOf unique
  | tries + 1 =>
      if (tree.entry? (directory ++ [nameOf unique])).isNone then nameOf unique
      else freshName tree directory nameOf (unique ++ "_") tries

/-- The name of a temporary file for the content of another one. -/
def temporaryName (name unique : String) : String :=
  "." ++ name ++ "." ++ unique ++ ".tmp"

/-- The place of a temporary file beside a path that leads to no file of the tree; `unique` tells it
from others. -/
def temporaryPlace (workspace : Workspace) (path : Path) (unique : String) : Place :=
  let directory := workspace.namedPlace path.parent
  directory ++ [freshName workspace.tree directory (temporaryName path.name) unique
    (workspace.tree.entries.length + 1)]

/-- Puts the file at a place where a path leads, unless that is a directory. -/
def replaceFile (temporary : Place) (content : List UInt8) (path : Path) : FileChange Unit := do
  let place ← locate path
  if (← get).tree.entry? place = some .directory then
    throw (.cannotReplace (Workspace.absolute temporary) path)
  modify fun workspace => (workspace.remove temporary).put place (.file content)

/-- Writes a file in one step: a temporary file beside it takes its place when it is finished, and is
removed when it cannot. -/
def writeAtomically (unique : String) (path : Path) (content : List UInt8) : FileChange Unit := do
  let temporary := temporaryPlace (← get) path unique
  modify (·.put temporary (.file content))
  try replaceFile temporary content path
  catch cause =>
    modify (·.remove temporary)
    throw cause

end FileChange

end ProgramIdl
