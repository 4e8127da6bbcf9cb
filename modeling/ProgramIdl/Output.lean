import ProgramIdl.FileTree.Change
import ProgramIdl.Json.Read
import ProgramIdl.Text.Utf8

/-!
# Writing schemas

A schema is checked to be JSON and written to a file in one step, so that no run leaves half of it
behind.  A file that is there already is kept, unless the run is told to overwrite it.
-/

set_option autoImplicit false

namespace ProgramIdl

/-- What happens to a file that is there already. -/
inductive OutputMode where
  | keep
  | overwrite
  deriving DecidableEq, Repr, Inhabited

/-- How schemas are written. -/
structure OutputConfig where
  mode : OutputMode := .keep
  /-- Whether the content must be JSON. -/
  checks : Bool := true
  /-- Whether the file is written in one step. -/
  atomic : Bool := true
  deriving DecidableEq, Repr, Inhabited

namespace Output

/-- A change to a workspace that may fail on its way. -/
abbrev Change := ExceptT Failure (StateM Workspace)

/-- A change that fails for a reason of the file at a path. -/
def atPath (path : Path) (change : FileChange Unit) : Change Unit :=
  change.adapt (.io path)

/-- Writes the bytes of a file, with the directories above it. -/
def writeBytes (config : OutputConfig) (unique : String) (path : Path) (content : List UInt8) :
    FileChange Unit := do
  FileChange.ensureDirectories path.parent
  if config.atomic then FileChange.writeAtomically unique path content
  else FileChange.writeFile path content

/-- Checks that a text is JSON.  Only the fault that it is not is reported as one of the schema. -/
def check (content : String) : Except Failure Unit :=
  match Json.read content with
  | .ok _ => .ok ()
  | .error .notJson => .error (.serialization .notJson)
  | .error (.tooManyDigits digits) => .error (.unreadable digits)

/-- Writes a file; `unique` tells its temporary file from others. -/
def write (config : OutputConfig) (unique : String) (path : Path) (content : String) :
    Change Unit := do
  if config.mode = .keep && (← get).exists? path then throw (.io path (.outputExists path))
  if config.checks then liftM (check content)
  atPath path (writeBytes config unique path (Text.utf8Bytes content.toList))

end Output

end ProgramIdl
