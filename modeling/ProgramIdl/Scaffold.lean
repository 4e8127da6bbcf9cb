import ProgramIdl.FileTree.Change
import ProgramIdl.Scaffold.Template
import ProgramIdl.Text.Utf8
import ProgramIdl.Text.Words

/-!
# Scaffolding

Lays out the files of a new program in a directory.  Files that are there already are kept, unless the
run is told to overwrite them.
-/

set_option autoImplicit false

namespace ProgramIdl.Scaffold

open ProgramIdl.Text

/-- The address of a program that has not got one of its own yet. -/
def placeholderAddress : String :=
  "GJQcuWrT2f3f4KNuJcXhhwUa1ZQTYbxzzJ1hotzKu8hS"

/-- A file of a project: its path seen from the project's directory, and its text. -/
structure ProjectFile where
  path : String
  text : String
  deriving DecidableEq, Repr

/-- The files of a program with a given name and address. -/
def projectFiles (name : String) (address : String := placeholderAddress) : List ProjectFile :=
  let names : Names := ⟨snakeCase name, pascalCase name, address⟩
  [⟨"Cargo.toml", textOfLines (manifestLines names)⟩,
    ⟨"src/lib.rs", textOfLines (programLines names)⟩,
    ⟨".gitignore", textOfLines ignoredLines⟩]

/-- The path of a file of a project in a directory. -/
def ProjectFile.pathIn (file : ProjectFile) (directory : Path) : Path :=
  directory ++ Path.ofString file.path

/-- Writes a file of a project, with the directories above it. -/
def writeFile (directory : Path) (file : ProjectFile) : FileChange Path := do
  let path := file.pathIn directory
  FileChange.ensureDirectories path.parent
  FileChange.writeFile path (utf8Bytes file.text.toList)
  return path

/-- A change to a workspace that may fail on its way. -/
abbrev Change := ExceptT ScaffoldCause (StateM Workspace)

/-- The first file of a project that is there already. -/
def existing? (workspace : Workspace) (directory : Path) (files : List ProjectFile) :
    Option Path :=
  (files.map fun file => file.pathIn directory).find? fun path => workspace.exists? path

/-- Lays out a new program in a directory, and says which files were written.  A name without letters
and digits is no name for a program. -/
def layOut (directory : Path) (name : String) (force : Bool) : Change (List Path) := do
  if snakeCase name = "" then throw (.invalidName name)
  let files := projectFiles name
  let workspace ← get
  match if force then none else existing? workspace directory files with
  | some path => throw (.wouldOverwrite path)
  | none => ExceptT.adapt (.notWritten directory) (files.mapM (writeFile directory))

/-- What to do with a new program in a directory. -/
def nextSteps (directory name : String) : String :=
  "\n".intercalate
    [s!"Initialized new Pina project at {directory}",
      "",
      "Next steps:",
      s!"  cd {directory}",
      "  cargo build",
      "  pina-idl idl --path . --output idl.json",
      "",
      "Replace the placeholder program id in src/lib.rs before deploying " ++ snakeCase name ++ "."]

end ProgramIdl.Scaffold
