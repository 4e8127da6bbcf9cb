import ProgramIdl.Glob
import ProgramIdl.Manifest
import ProgramIdl.Program.Assemble
import ProgramIdl.Schema

/-!
# Generating a schema

From the directory of a program to the text of its schema: its manifest names the program, its source
files declare it.
-/

set_option autoImplicit false

namespace ProgramIdl

/-- How schemas are generated. -/
structure Config where
  /-- The name of the program in place of the package's name. -/
  nameOverride : Option String := none
  /-- The name of a program whose package has none. -/
  fallbackName : String := "unknown_program"
  /-- The directory of the source files, seen from that of the program. -/
  sourceDirectory : String := "src"
  /-- The pattern of source files. -/
  sourcePattern : String := "*.rs"
  knownAddresses : KnownAddresses := .standard
  deriving DecidableEq, Repr, Inhabited

namespace Generate

/-- The version that schemas are marked with. -/
def version : String := "0.1.0"

/-- The name of a program; an empty name in place of the package's is none. -/
def programName (config : Config) (workspace : Workspace) (program : Path) :
    Except Failure String :=
  match config.nameOverride.getD "" with
  | "" => do return (← Manifest.readPackageName workspace program).getD config.fallbackName
  | name => .ok name

/-- The directory of the source files of a program: its own if it has no other. -/
def sourceRoot (config : Config) (workspace : Workspace) (program : Path) : Path :=
  let directory := program ++ Path.ofString config.sourceDirectory
  if workspace.isDirectory directory then directory else program

/-- The source files of a program, in the order of the parts of their paths. -/
def sourceFiles (config : Config) (workspace : Workspace) (program : Path) :
    Except Failure (List Path) :=
  if workspace.isDirectory program then
    let root := sourceRoot config workspace program
    match workspace.locate root with
    | .ok place =>
        .ok ((Glob.files workspace.tree place config.sourcePattern).map fun names =>
          root ++ (⟨"", names⟩ : Path))
    | .error _ => .ok []
  else .error (.io program .programNotDirectory)

/-- The declarations of a source file. -/
def scanFile (workspace : Workspace) (path : Path) : Reporting ScannedFile := do
  scan path.toString (← workspace.readText path)

/-- The program in a directory. -/
def readProgram (config : Config) (workspace : Workspace) (program : Path) :
    Reporting Program := do
  let name ← programName config workspace program
  let paths ← sourceFiles config workspace program
  report (.generating name paths.length)
  let files ← paths.mapM (scanFile workspace)
  assemble config.knownAddresses name files

/-- The text of the schema of the program in a directory. -/
def schemaText (config : Config) (workspace : Workspace) (program : Path) (style : Json.Style) :
    Reporting String := do
  Schema.textOf version style (← readProgram config workspace program)

end Generate

end ProgramIdl
