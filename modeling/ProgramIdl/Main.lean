import ProgramIdl.CommandLine.Run

/-!
# The program

Reads the part of the file system that a request is about, does what was asked for, and writes back
the files and directories that came of it.  What is done is decided in the command line; this module
only carries texts in and out.
-/

set_option autoImplicit false

namespace ProgramIdl.CommandLine

/-! ## Reading -/

/-- The paths that a request looks at, each reached through those in front of it. -/
def Request.paths : Request → List Path
  | .help _ => []
  | .idl _ call =>
      [Manifest.pathIn call.path, call.path.child ({} : Config).sourceDirectory] ++
        call.output.toList
  | .init _ call => (Scaffold.projectFiles call.name).map fun file => file.pathIn call.path

/-- The places that a request looks at with everything below them. -/
def Request.trees (workspace : Workspace) : Request → List Place
  | .idl _ call =>
      ((workspace.locate (Generate.sourceRoot {} workspace call.path)).toOption).toList
  | _ => []

/-- What stands at a place of the file system. -/
def readEntry (place : Place) : IO (Option Entry) := do
  let path := System.mkFilePath ["/" ++ "/".intercalate place]
  match ← path.metadata.toBaseIO with
  | .error _ => return none
  | .ok metadata =>
      match metadata.type with
      | .dir => return some .directory
      | .file => return some (.file (← IO.FS.readBinFile path).toList)
      | _ => return none

/-- Adds what stands at a place, and at all those passed on the way there from another one. -/
def readPlaces (tree : FileTree) (place : Place) : List String → IO FileTree
  | [] => return tree
  | name :: rest => do
      let next := FileTree.step place name
      match ← readEntry next with
      | some entry => readPlaces (tree.put next entry) next rest
      | none => readPlaces tree next rest

/-- Adds everything below a place; links to directories are not followed. -/
partial def readTree (tree : FileTree) (place : Place) : IO FileTree := do
  let path := System.mkFilePath ["/" ++ "/".intercalate place]
  match ← path.readDir.toBaseIO with
  | .error _ => return tree
  | .ok found =>
      found.toList.foldlM (fun tree held => do
        let below := place ++ [held.fileName]
        match ← readEntry below with
        | none => return tree
        | some entry =>
            let tree := tree.put below entry
            let linked := (← held.path.symlinkMetadata).type == .symlink
            if entry = .directory && !linked then readTree tree below else return tree) tree

/-- The part of the file system that a request is about. -/
def readWorkspace (here : Place) (request : Request) : IO Workspace := do
  let paths := Workspace.absolute here :: request.paths
  let tree ← paths.foldlM (fun tree path => readPlaces tree [] path.parts) {}
  let tree ← (request.trees ⟨tree, here⟩).foldlM readTree tree
  return ⟨tree, here⟩

/-! ## Writing -/

/-- Writes a file or makes a directory; a file is put in its place when it is finished. -/
def writeEntry (unique : String) (place : Place) (entry : Entry) : IO Unit := do
  let text := (Workspace.absolute place).toString
  match entry with
  | .directory => IO.FS.createDirAll text
  | .file content =>
      let beside := Workspace.absolute place.dropLast
      let temporary :=
        beside.child (FileChange.temporaryName (place.getLast?.getD "") unique)
      IO.FS.writeBinFile temporary.toString ⟨content.toArray⟩
      IO.FS.rename temporary.toString text

/-- Writes what a run has changed, directories before what they hold. -/
def writeChanges (unique : String) (before after : FileTree) : IO Unit :=
  let changed := after.entries.filter fun (place, entry) => before.entry? place ≠ some entry
  let ordered := changed.mergeSort fun held other => held.1.length ≤ other.1.length
  ordered.forM fun (place, entry) => writeEntry unique place entry

/-- Runs the command line on the file system. -/
def runOnFiles (arguments : List String) : IO UInt32 := do
  let unique := String.join ((← IO.getRandomBytes 4).toList.map fun byte =>
    String.ofList (Nat.toDigits 16 byte.toNat))
  let here := (Path.ofString (← IO.currentDir).toString).parts
  let workspace ←
    match Request.ofArguments ⟨{}, here⟩ arguments with
    | .error _ => pure ⟨{}, here⟩
    | .ok request => readWorkspace here request
  let (report, changed) := (run unique arguments).run workspace
  writeChanges unique workspace.tree changed.tree
  IO.print report.output
  IO.eprint report.errors
  return report.exit

end ProgramIdl.CommandLine

/-- Runs the command line and leaves its exit status. -/
def main (arguments : List String) : IO UInt32 :=
  ProgramIdl.CommandLine.runOnFiles arguments
