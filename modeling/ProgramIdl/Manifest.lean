import ProgramIdl.FileTree.Basic
import ProgramIdl.Text.Lines
import ProgramIdl.Toml.Read

/-!
# Manifests

Every program has a manifest in its directory, which may name its package.  Texts are read from files
as UTF-8, with every kind of line break read as a line feed.
-/

set_option autoImplicit false

namespace ProgramIdl

open ProgramIdl.Text

/-- The text of a file. -/
def Workspace.readText (workspace : Workspace) (path : Path) : Except Failure String :=
  match workspace.readFile path with
  | .error cause => .error (.io path cause)
  | .ok bytes =>
      match utf8Decode bytes with
      | .error error => .error (.io path (.undecodable error))
      | .ok text => .ok (.ofList (normalizeNewlines text))

namespace Manifest

/-- The path of the manifest of a program. -/
def pathIn (program : Path) : Path :=
  program.child "Cargo.toml"

/-- The name of the package that a manifest describes; an empty name is none. -/
def packageName? (manifest : Toml.Table) : Option String :=
  match manifest.find? "package" with
  | some (.table package) =>
      match Toml.Table.find? package "name" with
      | some (.text "") => none
      | some (.text name) => some name
      | _ => none
  | _ => none

/-- The name of the package in the directory of a program. -/
def readPackageName (workspace : Workspace) (program : Path) : Except Failure (Option String) := do
  let path := pathIn program
  match Toml.read? (← workspace.readText path) with
  | some manifest => return packageName? manifest
  | none => throw (.malformed path none "")

end Manifest

end ProgramIdl
