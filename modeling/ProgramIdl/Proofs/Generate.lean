import ProgramIdl.Generate
import ProgramIdl.Proofs.Glob
import ProgramIdl.Proofs.Pass
import ProgramIdl.Proofs.Text.Utf8

/-!
# From a directory to a schema

What comes of reading a program is what comes of its name, its files and their assembly, one after the
other (`Generate.outcome_readProgram`).
-/

set_option autoImplicit false

namespace ProgramIdl

open ProgramIdl.Text

/-! ## Reading files -/

theorem normalizeNewlines_eq_self {text : List Char} (plain : '\x0d' ∉ text) :
    normalizeNewlines text = text := by
  induction text with
  | nil => rfl
  | cons c rest inductionHypothesis =>
      rw [List.mem_cons, not_or] at plain
      rw [normalizeNewlines.eq_3 _ _ (fun _ same _ => plain.1 same.symm), if_neg (Ne.symm plain.1),
        inductionHypothesis plain.2]

/-- A text without carriage returns is read as it was written. -/
theorem Workspace.readText_utf8Bytes {workspace : Workspace} {path : Path} {text : String}
    (held : workspace.readFile path = .ok (utf8Bytes text.toList))
    (plain : '\x0d' ∉ text.toList) : workspace.readText path = .ok text := by
  rw [Workspace.readText, held]
  dsimp only
  rw [utf8Decode_utf8Bytes]
  dsimp only
  rw [normalizeNewlines_eq_self plain, String.ofList_toList]

namespace Generate

section SourceFiles

variable {config : Config} {workspace : Workspace} {program : Path} {part name : String}
  {content : List UInt8}

/-- The file that stands alone in the directory of source files is the source file of a program. -/
theorem sourceFiles_of_alone (found : workspace.isDirectory program = true)
    (source : workspace.isDirectory (program ++ Path.ofString config.sourceDirectory) = true)
    (names : Glob.NamesFile config.sourcePattern part name)
    (held : workspace.tree.entry? (workspace.namedPlace
      (program ++ Path.ofString config.sourceDirectory) ++ [name]) = some (.file content))
    (alone : ∀ names, names ≠ [] → (workspace.tree.entry? (workspace.namedPlace
      (program ++ Path.ofString config.sourceDirectory) ++ names)).isSome → names = [name]) :
    sourceFiles config workspace program =
      .ok [program ++ Path.ofString config.sourceDirectory ++ (⟨"", [name]⟩ : Path)] := by
  obtain ⟨located, directory⟩ := Workspace.exists_of_isDirectory source
  rw [sourceFiles, if_pos found, sourceRoot, if_pos source]
  dsimp only
  rw [located]
  dsimp only
  rw [Glob.files_of_alone names directory held alone]
  rfl

end SourceFiles

theorem outcome_readProgram (config : Config) (workspace : Workspace) (program : Path) :
    (readProgram config workspace program).outcome = (do
      let name ← programName config workspace program
      let paths ← sourceFiles config workspace program
      let files ← (paths.mapM (scanFile workspace)).outcome
      (assemble config.knownAddresses name files).outcome) := by
  rw [readProgram]
  simp only [Reporting.outcome_bind, Reporting.outcome_lift, Reporting.outcome_report]
  rfl

theorem outcome_schemaText (config : Config) (workspace : Workspace) (program : Path)
    (style : Json.Style) : (schemaText config workspace program style).outcome = (do
      let read ← (readProgram config workspace program).outcome
      Schema.textOf version style read) := by
  rw [schemaText]
  simp only [Reporting.outcome_bind, Reporting.outcome_lift]

theorem outcome_scanFile (workspace : Workspace) (path : Path) :
    (scanFile workspace path).outcome = (do
      let text ← workspace.readText path
      (scan path.toString text).outcome) := by
  rw [scanFile]
  simp only [Reporting.outcome_bind, Reporting.outcome_lift]

end Generate

end ProgramIdl
