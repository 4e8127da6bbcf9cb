import ProgramIdl.Manifest
import ProgramIdl.Proofs.Scaffold.Template
import ProgramIdl.Proofs.Toml.Lines

/-!
# What the manifest of a new project says

The manifest is a plain document, and names the package as the project (`packageName?_manifest`).
-/

set_option autoImplicit false

namespace ProgramIdl.Scaffold

open ProgramIdl.Text
open ProgramIdl.Toml

/-- The lines of the manifest of a package with some name. -/
def packageLines (name : String) : List Line :=
  [.header "package", .entry "name" (.text name), .entry "version" (.text "0.1.0"),
    .entry "edition" (.text "2021"), .entry "publish" .scalar, .blank,
    .header "lib", .entry "crate-type" (.array [.text "cdylib", .text "lib"]), .blank,
    .header "features", .entry "bpf-entrypoint" (.array []), .blank,
    .header "dependencies", .entry "pina" (.text libraryVersion)]

theorem lookup_packageLines (name : String) :
    ((packageLines name).foldlM Document.addLine {}).map (fun document =>
      document.root.find? "package") =
      some (some (.table [("name", .text name), ("version", .text "0.1.0"),
        ("edition", .text "2021"), ("publish", .scalar)])) :=
  rfl

section Lines

variable {name : String}

/-- Whether a name may stand without quotes. -/
def isPlain (name : String) : Bool :=
  name ≠ "" && name.toList.all isKeyChar

theorem isPlainName_of_isPlain (plain : isPlain name = true) : IsPlainName name.toList := by
  rw [isPlain, Bool.and_eq_true, decide_eq_true_eq] at plain
  exact ⟨mt String.toList_eq_nil_iff.mp plain.1, fun c member => List.all_eq_true.mp plain.2 c member⟩

theorem writes_header {line : String} (plain : isPlain name = true) (same : line = "[" ++ name ++ "]") :
    Line.Writes line.toList (.header name) := by
  have writes := Line.Writes.header (isPlainName_of_isPlain plain)
  rw [String.ofList_toList] at writes
  simpa [same] using writes

theorem writes_entry {line : String} {written : List Char} {value : Value}
    (writes : WritesValue written value) (plain : isPlain name = true)
    (same : line = name ++ " = " ++ .ofList written) :
    Line.Writes line.toList (.entry name value) := by
  have entry := Line.Writes.entry (isPlainName_of_isPlain plain) writes
  rw [String.ofList_toList] at entry
  simpa [same] using entry

end Lines

/-- The manifest is written line by line, whatever the name of the package is. -/
theorem manifestLines_writes {names : Names} (plain : IsPlainText names.snake.toList)
    (nonempty : names.snake ≠ "") :
    List.Forall₂ Line.Writes ((manifestLines names).map String.toList) (packageLines names.snake) := by
  have text {body : String} (plain : IsPlainText body.toList) (nonempty : body ≠ "") :
      WritesValue ('"' :: (body.toList ++ ['"'])) (.text body) := by
    have writes := writesValue_text plain (mt String.toList_eq_nil_iff.mp nonempty)
    rwa [String.ofList_toList] at writes
  have texts (bodies : List (List Char)) (plain : ∀ body ∈ bodies, IsPlainText body ∧ body ≠ []) :=
    writesValue_texts plain
  refine .cons (writes_header (by decide +kernel) rfl) (.cons ?_ ?_)
  · refine writes_entry (text plain nonempty) (by decide +kernel) ?_
    rw [← String.toList_inj]
    simp
  refine .cons (writes_entry (text (by decide) (by decide)) (by decide +kernel) (by decide +kernel)) ?_
  refine .cons (writes_entry (text (by decide) (by decide)) (by decide +kernel) (by decide +kernel)) ?_
  refine .cons (writes_entry writesValue_false (by decide +kernel) (by decide +kernel)) (.cons .blank ?_)
  refine .cons (writes_header (by decide +kernel) (by decide +kernel)) (.cons ?_ (.cons .blank ?_))
  · exact writes_entry (texts [['c', 'd', 'y', 'l', 'i', 'b'], ['l', 'i', 'b']]
      (by decide)) (by decide +kernel) (by decide +kernel)
  refine .cons (writes_header (by decide +kernel) (by decide +kernel)) (.cons ?_ (.cons .blank ?_))
  · exact writes_entry (texts [] nofun) (by decide +kernel) (by decide +kernel)
  refine .cons (writes_header (by decide +kernel) (by decide +kernel)) (.cons ?_ .nil)
  exact writes_entry (text (by decide) (by decide)) (by decide +kernel) (by decide +kernel)

/-- The manifest of a project names its package as the project. -/
theorem packageName?_manifest {names : Names} (plain : IsPlainText names.snake.toList)
    (nonempty : names.snake ≠ "") :
    ∃ table, Toml.read? (textOfLines (manifestLines names)) = some table ∧
      Manifest.packageName? table = some names.snake := by
  have whole : (textOfLines (manifestLines names)).toList =
      ((manifestLines names).map String.toList).flatMap (· ++ ['\n']) := by
    rw [toList_textOfLines, List.flatMap_map]
  have read := read?_of_writes (manifestLines_writes plain nonempty) whole
  obtain ⟨document, built, found⟩ := Option.map_eq_some_iff.mp (lookup_packageLines names.snake)
  rw [built] at read
  refine ⟨document.root, read, ?_⟩
  rw [Manifest.packageName?, found]
  simp [Table.find?]

end ProgramIdl.Scaffold
