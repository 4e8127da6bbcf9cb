import ProgramIdl.Proofs.Output
import ProgramIdl.Scaffold

/-!
# How a project is written

The files of a project are written one after the other.  Whoever is refused at the first one leaves
everything as it was; whoever is refused at a later one leaves those before it behind
(`layOut_allOrNothing`).
-/

set_option autoImplicit false

namespace ProgramIdl

/-! ## Files beside each other -/

/-- Two places of which neither lies above the other. -/
def FileTree.Apart (place other : Place) : Prop :=
  ¬ place <+: other ∧ ¬ other <+: place

theorem FileTree.Apart.append_left {place other : Place} (apart : Apart place other) (base : Place) :
    Apart (base ++ place) (base ++ other) :=
  ⟨mt (List.prefix_append_right_inj base).mp apart.1,
    mt (List.prefix_append_right_inj base).mp apart.2⟩

section Wrote

variable {before after : Workspace} {place other : Place} {content : List UInt8}

/-- Writing a file changes nothing for files elsewhere. -/
theorem Workspace.Wrote.writable_iff (wrote : before.Wrote after place content)
    (apart : FileTree.Apart place other) : after.tree.Writable other ↔ before.tree.Writable other := by
  have here : after.tree.entry? other = before.tree.entry? other := wrote.kept other apart.2
  have above (upper : Place) (within : upper <+: other) :
      (after.tree.entry? upper = some .directory ∨ after.tree.entry? upper = none) ↔
        (before.tree.entry? upper = some .directory ∨ before.tree.entry? upper = none) := by
    by_cases shared : upper <+: place
    · have different : upper ≠ place := by
        rintro rfl
        exact apart.1 within
      exact iff_of_true (.inl (wrote.leads upper shared different))
        (wrote.writable.above upper shared different)
    · rw [wrote.kept upper shared]
  constructor
  · intro writable
    exact ⟨fun upper within different => (above upper within).mp
      (writable.above upper within different), here ▸ writable.here⟩
  · intro writable
    exact ⟨fun upper within different => (above upper within).mpr
      (writable.above upper within different), here.symm ▸ writable.here⟩

theorem Workspace.Wrote.anchored {path : Path} (wrote : before.Wrote after place content)
    (anchored : before.Anchored path) : after.Anchored path := by
  refine anchored.of_kept wrote.here fun upper directory => ?_
  refine wrote.keeps ?_ directory
  rintro rfl
  exact wrote.writable.here directory

end Wrote

namespace Scaffold

open ProgramIdl.Text

/-! ## Writing files -/

/-- The names that lead from the directory of a project to a file of it. -/
def ProjectFile.names (file : ProjectFile) : List String :=
  (Path.ofString file.path).parts

/-- A file whose path leads down from the directory of its project. -/
structure ProjectFile.Inside (file : ProjectFile) : Prop where
  relative : (Path.ofString file.path).root = ""
  plain : ".." ∉ file.names

/-- Files written one after the other below a place. -/
inductive WroteFiles (root : Place) : Workspace → List ProjectFile → Workspace → Prop where
  | nil (workspace : Workspace) : WroteFiles root workspace [] workspace
  | cons {before middle after : Workspace} {file : ProjectFile} {rest : List ProjectFile}
      (wrote : before.Wrote middle (root ++ file.names) (utf8Bytes file.text.toList))
      (later : WroteFiles root middle rest after) :
      WroteFiles root before (file :: rest) after

section Files

variable {workspace : Workspace} {directory : Path} {file : ProjectFile}

theorem ProjectFile.Inside.pathIn (inside : file.Inside) :
    file.pathIn directory = ⟨directory.root, directory.parts ++ file.names⟩ := by
  change directory.append (Path.ofString file.path) = _
  rw [Path.append, if_pos inside.relative]
  rfl

theorem ProjectFile.Inside.namedPlace (inside : file.Inside) :
    workspace.namedPlace (file.pathIn directory) =
      workspace.namedPlace directory ++ file.names := by
  rw [inside.pathIn, Workspace.namedPlace, List.foldl_append, FileTree.foldl_step inside.plain]
  rfl

theorem ProjectFile.Inside.anchored (inside : file.Inside) (anchored : workspace.Anchored directory) :
    workspace.Anchored (file.pathIn directory) := by
  obtain ⟨front, back, split, plain, found⟩ := anchored
  rw [inside.pathIn]
  refine ⟨front, back ++ file.names, by simp [split], ?_, found⟩
  rw [List.mem_append, not_or]
  exact ⟨plain, inside.plain⟩

/-- A file is written, or nothing changes. -/
theorem run_writeFile (wellFormed : workspace.WellFormed) (anchored : workspace.Anchored directory)
    (inside : file.Inside) :
    (∃ after, (writeFile directory file).run workspace = (.ok (file.pathIn directory), after) ∧
      workspace.Wrote after (workspace.namedPlace directory ++ file.names)
        (utf8Bytes file.text.toList)) ∨
    ∃ cause, (writeFile directory file).run workspace = (.error cause, workspace) ∧
      ¬ workspace.tree.Writable (workspace.namedPlace directory ++ file.names) := by
  have shape : writeFile directory file =
      Output.writeBytes { atomic := false } "" (file.pathIn directory)
        (utf8Bytes file.text.toList) >>= fun _ => pure (file.pathIn directory) := by
    rw [Output.writeBytes, bind_assoc]
    rfl
  rw [shape, run_andThen, ← inside.namedPlace]
  obtain ⟨after, ran, wrote⟩ | ⟨cause, ran, refused⟩ :=
    Output.run_writeBytes wellFormed (inside.anchored anchored) { atomic := false } ""
      (utf8Bytes file.text.toList)
  · rw [ran]
    exact .inl ⟨after, rfl, wrote⟩
  · rw [ran]
    exact .inr ⟨cause, rfl, refused⟩

/-- Files apart from each other are all written, or those before the first that cannot be. -/
theorem run_writeFiles {files : List ProjectFile} (wellFormed : workspace.WellFormed)
    (anchored : workspace.Anchored directory) (inside : ∀ file ∈ files, file.Inside)
    (apart : files.Pairwise fun file other => FileTree.Apart file.names other.names) :
    (∃ after, (files.mapM (writeFile directory)).run workspace =
        (.ok (files.map fun file => file.pathIn directory), after) ∧
      WroteFiles (workspace.namedPlace directory) workspace files after) ∨
    ∃ cause after written file rest, files = written ++ file :: rest ∧
      (files.mapM (writeFile directory)).run workspace = (.error cause, after) ∧
        WroteFiles (workspace.namedPlace directory) workspace written after ∧
          ¬ workspace.tree.Writable (workspace.namedPlace directory ++ file.names) := by
  induction files generalizing workspace with
  | nil => exact .inl ⟨workspace, rfl, .nil workspace⟩
  | cons file files inductionHypothesis =>
      obtain ⟨here, others⟩ := List.forall_mem_cons.mp inside
      obtain ⟨apartHere, apartOthers⟩ := List.pairwise_cons.mp apart
      rw [List.mapM_cons, run_andThen]
      obtain ⟨middle, ran, wrote⟩ | ⟨cause, ran, refused⟩ := run_writeFile wellFormed anchored here
      · rw [ran]
        dsimp only
        rw [run_andThen]
        have samePlace : middle.namedPlace directory = workspace.namedPlace directory := by
          rw [Workspace.namedPlace, Workspace.start, wrote.here]
          rfl
        obtain ⟨after, ranLater, later⟩ |
          ⟨cause, after, written, refusedFile, rest, split, ranLater, later, refused⟩ :=
          inductionHypothesis (wrote.wellFormed wellFormed) (wrote.anchored anchored) others
            apartOthers
        · rw [ranLater]
          rw [samePlace] at later
          exact .inl ⟨after, rfl, .cons wrote later⟩
        · rw [ranLater]
          rw [samePlace] at later refused
          have listed : refusedFile ∈ files := by rw [split]; simp
          rw [wrote.writable_iff ((apartHere refusedFile listed).append_left _)] at refused
          exact .inr ⟨cause, after, file :: written, refusedFile, rest, by rw [split]; rfl, rfl,
            .cons wrote later, refused⟩
      · rw [ran]
        exact .inr ⟨cause, workspace, [], file, files, rfl, rfl, .nil workspace, refused⟩

end Files

/-! ## Laying out a project -/

theorem inside_of_mem_projectFiles {name address : String} :
    ∀ file ∈ projectFiles name address, file.Inside := by
  have inside {path text : String} (relative : (Path.ofString path).root = "")
      (plain : ".." ∉ (Path.ofString path).parts) : ProjectFile.Inside ⟨path, text⟩ :=
    ⟨relative, plain⟩
  intro file listed
  simp only [projectFiles, List.mem_cons, List.not_mem_nil, or_false] at listed
  rcases listed with rfl | rfl | rfl <;> exact inside (by decide +kernel) (by decide +kernel)

theorem projectFiles_apart (name address : String) : (projectFiles name address).Pairwise
    fun file other => FileTree.Apart file.names other.names := by
  have manifest : Path.ofString "Cargo.toml" = ⟨"", ["Cargo.toml"]⟩ := by decide +kernel
  have program : Path.ofString "src/lib.rs" = ⟨"", ["src", "lib.rs"]⟩ := by decide +kernel
  have ignored : Path.ofString ".gitignore" = ⟨"", [".gitignore"]⟩ := by decide +kernel
  simp [projectFiles, FileTree.Apart, ProjectFile.names, manifest, program, ignored]

theorem run_layOut (directory : Path) (name : String) (force : Bool) (workspace : Workspace) :
    (layOut directory name force).run workspace =
      if snakeCase name = "" then (.error (.invalidName name), workspace)
      else
        match if force then none else existing? workspace directory (projectFiles name) with
        | some path => (.error (.wouldOverwrite path), workspace)
        | none =>
            ((((projectFiles name).mapM (writeFile directory)).run workspace).1.mapError
              (.notWritten directory),
              (((projectFiles name).mapM (writeFile directory)).run workspace).2) := by
  rw [layOut]
  by_cases empty : snakeCase name = ""
  · rw [if_pos empty, if_pos empty]
    rfl
  · rw [if_neg empty, if_neg empty, run_andThen, run_get]
    dsimp only
    generalize projectFiles name = files
    generalize (if force then none else existing? workspace directory files) = existing
    cases existing <;> rfl

/-- A workspace in which the first files of a project are written, at least one, and the next one
could not be written from the start. -/
def BrokenOff (workspace : Workspace) (directory : Path) (name : String) (after : Workspace) : Prop :=
  ∃ written file rest, written ≠ [] ∧ projectFiles name = written ++ file :: rest ∧
    WroteFiles (workspace.namedPlace directory) workspace written after ∧
      ¬ workspace.tree.Writable (workspace.namedPlace directory ++ file.names)

/-- Where laying out a project fails, everything is as it was, unless it breaks off behind its first
file.  Double points in the path of the project may only stand behind directories that exist. -/
theorem layOut_allOrNothing {workspace after : Workspace} {directory : Path} {name : String}
    {force : Bool} {cause : ScaffoldCause} (wellFormed : workspace.WellFormed)
    (anchored : workspace.Anchored directory)
    (failed : (layOut directory name force).run workspace = (.error cause, after)) :
    after = workspace ∨ BrokenOff workspace directory name after := by
  rw [run_layOut] at failed
  split at failed
  · exact .inl (Prod.mk.inj failed).2.symm
  · split at failed
    · exact .inl (Prod.mk.inj failed).2.symm
    · obtain ⟨_, ran, _⟩ | ⟨_, final, written, file, rest, split, ran, wrote, refused⟩ :=
        run_writeFiles wellFormed anchored inside_of_mem_projectFiles
          (projectFiles_apart name placeholderAddress)
      · rw [ran] at failed
        cases (Prod.mk.inj failed).1
      · rw [ran] at failed
        obtain rfl : final = after := (Prod.mk.inj failed).2
        cases wrote with
        | nil => exact .inl rfl
        | cons first later =>
            exact .inr ⟨_, file, rest, by simp, split, .cons first later, refused⟩

/-! ### A project that is there already, and a file in the place of a directory -/

/-- A directory with a manifest in it. -/
def manifestWorkspace : Workspace where
  tree := ⟨[(["Cargo.toml"], .file [])]⟩

/-- A directory with a file in it that has the name of the directory of source files. -/
def blockedWorkspace : Workspace where
  tree := ⟨[(["src"], .file [])]⟩

theorem layOut_allOrNothing_manifest :
    manifestWorkspace.WellFormed ∧ manifestWorkspace.Anchored ⟨"", []⟩ ∧ ∃ cause after,
      (layOut ⟨"", []⟩ "counter" false).run manifestWorkspace = (.error cause, after) ∧
        (after = manifestWorkspace ∨ BrokenOff manifestWorkspace ⟨"", []⟩ "counter" after) := by
  have wellFormed : manifestWorkspace.WellFormed := ⟨FileTree.closed_of_all (by decide), rfl⟩
  have anchored : manifestWorkspace.Anchored ⟨"", []⟩ := wellFormed.anchored (by decide)
  have fails : ((layOut ⟨"", []⟩ "counter" false).run manifestWorkspace).1.isOk = false := by
    decide +kernel
  rcases ran : (layOut ⟨"", []⟩ "counter" false).run manifestWorkspace with ⟨outcome, after⟩
  cases outcome with
  | ok paths =>
      rw [ran] at fails
      cases fails
  | error cause =>
      exact ⟨wellFormed, anchored, cause, after, rfl, layOut_allOrNothing wellFormed anchored ran⟩

/-- The manifest is left behind where the program cannot be written. -/
theorem not_allOrNothing_blocked : blockedWorkspace.WellFormed ∧ ∃ cause after,
    (layOut ⟨"", []⟩ "counter" false).run blockedWorkspace = (.error cause, after) ∧
      blockedWorkspace.tree.entry? ["Cargo.toml"] = none ∧
        after.tree.entry? ["Cargo.toml"] ≠ none := by
  have fails : ((layOut ⟨"", []⟩ "counter" false).run blockedWorkspace).1.isOk = false ∧
      ((layOut ⟨"", []⟩ "counter" false).run blockedWorkspace).2.tree.entry? ["Cargo.toml"] ≠
        none := by decide +kernel
  refine ⟨⟨FileTree.closed_of_all (by decide), rfl⟩, ?_⟩
  rcases ran : (layOut ⟨"", []⟩ "counter" false).run blockedWorkspace with ⟨outcome, after⟩
  rw [ran] at fails
  cases outcome with
  | ok paths => cases fails.1
  | error cause => exact ⟨cause, after, rfl, by decide +kernel, fails.2⟩

end Scaffold

end ProgramIdl
