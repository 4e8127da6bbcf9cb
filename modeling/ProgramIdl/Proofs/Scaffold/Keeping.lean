import ProgramIdl.Proofs.Scaffold.Writing

/-!
# What a new project leaves as it was

A project that is laid out where nothing may be overwritten changes no file, whether it succeeds or
not, and whether or not double points stand in its path: on the way only directories are made, and
the files of the project are written where its path leads then (`layOut_keepsFiles`).  The files that
are there already are looked for before the directories are made, though, so that a file behind a
directory that is still missing is overlooked, and overwritten (`not_keepsFiles_behindMissing`).
-/

set_option autoImplicit false

namespace ProgramIdl

/-! ## Directories that are made on the way -/

/-- A workspace in which only directories are new. -/
structure Workspace.OnlyMakes (before after : Workspace) : Prop where
  here : after.here = before.here
  entries : ∀ place, after.tree.entry? place = before.tree.entry? place ∨
    before.tree.entry? place = none ∧ after.tree.entry? place = some .directory

theorem Workspace.OnlyMakes.refl (workspace : Workspace) : workspace.OnlyMakes workspace :=
  ⟨rfl, fun _ => .inl rfl⟩

theorem Workspace.OnlyMakes.trans {before middle after : Workspace} (first : before.OnlyMakes middle)
    (second : middle.OnlyMakes after) : before.OnlyMakes after := by
  refine ⟨second.here.trans first.here, fun place => ?_⟩
  obtain same | ⟨absent, made⟩ := second.entries place
  · rw [same]
    exact first.entries place
  · obtain sameBefore | ⟨_, madeBefore⟩ := first.entries place
    · exact .inr ⟨sameBefore ▸ absent, made⟩
    · rw [absent] at madeBefore
      cases madeBefore

namespace FileChange

theorem onlyMakes_ensureDirectory (path : Path) (workspace : Workspace) :
    workspace.OnlyMakes ((ensureDirectory path).run workspace).2 := by
  rw [run_ensureDirectory]
  cases workspace.locate path with
  | error obstacle => exact .refl workspace
  | ok place =>
      dsimp only
      obtain held | held | ⟨content, held⟩ := workspace.tree.nothing_directory_or_file place
      all_goals rw [held]
      · refine ⟨rfl, fun other => ?_⟩
        by_cases same : other = place
        · rw [same]
          exact .inr ⟨held, FileTree.put_self (FileTree.ne_nil_of_fresh held)⟩
        · exact .inl (FileTree.put_of_ne same)
      · exact .refl workspace
      · exact .refl workspace

theorem onlyMakes_ensureDirectoriesFrom (root : String) (names : List String)
    (workspace : Workspace) :
    workspace.OnlyMakes ((ensureDirectoriesFrom root names).run workspace).2 := by
  induction names with
  | nil => exact onlyMakes_ensureDirectory ⟨root, []⟩ workspace
  | cons name above inductionHypothesis =>
      rw [run_ensureDirectoriesFrom_cons]
      have direct := onlyMakes_ensureDirectory (Path.child ⟨root, above.reverse⟩ name) workspace
      split
      · rw [run_andThen]
        split
        · rename_i middle ran
          rw [ran] at inductionHypothesis
          exact inductionHypothesis.trans (onlyMakes_ensureDirectory _ middle)
        · rename_i ran
          rwa [ran] at inductionHypothesis
      · exact direct

theorem onlyMakes_ensureDirectories (path : Path) (workspace : Workspace) :
    workspace.OnlyMakes ((ensureDirectories path).run workspace).2 :=
  onlyMakes_ensureDirectoriesFrom path.root path.parts.reverse workspace

end FileChange

theorem Workspace.namedPlace_congr {workspace other : Workspace} (sameHere : other.here = workspace.here)
    (path : Path) : other.namedPlace path = workspace.namedPlace path := by
  rw [namedPlace, start, sameHere]
  rfl

theorem Workspace.namedPlace_of_locate {workspace : Workspace} {path : Path} {place : Place}
    (located : workspace.locate path = .ok place) : place = workspace.namedPlace path :=
  FileTree.eq_foldl_of_follow located

theorem Workspace.locate_of_kept {workspace other : Workspace} {path : Path} {place : Place}
    (sameHere : other.here = workspace.here)
    (kept : ∀ place, workspace.tree.entry? place = some .directory →
      other.tree.entry? place = some .directory)
    (located : workspace.locate path = .ok place) : other.locate path = .ok place := by
  have sameStart : other.start path = workspace.start path := by
    rw [start, start, sameHere]
  rw [locate, sameStart]
  exact FileTree.follow_of_kept kept located

namespace Scaffold

open ProgramIdl.Text

/-! ## Files of a project -/

/-- The place of a file of a project. -/
def placeOf (workspace : Workspace) (directory : Path) (file : ProjectFile) : Place :=
  workspace.namedPlace directory ++ file.names

/-- The bytes of a file of a project. -/
def ProjectFile.content (file : ProjectFile) : List UInt8 :=
  utf8Bytes file.text.toList

/-- A workspace in which only directories are new, and some files below a place are written. -/
structure Lays (root : Place) (files : List ProjectFile) (before after : Workspace) : Prop where
  here : after.here = before.here
  entries : ∀ place, after.tree.entry? place = before.tree.entry? place ∨
    (before.tree.entry? place = none ∧ after.tree.entry? place = some .directory) ∨
    ∃ file ∈ files, place = root ++ file.names ∧ before.tree.entry? place ≠ some .directory ∧
      after.tree.entry? place = some (.file file.content)

section Lays

variable {root : Place} {files more : List ProjectFile} {before middle after : Workspace}

theorem lays_of_onlyMakes (root : Place) (files : List ProjectFile) (made : before.OnlyMakes after) :
    Lays root files before after :=
  ⟨made.here, fun place => (made.entries place).imp_right .inl⟩

theorem Lays.directory (lays : Lays root files before after) {place : Place}
    (held : before.tree.entry? place = some .directory) :
    after.tree.entry? place = some .directory := by
  obtain same | ⟨absent, _⟩ | ⟨_, _, _, free, _⟩ := lays.entries place
  · rw [same, held]
  · rw [held] at absent
    cases absent
  · exact absurd held free

theorem Lays.file (lays : Lays root files before after) {file : ProjectFile}
    (apart : ∀ other ∈ files, other.names ≠ file.names)
    (written : before.tree.entry? (root ++ file.names) = some (.file file.content)) :
    after.tree.entry? (root ++ file.names) = some (.file file.content) := by
  obtain same | ⟨absent, _⟩ | ⟨other, listed, samePlace, _⟩ := lays.entries (root ++ file.names)
  · rw [same, written]
  · rw [written] at absent
    cases absent
  · exact absurd (List.append_cancel_left samePlace).symm (apart other listed)

theorem Lays.append (first : Lays root files before middle) (second : Lays root more middle after) :
    Lays root (files ++ more) before after := by
  refine ⟨second.here.trans first.here, fun place => ?_⟩
  obtain same | ⟨absent, made⟩ | ⟨file, listed, samePlace, free, written⟩ := second.entries place
  · rw [same]
    refine (first.entries place).imp_right (.imp_right ?_)
    rintro ⟨file, listed, rest⟩
    exact ⟨file, List.mem_append_left _ listed, rest⟩
  · obtain sameBefore | ⟨_, madeBefore⟩ | ⟨_, _, _, _, writtenBefore⟩ := first.entries place
    · exact .inr (.inl ⟨sameBefore ▸ absent, made⟩)
    · rw [absent] at madeBefore
      cases madeBefore
    · rw [absent] at writtenBefore
      cases writtenBefore
  · exact .inr (.inr ⟨file, List.mem_append_right _ listed, samePlace,
      fun held => free (first.directory held), written⟩)

end Lays

/-- A file of a project that has been written: its path leads to its place, and its content stands
there. -/
structure Stands (workspace : Workspace) (directory : Path) (file : ProjectFile) : Prop where
  located : workspace.locate (file.pathIn directory) = .ok (placeOf workspace directory file)
  written : workspace.tree.entry? (placeOf workspace directory file) = some (.file file.content)

theorem Stands.readFile {workspace : Workspace} {directory : Path} {file : ProjectFile}
    (stands : Stands workspace directory file) :
    workspace.readFile (file.pathIn directory) = .ok file.content := by
  rw [Workspace.readFile, stands.located]
  dsimp only
  rw [stands.written]

section Files

variable (workspace : Workspace) (directory : Path)

/-- Whatever the path of a project, writing a file of it makes directories, and then the file. -/
theorem lays_writeFile {file : ProjectFile} (inside : file.Inside) :
    (∃ after, (writeFile directory file).run workspace = (.ok (file.pathIn directory), after) ∧
      Lays (workspace.namedPlace directory) [file] workspace after ∧ Stands after directory file) ∨
    ∃ cause after, (writeFile directory file).run workspace = (.error cause, after) ∧
      Lays (workspace.namedPlace directory) [file] workspace after := by
  have made := FileChange.onlyMakes_ensureDirectories (file.pathIn directory).parent workspace
  rw [writeFile, run_andThen]
  rcases ran : (FileChange.ensureDirectories (file.pathIn directory).parent).run workspace with
    ⟨outcome, middle⟩
  rw [ran] at made
  cases outcome with
  | error cause => exact .inr ⟨cause, middle, rfl, lays_of_onlyMakes _ _ made⟩
  | ok =>
      dsimp only at made ⊢
      rw [run_andThen]
      rw [FileChange.run_writeFile]
      cases located : middle.locate (file.pathIn directory) with
      | error obstacle => exact .inr ⟨_, middle, rfl, lays_of_onlyMakes _ _ made⟩
      | ok place =>
          dsimp only
          by_cases held : middle.tree.entry? place = some .directory
          · rw [if_pos held]
            exact .inr ⟨_, middle, rfl, lays_of_onlyMakes _ _ made⟩
          · rw [if_neg held]
            have here : place = workspace.namedPlace directory ++ file.names := by
              rw [Workspace.namedPlace_of_locate located, inside.namedPlace,
                Workspace.namedPlace_congr made.here]
            have put : FileTree.entry? (middle.tree.put place (.file file.content)) place =
                some (.file file.content) := FileTree.put_self (FileTree.ne_nil_of_ne_directory held)
            have written : Lays (workspace.namedPlace directory) [file] middle
                (middle.put place (.file file.content)) := by
              refine ⟨rfl, fun other => ?_⟩
              by_cases same : other = place
              · rw [same]
                exact .inr (.inr ⟨file, List.mem_singleton.mpr rfl, here, held, put⟩)
              · exact .inl (FileTree.put_of_ne same)
            have samePlace : placeOf (middle.put place (.file file.content)) directory file = place := by
              rw [here, placeOf]
              exact congrArg (· ++ file.names) (Workspace.namedPlace_congr made.here directory)
            have stands : Stands (middle.put place (.file file.content)) directory file := by
              constructor <;> rw [samePlace]
              · exact Workspace.locate_of_kept (Eq.refl middle.here)
                  (fun _ => written.directory) located
              · exact put
            exact .inl ⟨_, rfl, (lays_of_onlyMakes _ [] made).append written, stands⟩

/-- The files of a project are all written, or those in front of one that cannot be; nothing else
than directories is new. -/
theorem lays_writeFiles {files : List ProjectFile} (inside : ∀ file ∈ files, file.Inside)
    (distinct : (files.map ProjectFile.names).Nodup) :
    (∃ after, (files.mapM (writeFile directory)).run workspace =
        (.ok (files.map fun file => file.pathIn directory), after) ∧
      Lays (workspace.namedPlace directory) files workspace after ∧
        ∀ file ∈ files, Stands after directory file) ∨
    ∃ cause after, (files.mapM (writeFile directory)).run workspace = (.error cause, after) ∧
      Lays (workspace.namedPlace directory) files workspace after := by
  induction files generalizing workspace with
  | nil => exact .inl ⟨workspace, rfl, lays_of_onlyMakes _ _ (.refl workspace), nofun⟩
  | cons file files inductionHypothesis =>
      obtain ⟨insideHere, insideMore⟩ := List.forall_mem_cons.mp inside
      rw [List.map_cons, List.nodup_cons] at distinct
      obtain ⟨apart, distinctMore⟩ := distinct
      rw [List.mapM_cons, run_andThen]
      obtain ⟨middle, ran, lays, stands⟩ | ⟨cause, middle, ran, lays⟩ :=
        lays_writeFile workspace directory insideHere
      · rw [ran]
        dsimp only
        rw [run_andThen]
        have samePlace := Workspace.namedPlace_congr lays.here directory
        obtain ⟨after, ranMore, laysMore, standMore⟩ | ⟨cause, after, ranMore, laysMore⟩ :=
          inductionHypothesis middle insideMore distinctMore
        · rw [ranMore]
          have laysAll := laysMore
          rw [samePlace] at laysAll
          refine .inl ⟨after, rfl, lays.append laysAll, List.forall_mem_cons.mpr ⟨?_, standMore⟩⟩
          -- What stands behind the first file is written elsewhere.
          have still : placeOf after directory file = placeOf middle directory file :=
            congrArg (· ++ file.names) (Workspace.namedPlace_congr laysMore.here directory)
          refine ⟨?_, ?_⟩
          · rw [still]
            exact Workspace.locate_of_kept laysMore.here (fun _ => laysMore.directory) stands.located
          · rw [still]
            refine laysMore.file (fun other listed same => apart ?_) stands.written
            exact List.mem_map.mpr ⟨other, listed, same⟩
        · rw [ranMore]
          rw [samePlace] at laysMore
          exact .inr ⟨cause, after, rfl, lays.append laysMore⟩
      · rw [ran]
        refine .inr ⟨cause, middle, rfl, ?_⟩
        exact lays.append (lays_of_onlyMakes _ files (.refl middle))

end Files

/-! ## Laying out a project where nothing may be overwritten -/

theorem projectFiles_names_nodup (name address : String) :
    ((projectFiles name address).map ProjectFile.names).Nodup := by
  rw [List.nodup_iff_pairwise_ne, List.pairwise_map]
  exact (projectFiles_apart name address).imp fun {_ _} apart same =>
    apart.1 (by rw [same])

/-- Whoever looks for the files of a project before it is laid out sees each one that is there. -/
def SeesFiles (workspace : Workspace) (directory : Path) (name : String) : Prop :=
  ∀ file ∈ projectFiles name, ∀ content,
    workspace.tree.entry? (placeOf workspace directory file) = some (.file content) →
      workspace.exists? (file.pathIn directory) = true

/-- Nothing is overlooked behind double points that stand behind directories that exist. -/
theorem seesFiles_of_anchored {workspace : Workspace} {directory : Path}
    (wellFormed : workspace.WellFormed) (anchored : workspace.Anchored directory) (name : String) :
    SeesFiles workspace directory name := by
  intro file listed content held
  have inside := inside_of_mem_projectFiles file listed
  have leads := wellFormed.closed.leads held
  rw [placeOf, ← inside.namedPlace] at leads held
  rw [Workspace.exists?, Workspace.entry?, (inside.anchored anchored).locate_of_leads leads]
  dsimp only
  rw [held]
  rfl

/-- Where nothing may be overwritten, every file stays as it is, whether the project is laid out or
not, if the files of the project that are there already are seen.  When it is laid out, its files
stand where their paths lead, with their contents, and nothing else has changed but that directories
have been made. -/
theorem layOut_keepsFiles {workspace after : Workspace} {directory : Path} {name : String}
    {outcome : Except ScaffoldCause (List Path)}
    (ran : (layOut directory name false).run workspace = (outcome, after)) :
    (SeesFiles workspace directory name → ∀ place content,
      workspace.tree.entry? place = some (.file content) →
        after.tree.entry? place = some (.file content)) ∧
    ∀ paths, outcome = .ok paths →
      paths = (projectFiles name).map (fun file => file.pathIn directory) ∧
      (∀ file ∈ projectFiles name, Stands after directory file ∧
        after.readFile (file.pathIn directory) = .ok (utf8Bytes file.text.toList)) ∧
      ∀ place, (∀ file ∈ projectFiles name, place ≠ placeOf workspace directory file) →
        after.tree.entry? place = workspace.tree.entry? place ∨
          workspace.tree.entry? place = none ∧ after.tree.entry? place = some .directory := by
  rw [run_layOut] at ran
  split at ran
  · obtain ⟨rfl, rfl⟩ := Prod.mk.inj ran
    exact ⟨fun _ _ _ held => held, nofun⟩
  rw [if_neg (by decide)] at ran
  split at ran
  · obtain ⟨rfl, rfl⟩ := Prod.mk.inj ran
    exact ⟨fun _ _ _ held => held, nofun⟩
  rename_i unseen
  have keeps {final : Workspace}
      (lays : Lays (workspace.namedPlace directory) (projectFiles name) workspace final)
      (sees : SeesFiles workspace directory name) (place : Place) (content : List UInt8)
      (held : workspace.tree.entry? place = some (.file content)) :
      final.tree.entry? place = some (.file content) := by
    obtain same | ⟨missing, _⟩ | ⟨file, listed, rfl, _⟩ := lays.entries place
    · rw [same, held]
    · rw [held] at missing
      cases missing
    · -- The file would have been seen, and the project refused.
      have notSeen := List.find?_eq_none.mp unseen _ (List.mem_map_of_mem listed)
      exact absurd (sees file listed content held) notSeen
  obtain ⟨final, wrote, lays, stand⟩ | ⟨cause, final, wrote, lays⟩ :=
    lays_writeFiles workspace directory inside_of_mem_projectFiles
      (projectFiles_names_nodup name placeholderAddress)
  · rw [wrote] at ran
    obtain ⟨rfl, rfl⟩ := Prod.mk.inj ran
    refine ⟨keeps lays, fun paths done => ⟨(Except.ok.inj done).symm, fun file listed =>
      ⟨stand file listed, (stand file listed).readFile⟩, fun place elsewhere => ?_⟩⟩
    obtain same | made | ⟨file, listed, samePlace, _⟩ := lays.entries place
    · exact .inl same
    · exact .inr made
    · exact absurd samePlace (elsewhere file listed)
  · rw [wrote] at ran
    obtain ⟨rfl, rfl⟩ := Prod.mk.inj ran
    exact ⟨keeps lays, nofun⟩

/-! ### A project beside a directory, and one behind a directory that is missing -/

/-- A directory `x` with a manifest in it that is not empty. -/
def heldWorkspace : Workspace where
  tree := ⟨[(["x"], .directory), (["x", "Cargo.toml"], .file [109])]⟩

theorem layOut_keepsFiles_beside :
    SeesFiles heldWorkspace ⟨"", ["x", "..", "y"]⟩ "counter" ∧ ∃ paths after,
      (layOut ⟨"", ["x", "..", "y"]⟩ "counter" false).run heldWorkspace = (.ok paths, after) ∧
        after.tree.entry? ["x", "Cargo.toml"] = some (.file [109]) ∧
          ∀ file ∈ projectFiles "counter", after.readFile (file.pathIn ⟨"", ["x", "..", "y"]⟩) =
            .ok (utf8Bytes file.text.toList) := by
  have wellFormed : heldWorkspace.WellFormed := ⟨FileTree.closed_of_all (by decide), rfl⟩
  have anchored : heldWorkspace.Anchored ⟨"", ["x", "..", "y"]⟩ :=
    ⟨["x", ".."], ["y"], rfl, by decide, by decide +kernel⟩
  have sees := seesFiles_of_anchored wellFormed anchored "counter"
  have done : ((layOut ⟨"", ["x", "..", "y"]⟩ "counter" false).run heldWorkspace).1.isOk = true := by
    decide +kernel
  rcases ran : (layOut ⟨"", ["x", "..", "y"]⟩ "counter" false).run heldWorkspace with
    ⟨outcome, after⟩
  cases outcome with
  | error cause =>
      rw [ran] at done
      cases done
  | ok paths =>
      obtain ⟨keeps, lays⟩ := layOut_keepsFiles ran
      obtain ⟨_, stand, _⟩ := lays paths rfl
      exact ⟨sees, paths, after, rfl, keeps sees _ _ rfl, fun file listed => (stand file listed).2⟩

/-- A manifest is overlooked behind a directory that is still missing, and overwritten. -/
theorem not_keepsFiles_behindMissing : heldWorkspace.WellFormed ∧
    ((layOut ⟨"", ["missing", "..", "x"]⟩ "counter" false).run heldWorkspace).1.isOk = true ∧
    heldWorkspace.tree.entry? ["x", "Cargo.toml"] = some (.file [109]) ∧
    ((layOut ⟨"", ["missing", "..", "x"]⟩ "counter" false).run heldWorkspace).2.tree.entry?
      ["x", "Cargo.toml"] ≠ some (.file [109]) :=
  ⟨⟨FileTree.closed_of_all (by decide), rfl⟩, by decide +kernel, rfl, by decide +kernel⟩

end Scaffold

end ProgramIdl
