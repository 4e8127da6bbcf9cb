import ProgramIdl.Output
import ProgramIdl.Proofs.FileTree.Change
import ProgramIdl.Proofs.Json.RoundTrip

/-!
# Writing a schema is all or nothing

A schema that is written stands where its path leads, in directories that are made if they are
missing, and nothing else has changed; a schema that is not written leaves everything as it was
(`write_allOrNothing`).
-/

set_option autoImplicit false

namespace ProgramIdl

/-! ## What a write leaves -/

/-- A place where a file may be written: no file stands above it, and no directory in its place. -/
structure FileTree.Writable (tree : FileTree) (place : Place) : Prop where
  above : ∀ upper, upper <+: place → upper ≠ place →
    tree.entry? upper = some .directory ∨ tree.entry? upper = none
  here : tree.entry? place ≠ some .directory

theorem FileTree.writable_of_inits {tree : FileTree} {place : Place}
    (above : ∀ upper ∈ place.inits, upper ≠ place →
      tree.entry? upper = some .directory ∨ tree.entry? upper = none)
    (here : tree.entry? place ≠ some .directory) : tree.Writable place :=
  ⟨fun upper within => above upper (List.mem_inits upper place |>.mpr within), here⟩

/-- A workspace with a file written at a place, in directories that are made if they are missing. -/
structure Workspace.Wrote (before after : Workspace) (place : Place) (content : List UInt8) :
    Prop where
  here : after.here = before.here
  writable : before.tree.Writable place
  written : after.tree.entry? place = some (.file content)
  leads : after.tree.Leads place
  kept : ∀ other, ¬ other <+: place → after.tree.entry? other = before.tree.entry? other

section Wrote

variable {before after : Workspace} {place : Place} {content : List UInt8}

/-- Only what stands at the place itself is changed; above it only directories are new. -/
theorem Workspace.Wrote.keeps (wrote : before.Wrote after place content) {other : Place}
    {entry : Entry} (apart : other ≠ place) (held : before.tree.entry? other = some entry) :
    after.tree.entry? other = some entry := by
  by_cases above : other <+: place
  · obtain directory | missing := wrote.writable.above other above apart
    · rw [wrote.leads other above apart, ← held, directory]
    · rw [held] at missing
      cases missing
  · rw [wrote.kept other above, held]

theorem Workspace.Wrote.wellFormed (wrote : before.Wrote after place content)
    (wellFormed : before.WellFormed) : after.WellFormed := by
  constructor
  · intro upper name entry held
    by_cases within : upper ++ [name] <+: place
    · apply wrote.leads upper ((List.prefix_append ..).trans within)
      rintro rfl
      exact FileTree.not_prefix_concat _ _ within
    · rw [wrote.kept _ within] at held
      have directory := wellFormed.closed upper name entry held
      have apart : upper ≠ place := by
        rintro rfl
        exact wrote.writable.here directory
      exact wrote.keeps apart directory
  · rw [wrote.here]
    have apart : before.here ≠ place := by
      intro same
      have directory := wellFormed.here
      rw [same] at directory
      exact wrote.writable.here directory
    exact wrote.keeps apart wellFormed.here

theorem Workspace.Wrote.readFile {path : Path}
    (wrote : before.Wrote after (before.namedPlace path) content) (plain : ".." ∉ path.parts) :
    after.readFile path = .ok content := by
  have sameStart : after.namedPlace path = before.namedPlace path := by
    rw [namedPlace, start, wrote.here]
    rfl
  have leads := wrote.leads
  rw [← sameStart] at leads
  rw [Workspace.readFile, locate_of_leads plain leads, sameStart]
  dsimp only
  rw [wrote.written]

end Wrote

namespace Output

variable {workspace : Workspace} {path : Path}

/-! ## Writing bytes -/

/-- In one step or directly, a file is written unless there is a directory in its place. -/
theorem run_writeFile_or_atomically (atomic : Bool) (unique : String) (content : List UInt8)
    {place : Place} (located : workspace.locate path = .ok place) :
    ∃ cause, (if atomic then FileChange.writeAtomically unique path content
        else FileChange.writeFile path content).run workspace =
      if workspace.tree.entry? place = some .directory then (.error cause, workspace)
      else (.ok (), workspace.put place (.file content)) := by
  cases atomic with
  | true => exact ⟨_, FileChange.run_writeAtomically located unique content⟩
  | false =>
      refine ⟨.isDirectory path, ?_⟩
      rw [if_neg (by decide), FileChange.run_writeFile, located]

/-- No file is written where a path leads to a directory. -/
theorem run_writeBytes_of_directory (found : workspace.isDirectory path = true)
    (config : OutputConfig) (unique : String) (content : List UInt8) :
    ∃ cause, (writeBytes config unique path content).run workspace = (.error cause, workspace) := by
  obtain ⟨located, directory⟩ := Workspace.exists_of_isDirectory found
  obtain ⟨cause, written⟩ := run_writeFile_or_atomically config.atomic unique content located
  refine ⟨cause, ?_⟩
  have ensured :=
    FileChange.run_ensureDirectories_of_directory (Workspace.isDirectory_parent found)
  rw [writeBytes, run_andThen, ensured]
  dsimp only
  rw [written, if_pos directory]

/-- The bytes of a file are written if they may be, and otherwise nothing changes. -/
theorem run_writeBytes (wellFormed : workspace.WellFormed) (anchored : workspace.Anchored path)
    (config : OutputConfig) (unique : String) (content : List UInt8) :
    (∃ after, (writeBytes config unique path content).run workspace = (.ok (), after) ∧
      workspace.Wrote after (workspace.namedPlace path) content) ∨
    ∃ cause, (writeBytes config unique path content).run workspace = (.error cause, workspace) ∧
      ¬ workspace.tree.Writable (workspace.namedPlace path) := by
  obtain found | ⟨name, other, child, anchoredParent⟩ := anchored.cases_parent
  · obtain ⟨cause, ran⟩ := run_writeBytes_of_directory found config unique content
    obtain ⟨_, directory⟩ := Workspace.exists_of_isDirectory found
    exact Or.inr ⟨cause, ran, fun writable => writable.here directory⟩
  have split : workspace.namedPlace path = workspace.namedPlace path.parent ++ [name] := by
    rw [← Workspace.namedPlace_child other, child]
  rw [writeBytes, run_andThen]
  obtain ⟨after, ran, sameHere, made, same⟩ | ⟨cause, upper, bytes, ran, above, file⟩ :=
    FileChange.makesUpTo_ensureDirectories wellFormed anchoredParent
  · have samePlace : after.namedPlace path = workspace.namedPlace path := by
      rw [Workspace.namedPlace, Workspace.start, sameHere]
      rfl
    have leads : after.tree.Leads (after.namedPlace path) := by
      rw [samePlace, split]
      exact made.leads_concat name
    have unmade : after.tree.entry? (workspace.namedPlace path) =
        workspace.tree.entry? (workspace.namedPlace path) := by
      rw [split]
      exact made.kept _ (FileTree.not_prefix_concat _ name)
    have stillAnchored := anchored.of_kept sameHere fun place directory => made.keeps directory
    obtain ⟨cause, written⟩ := run_writeFile_or_atomically config.atomic unique content
      (stillAnchored.locate_of_leads leads)
    rw [samePlace] at written leads
    rw [ran]
    dsimp only
    rw [written, unmade]
    by_cases directory : workspace.tree.entry? (workspace.namedPlace path) = some .directory
    · rw [if_pos directory]
      have directoryAbove : workspace.tree.entry? (workspace.namedPlace path.parent) =
          some .directory := by
        rw [split] at directory
        exact wellFormed.closed _ name _ directory
      rw [same directoryAbove]
      exact Or.inr ⟨cause, rfl, fun writable => writable.here directory⟩
    · rw [if_neg directory]
      refine Or.inl ⟨_, rfl, sameHere, ⟨?_, directory⟩, ?_, ?_, ?_⟩
      · intro upper above apart
        rw [split] at above apart
        exact made.missing upper ((List.prefix_concat_iff.mp above).resolve_left apart)
      · exact FileTree.put_self (FileTree.ne_nil_of_ne_directory directory)
      · intro upper above apart
        rw [Workspace.put, FileTree.put_of_ne apart]
        exact leads upper above apart
      · intro other apart
        have here : other ≠ workspace.namedPlace path := by
          rintro rfl
          exact apart (List.prefix_refl _)
        rw [split] at apart
        rw [Workspace.put, FileTree.put_of_ne here]
        exact made.kept other fun above => apart (above.trans (List.prefix_append ..))
  · rw [ran]
    refine Or.inr ⟨cause, rfl, fun writable => ?_⟩
    have apart : upper ≠ workspace.namedPlace path := by
      rintro rfl
      rw [split] at above
      exact FileTree.not_prefix_concat _ name above
    rw [split] at apart writable
    have missed := writable.above upper (above.trans (List.prefix_append ..)) apart
    rw [file] at missed
    simp at missed

/-! ## Writing schemas -/

theorem run_atPath (path : Path) (change : FileChange Unit) (workspace : Workspace) :
    (atPath path change).run workspace =
      ((change.run workspace).1.mapError (.io path), (change.run workspace).2) := by
  rfl

theorem run_checked (config : OutputConfig) (content : String) (next : Change Unit)
    (workspace : Workspace) :
    (if config.checks then liftM (check content) >>= fun _ => next else next :
        Change Unit).run workspace =
      match if config.checks then check content else .ok () with
      | .error failure => (.error failure, workspace)
      | .ok () => next.run workspace := by
  by_cases checks : config.checks = true
  · rw [if_pos checks, if_pos checks, run_andThen]
    cases check content <;> rfl
  · rw [if_neg checks, if_neg checks]

theorem run_write (config : OutputConfig) (unique content : String) (path : Path)
    (workspace : Workspace) :
    (write config unique path content).run workspace =
      if config.mode = .keep ∧ workspace.exists? path = true then
        (.error (.io path (.outputExists path)), workspace)
      else
        match if config.checks then check content else .ok () with
        | .error failure => (.error failure, workspace)
        | .ok () => (atPath path
            (writeBytes config unique path (Text.utf8Bytes content.toList))).run workspace := by
  unfold write
  rw [run_andThen]
  by_cases held : config.mode = .keep ∧ workspace.exists? path = true
  · rw [if_pos held]
    change (if (decide (config.mode = .keep) && workspace.exists? path) = true then _ else _ :
      Change Unit).run workspace = _
    rw [if_pos (by simp [held])]
    rfl
  · rw [if_neg held]
    change (if (decide (config.mode = .keep) && workspace.exists? path) = true then _ else _ :
      Change Unit).run workspace = _
    rw [if_neg (by simpa using held)]
    exact run_checked config content _ workspace
/-- Whether a content passes the check, if there is one. -/
def Passes (config : OutputConfig) (content : String) : Prop :=
  config.checks = true → ∃ value, Json.read content = .ok value

/-- A check that stops at a whole number of too many digits. -/
def StopsAtNumber (config : OutputConfig) (content : String) (digits : Nat) : Prop :=
  config.checks = true ∧ Json.read content = .error (.tooManyDigits digits)

theorem check_cases (config : OutputConfig) (content : String) :
    ((if config.checks then check content else .ok ()) = .ok () ∧ Passes config content) ∨
    ∃ failure, (if config.checks then check content else .ok ()) = .error failure ∧
      ¬ Passes config content ∧ (failure = .serialization .notJson ∨
        ∃ digits, failure = .unreadable digits ∧ StopsAtNumber config content digits) := by
  by_cases checks : config.checks = true
  · rw [if_pos checks, check]
    cases found : Json.read content with
    | ok value => exact Or.inl ⟨rfl, fun _ => ⟨value, found⟩⟩
    | error fault =>
        have fails : ¬ Passes config content := by
          intro passes
          obtain ⟨value, read⟩ := passes checks
          rw [found] at read
          cases read
        cases fault with
        | notJson => exact Or.inr ⟨_, rfl, fails, Or.inl rfl⟩
        | tooManyDigits digits =>
            exact Or.inr ⟨_, rfl, fails, Or.inr ⟨digits, rfl, checks, found⟩⟩
  · rw [if_neg checks]
    exact Or.inl ⟨rfl, fun on => absurd on checks⟩

/-- A schema is written or nothing changes. -/
theorem run_write_cases (wellFormed : workspace.WellFormed) (anchored : workspace.Anchored path)
    (config : OutputConfig) (unique content : String) :
    (∃ after, (write config unique path content).run workspace = (.ok (), after) ∧
      ¬ (config.mode = .keep ∧ workspace.exists? path = true) ∧ Passes config content ∧
      workspace.Wrote after (workspace.namedPlace path) (Text.utf8Bytes content.toList)) ∨
    ∃ failure, (write config unique path content).run workspace = (.error failure, workspace) ∧
      (config.mode = .keep ∧ workspace.exists? path = true ∨ ¬ Passes config content ∨
        ¬ workspace.tree.Writable (workspace.namedPlace path)) ∧
      ((∃ cause, failure = .io path cause) ∨ failure = .serialization .notJson ∨
        ∃ digits, failure = .unreadable digits ∧ StopsAtNumber config content digits) := by
  rw [run_write]
  by_cases held : config.mode = .keep ∧ workspace.exists? path = true
  · rw [if_pos held]
    exact Or.inr ⟨_, rfl, Or.inl held, Or.inl ⟨_, rfl⟩⟩
  rw [if_neg held]
  obtain ⟨passed, passes⟩ | ⟨failure, failed, fails, kind⟩ := check_cases config content
  · rw [passed]
    dsimp only
    rw [run_atPath]
    obtain ⟨after, ran, wrote⟩ | ⟨cause, ran, refused⟩ :=
      run_writeBytes wellFormed anchored config unique (Text.utf8Bytes content.toList)
    · rw [ran]
      exact Or.inl ⟨after, rfl, held, passes, wrote⟩
    · rw [ran]
      exact Or.inr ⟨_, rfl, Or.inr (Or.inr refused), Or.inl ⟨cause, rfl⟩⟩
  · rw [failed]
    exact Or.inr ⟨failure, rfl, Or.inr (Or.inl fails), Or.inr kind⟩

/-- What stands anywhere is kept by a write to a place where nothing stands. -/
theorem keeps_of_absent {after : Workspace} {content : List UInt8} (wellFormed : workspace.WellFormed)
    (anchored : workspace.Anchored path) (absent : workspace.exists? path ≠ true)
    (wrote : workspace.Wrote after (workspace.namedPlace path) content) {place : Place} {entry : Entry}
    (stands : workspace.tree.entry? place = some entry) :
    after.tree.entry? place = some entry := by
  refine wrote.keeps ?_ stands
  rintro rfl
  have leads := wellFormed.closed.leads stands
  refine absent ?_
  rw [Workspace.exists?, Workspace.entry?, anchored.locate_of_leads leads]
  dsimp only
  rw [stands]
  rfl

/-- A schema is written exactly if it may be: then its path leads to a file with just its content,
directories that were missing above have been made, and nothing else has changed.  Otherwise nothing
changes at all, and the failure is one of the file or of the content.  What stands where nothing may
be overwritten is kept. -/
theorem write_allOrNothing (wellFormed : workspace.WellFormed) (plain : ".." ∉ path.parts)
    (config : OutputConfig) (unique content : String) :
    (∃ after, (write config unique path content).run workspace = (.ok (), after) ∧
      ¬ (config.mode = .keep ∧ workspace.exists? path = true) ∧ Passes config content ∧
      workspace.Wrote after (workspace.namedPlace path) (Text.utf8Bytes content.toList) ∧
      after.readFile path = .ok (Text.utf8Bytes content.toList) ∧ after.WellFormed ∧
      (config.mode = .keep → ∀ place entry, workspace.tree.entry? place = some entry →
        after.tree.entry? place = some entry)) ∨
    ∃ failure, (write config unique path content).run workspace = (.error failure, workspace) ∧
      (config.mode = .keep ∧ workspace.exists? path = true ∨ ¬ Passes config content ∨
        ¬ workspace.tree.Writable (workspace.namedPlace path)) ∧
      ((∃ cause, failure = .io path cause) ∨ failure = .serialization .notJson ∨
        ∃ digits, failure = .unreadable digits ∧ StopsAtNumber config content digits) := by
  have anchored := wellFormed.anchored plain
  obtain ⟨after, ran, held, passes, wrote⟩ | failed :=
    run_write_cases wellFormed anchored config unique content
  · refine Or.inl ⟨after, ran, held, passes, wrote, wrote.readFile plain,
      wrote.wellFormed wellFormed, ?_⟩
    intro keeps place entry stands
    exact keeps_of_absent wellFormed anchored (fun occupied => held ⟨keeps, occupied⟩) wrote stands
  · exact Or.inr failed

/-! ### A schema beside an old one, and a schema that is one long number -/

/-- A directory with an old schema in it. -/
def oldWorkspace : Workspace where
  tree := ⟨[(["out"], .directory), (["out", "old.json"], .file [])]⟩

theorem oldWorkspace_wellFormed : oldWorkspace.WellFormed :=
  ⟨FileTree.closed_of_all (by decide), rfl⟩

theorem write_allOrNothing_beside : oldWorkspace.WellFormed ∧ ".." ∉ ["out", "new", "idl.json"] ∧
    ∃ after, (write {} "a" ⟨"", ["out", "new", "idl.json"]⟩ "[]").run oldWorkspace = (.ok (), after) ∧
      oldWorkspace.Wrote after ["out", "new", "idl.json"] (Text.utf8Bytes "[]".toList) := by
  have plain : ".." ∉ ["out", "new", "idl.json"] := by decide
  have succeeded : ((write {} "a" ⟨"", ["out", "new", "idl.json"]⟩ "[]").run
      oldWorkspace).1.isOk = true := by decide +kernel
  obtain ⟨after, ran, _, _, wrote, _⟩ | ⟨failure, ran, _⟩ :=
    @write_allOrNothing oldWorkspace ⟨"", ["out", "new", "idl.json"]⟩ oldWorkspace_wellFormed plain
      {} "a" "[]"
  · exact ⟨oldWorkspace_wellFormed, plain, after, ran, wrote⟩
  · rw [ran] at succeeded
    cases succeeded

/-- A one with as many zeros behind it as a number may have digits. -/
def longNumber : String :=
  .ofList (Json.integerText (Int.ofNat (Nat.pow 10 Json.maxDigits)))

/-- The failure of a schema that holds too long a number is neither one of its file nor one of its
content. -/
theorem not_reported_longNumber : ¬ ∀ failure,
    ((write {} "a" ⟨"", ["idl.json"]⟩ longNumber).run {}).1 = .error failure →
      (∃ path cause, failure = .io path cause) ∨ ∃ cause, failure = .serialization cause := by
  have long : Json.exceedsLimit (Int.ofNat (Nat.pow 10 Json.maxDigits)) = true := by decide +kernel
  have stopped := Json.read_integerText_of_exceedsLimit long
  generalize (Nat.toDigits 10 (Int.ofNat (Nat.pow 10 Json.maxDigits)).natAbs).length = digits
    at stopped
  have refused : check longNumber = .error (.unreadable digits) := by rw [check, longNumber, stopped]
  have absent : ¬ ((OutputMode.keep = .keep) ∧
      (⟨⟨[]⟩, []⟩ : Workspace).exists? ⟨"", ["idl.json"]⟩ = true) := by decide
  intro reported
  obtain ⟨path, cause, same⟩ | ⟨cause, same⟩ :=
    reported (.unreadable digits) (by rw [run_write, if_neg absent, if_pos rfl, refused])
  all_goals cases same

end Output

end ProgramIdl
