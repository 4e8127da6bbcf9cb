import Mathlib.Data.List.Nodup
import ProgramIdl.FileTree.Change
import ProgramIdl.Proofs.FileTree.Entries

/-!
# What changes to file trees do

Directories are made all the way up to a place, or not at all (`run_ensureDirectories`), and a file
that is written in one step leaves what one written directly leaves, without a trace of its temporary
file (`run_writeAtomically`).
-/

set_option autoImplicit false

namespace ProgramIdl

namespace FileTree

variable {before middle after : FileTree} {place : Place}

/-- A tree with a directory at a place, and with those that were missing above it. -/
structure MadeUpTo (before after : FileTree) (place : Place) : Prop where
  made : ∀ upper, upper <+: place → after.entry? upper = some .directory
  missing : ∀ upper, upper <+: place →
    before.entry? upper = some .directory ∨ before.entry? upper = none
  kept : ∀ other, ¬ other <+: place → after.entry? other = before.entry? other

theorem MadeUpTo.refl (leads : before.Leads place) (directory : before.entry? place = some .directory) :
    MadeUpTo before before place := by
  have all : ∀ upper, upper <+: place → before.entry? upper = some .directory := by
    intro upper above
    by_cases same : upper = place
    · rw [same, directory]
    · exact leads upper above same
  exact ⟨all, fun upper above => Or.inl (all upper above), fun _ _ => rfl⟩

theorem MadeUpTo.keeps (made : MadeUpTo before after place) {other : Place} {entry : Entry}
    (held : before.entry? other = some entry) : after.entry? other = some entry := by
  by_cases above : other <+: place
  · obtain directory | missing := made.missing other above
    · rw [made.made other above, ← directory, held]
    · rw [held] at missing
      cases missing
  · rw [made.kept other above, held]

theorem not_prefix_concat (place : Place) (name : String) : ¬ place ++ [name] <+: place := by
  intro above
  have short := above.length_le
  rw [List.length_append, List.length_singleton] at short
  omega

theorem MadeUpTo.leads_concat (made : MadeUpTo before after place) (name : String) :
    after.Leads (place ++ [name]) := by
  intro upper above apart
  exact made.made upper ((List.prefix_concat_iff.mp above).resolve_left apart)

theorem MadeUpTo.put (made : MadeUpTo before middle place) {name : String}
    (missing : before.entry? (place ++ [name]) = none) :
    MadeUpTo before (middle.put (place ++ [name]) .directory) (place ++ [name]) := by
  have nonempty : place ++ [name] ≠ [] := by simp
  constructor
  · intro upper above
    by_cases same : upper = place ++ [name]
    · rw [same, put_self nonempty]
    · rw [put_of_ne same]
      exact made.leads_concat name upper above same
  · intro upper above
    by_cases same : upper = place ++ [name]
    · rw [same]
      exact Or.inr missing
    · exact made.missing upper ((List.prefix_concat_iff.mp above).resolve_left same)
  · intro other apart
    have here : other ≠ place ++ [name] := by
      rintro rfl
      exact apart (List.prefix_refl _)
    rw [put_of_ne here]
    exact made.kept other fun above => apart (above.trans (List.prefix_append ..))

end FileTree

/-! ## Running changes -/

theorem run_andThen {ε σ α β : Type} (change : ExceptT ε (StateM σ) α)
    (next : α → ExceptT ε (StateM σ) β) (state : σ) :
    (change >>= next).run state =
      match change.run state with
      | (.ok value, after) => (next value).run after
      | (.error cause, after) => (.error cause, after) := by
  have shape : (change >>= next).run state =
      ExceptT.bindCont next (change.run state).1 (change.run state).2 := rfl
  rw [shape]
  rcases change.run state with ⟨outcome, after⟩
  cases outcome <;> rfl

theorem run_get {ε σ : Type} (state : σ) :
    (get : ExceptT ε (StateM σ) σ).run state = (.ok state, state) :=
  rfl

theorem run_tryCatch {ε σ α : Type} (change : ExceptT ε (StateM σ) α)
    (handle : ε → ExceptT ε (StateM σ) α) (state : σ) :
    (tryCatch change handle).run state =
      match change.run state with
      | (.ok value, after) => (.ok value, after)
      | (.error cause, after) => (handle cause).run after := by
  change ExceptT.run (ExceptT.tryCatch change handle) state = _
  simp only [ExceptT.run, ExceptT.tryCatch, ExceptT.mk, bind, StateT.bind]
  rcases change state with ⟨outcome, after⟩
  cases outcome <;> rfl

namespace FileChange

open Workspace (obstacleCause)

variable {workspace : Workspace} {path : Path} {place : Place}

theorem run_locate (path : Path) (workspace : Workspace) : (locate path).run workspace =
    ((workspace.locate path).mapError (obstacleCause path), workspace) := by
  rw [locate, run_andThen, run_get]
  dsimp only
  cases workspace.locate path <;> rfl

theorem run_makeDirectory (path : Path) (workspace : Workspace) :
    (makeDirectory path).run workspace =
      match workspace.locate path with
      | .error obstacle => (.error (obstacleCause path obstacle), workspace)
      | .ok place =>
          if (workspace.tree.entry? place).isSome then (.error (.alreadyExists path), workspace)
          else (.ok (), workspace.put place .directory) := by
  rw [makeDirectory, run_andThen, run_locate]
  cases workspace.locate path with
  | error obstacle => rfl
  | ok place =>
      dsimp only [Except.mapError]
      rw [run_andThen, run_get]
      dsimp only
      split <;> rfl

theorem run_writeFile (path : Path) (content : List UInt8) (workspace : Workspace) :
    (writeFile path content).run workspace =
      match workspace.locate path with
      | .error obstacle => (.error (obstacleCause path obstacle), workspace)
      | .ok place =>
          if workspace.tree.entry? place = some .directory then
            (.error (.isDirectory path), workspace)
          else (.ok (), workspace.put place (.file content)) := by
  rw [writeFile, run_andThen, run_locate]
  cases workspace.locate path with
  | error obstacle => rfl
  | ok place =>
      dsimp only [Except.mapError]
      rw [run_andThen, run_get]
      dsimp only
      split <;> rfl

theorem run_replaceFile (temporary : Place) (content : List UInt8) (path : Path)
    (workspace : Workspace) :
    (replaceFile temporary content path).run workspace =
      match workspace.locate path with
      | .error obstacle => (.error (obstacleCause path obstacle), workspace)
      | .ok place =>
          if workspace.tree.entry? place = some .directory then
            (.error (.cannotReplace (Workspace.absolute temporary) path), workspace)
          else (.ok (), (workspace.remove temporary).put place (.file content)) := by
  rw [replaceFile, run_andThen, run_locate]
  cases workspace.locate path with
  | error obstacle => rfl
  | ok place =>
      dsimp only [Except.mapError]
      rw [run_andThen, run_get]
      dsimp only
      split <;> rfl

/-! ## Directories -/

theorem run_ensureDirectory (path : Path) (workspace : Workspace) :
    (ensureDirectory path).run workspace =
      match workspace.locate path with
      | .error obstacle => (.error (obstacleCause path obstacle), workspace)
      | .ok place =>
          match workspace.tree.entry? place with
          | none => (.ok (), workspace.put place .directory)
          | some .directory => (.ok (), workspace)
          | some (.file _) => (.error (.alreadyExists path), workspace) := by
  change ensureDirectory path workspace = _
  rw [ensureDirectory, run_makeDirectory, Workspace.isDirectory, Workspace.entry?]
  cases workspace.locate path with
  | error obstacle => cases obstacle <;> rfl
  | ok place =>
      obtain held | held | ⟨content, held⟩ := workspace.tree.nothing_directory_or_file place
      all_goals simp [held]

theorem run_ensureDirectoriesFrom_cons (root name : String) (above : List String)
    (workspace : Workspace) :
    (ensureDirectoriesFrom root (name :: above)).run workspace =
      match (ensureDirectory (Path.child ⟨root, above.reverse⟩ name)).run workspace with
      | (.error (.missing _), _) =>
          (ensureDirectoriesFrom root above >>= fun _ =>
            ensureDirectory (Path.child ⟨root, above.reverse⟩ name)).run workspace
      | outcome => outcome := by
  rw [Path.child, ← List.reverse_cons]
  rfl

/-- A directory is made below one that has been made. -/
theorem run_ensureDirectory_child {middle : Workspace} {name : String}
    (anchored : workspace.Anchored (path.child name))
    (made : workspace.tree.MadeUpTo middle.tree (workspace.namedPlace path))
    (sameHere : middle.here = workspace.here) (other : name ≠ "..")
    (absent : workspace.tree.entry? (workspace.namedPlace path ++ [name]) = none) :
    (ensureDirectory (path.child name)).run middle =
      (.ok (), middle.put (workspace.namedPlace path ++ [name]) .directory) := by
  have samePlace : middle.namedPlace (path.child name) = workspace.namedPlace path ++ [name] := by
    rw [← Workspace.namedPlace_child other, Workspace.namedPlace, Workspace.start, sameHere]
    rfl
  have leads := made.leads_concat name
  have stillAbsent := made.kept _ (FileTree.not_prefix_concat _ name)
  rw [← samePlace] at leads
  have stillAnchored := anchored.of_kept sameHere fun place directory => made.keeps directory
  rw [run_ensureDirectory, stillAnchored.locate_of_leads leads, samePlace]
  dsimp only
  rw [stillAbsent, absent]

/-- A change that leaves directories up to a place, or nothing changed if there is a file on the
way. -/
def MakesUpTo (place : Place) (workspace : Workspace) (change : FileChange Unit) : Prop :=
  (∃ after, change.run workspace = (.ok (), after) ∧ after.here = workspace.here ∧
    workspace.tree.MadeUpTo after.tree place ∧
      (workspace.tree.entry? place = some .directory → after = workspace)) ∨
  ∃ cause upper content, change.run workspace = (.error cause, workspace) ∧ upper <+: place ∧
    workspace.tree.entry? upper = some (.file content)

theorem run_ensureDirectoriesFrom_of_directory {root : String} {names : List String}
    (found : workspace.isDirectory ⟨root, names.reverse⟩ = true) :
    (ensureDirectoriesFrom root names).run workspace = (.ok (), workspace) := by
  obtain ⟨located, directory⟩ := Workspace.exists_of_isDirectory found
  have ensured : (ensureDirectory ⟨root, names.reverse⟩).run workspace = (.ok (), workspace) := by
    rw [run_ensureDirectory, located]
    dsimp only
    rw [directory]
  cases names with
  | nil => exact ensured
  | cons name above =>
      rw [List.reverse_cons] at ensured
      rw [run_ensureDirectoriesFrom_cons]
      change (ensureDirectory (Path.child ⟨root, above.reverse⟩ name)).run workspace = _ at ensured
      rw [ensured]

theorem run_ensureDirectories_of_directory (found : workspace.isDirectory path = true) :
    (ensureDirectories path).run workspace = (.ok (), workspace) :=
  run_ensureDirectoriesFrom_of_directory (by rwa [List.reverse_reverse])

/-- Behind an existing directory, all missing directories are made or nothing changes. -/
theorem makesUpTo_ensureDirectoriesFrom (wellFormed : workspace.WellFormed) {root : String}
    {front names : List String} (found : workspace.isDirectory ⟨root, front⟩ = true)
    (plain : ".." ∉ names) :
    MakesUpTo (workspace.namedPlace ⟨root, front ++ names.reverse⟩) workspace
      (ensureDirectoriesFrom root (names ++ front.reverse)) := by
  induction names with
  | nil =>
      obtain ⟨_, directory⟩ := Workspace.exists_of_isDirectory found
      have leads := wellFormed.closed.leads directory
      rw [List.reverse_nil, List.append_nil, List.nil_append]
      refine Or.inl ⟨workspace, ?_, rfl, .refl leads directory, fun _ => rfl⟩
      rw [← List.reverse_reverse front] at found
      exact run_ensureDirectoriesFrom_of_directory found
  | cons name above inductionHypothesis =>
      have plainAbove : ".." ∉ above := fun listed => plain (List.mem_cons_of_mem name listed)
      have other : name ≠ ".." := by
        rintro rfl
        exact plain List.mem_cons_self
      have path : Path.mk root (front ++ (name :: above).reverse) =
          Path.child ⟨root, front ++ above.reverse⟩ name := by
        rw [List.reverse_cons, ← List.append_assoc]
        rfl
      have reversed : (above ++ front.reverse).reverse = front ++ above.reverse := by simp
      have anchored : workspace.Anchored (Path.child ⟨root, front ++ above.reverse⟩ name) :=
        ⟨front, (name :: above).reverse, (congrArg Path.parts path).symm, by rwa [List.mem_reverse],
          found⟩
      rw [path, Workspace.namedPlace_child other, MakesUpTo, List.cons_append,
        run_ensureDirectoriesFrom_cons, reversed, run_ensureDirectory]
      cases located : workspace.locate (Path.child ⟨root, front ++ above.reverse⟩ name) with
      | ok place =>
          obtain ⟨rfl, leads⟩ := anchored.leads_of_locate wellFormed located
          rw [Workspace.namedPlace_child other] at leads ⊢
          obtain held | held | ⟨content, held⟩ := workspace.tree.nothing_directory_or_file
            (workspace.namedPlace ⟨root, front ++ above.reverse⟩ ++ [name])
          all_goals
            dsimp only
            rw [held]
          · have directory := leads _ (List.prefix_append ..) (by simp)
            have leadsAbove := wellFormed.closed.leads directory
            exact Or.inl ⟨_, rfl, rfl, (FileTree.MadeUpTo.refl leadsAbove directory).put held,
              fun same => by cases same⟩
          · exact Or.inl ⟨workspace, rfl, rfl, .refl leads held, fun _ => rfl⟩
          · exact Or.inr ⟨_, _, content, rfl, List.prefix_refl _, held⟩
      | error obstacle =>
          have absent : workspace.tree.entry?
              (workspace.namedPlace ⟨root, front ++ above.reverse⟩ ++ [name]) = none := by
            by_contra held
            obtain ⟨entry, stands⟩ := Option.ne_none_iff_exists'.mp held
            rw [← Workspace.namedPlace_child other] at stands
            have reached := anchored.locate_of_leads (wellFormed.closed.leads stands)
            rw [located] at reached
            cases reached
          cases obstacle with
          | notDirectory =>
              obtain ⟨upper, content, above, file⟩ := anchored.exists_file located
              rw [Workspace.namedPlace_child other] at above
              exact Or.inr ⟨_, upper, content, rfl, above, file⟩
          | missing =>
              dsimp only [obstacleCause]
              rw [run_andThen]
              obtain ⟨middle, ran, sameHere, made, _⟩ | ⟨cause, upper, content, ran, above, file⟩ :=
                inductionHypothesis plainAbove
              · rw [ran]
                dsimp only
                rw [run_ensureDirectory_child anchored made sameHere other absent, absent]
                exact Or.inl ⟨_, rfl, sameHere, made.put absent, fun same => by cases same⟩
              · rw [ran]
                exact Or.inr ⟨cause, upper, content, rfl, above.trans (List.prefix_append ..), file⟩

theorem makesUpTo_ensureDirectories (wellFormed : workspace.WellFormed)
    (anchored : workspace.Anchored path) :
    MakesUpTo (workspace.namedPlace path) workspace (ensureDirectories path) := by
  obtain ⟨front, back, split, plain, found⟩ := anchored
  have makes := makesUpTo_ensureDirectoriesFrom wellFormed found
    (show ".." ∉ back.reverse by rwa [List.mem_reverse])
  rwa [List.reverse_reverse, ← List.reverse_append, ← split] at makes

/-! ## Temporary files -/

/-- The names tried for a temporary file grow by one character each. -/
theorem length_iterate_underscore (unique : String) (tries : Nat) :
    ((fun name => name ++ "_")^[tries] unique).length = unique.length + tries := by
  induction tries generalizing unique with
  | zero => rfl
  | succ tries inductionHypothesis =>
      rw [Function.iterate_succ_apply, inductionHypothesis, String.length_append]
      change unique.length + 1 + tries = _
      omega

section Fresh

variable {tree : FileTree} {directory : Place} {nameOf : String → String}

/-- A name is taken only if all those before it are. -/
theorem taken_of_freshName {unique : String} {tries : Nat}
    (taken : tree.entry? (directory ++ [freshName tree directory nameOf unique tries]) ≠ none) :
    ∀ earlier ≤ tries, tree.entry?
      (directory ++ [nameOf ((fun name => name ++ "_")^[earlier] unique)]) ≠ none := by
  induction tries generalizing unique with
  | zero =>
      intro earlier bound
      rw [Nat.le_zero.mp bound]
      exact taken
  | succ tries inductionHypothesis =>
      rw [freshName] at taken
      by_cases free : (tree.entry? (directory ++ [nameOf unique])).isNone
      · rw [if_pos free] at taken
        exact absurd (Option.isNone_iff_eq_none.mp free) taken
      · rw [if_neg free] at taken
        intro earlier bound
        cases earlier with
        | zero => exact fun none => free (Option.isNone_iff_eq_none.mpr none)
        | succ earlier =>
            rw [Function.iterate_succ_apply]
            exact inductionHypothesis taken earlier (Nat.le_of_succ_le_succ bound)

/-- Among more names than the tree has entries, one is free. -/
theorem freshName_fresh (injective : Function.Injective nameOf) (unique : String) :
    tree.entry? (directory ++
      [freshName tree directory nameOf unique (tree.entries.length + 1)]) = none := by
  by_contra taken
  have all := taken_of_freshName taken
  let places := (List.range (tree.entries.length + 2)).map fun tries =>
    directory ++ [nameOf ((fun name => name ++ "_")^[tries] unique)]
  have distinct : places.Nodup := by
    apply List.Nodup.map _ List.nodup_range
    intro first second same
    have names := injective (List.singleton_inj.mp (List.append_cancel_left same))
    have lengths := congrArg String.length names
    rw [length_iterate_underscore, length_iterate_underscore] at lengths
    omega
  have keys : places ⊆ tree.entries.map Prod.fst := by
    intro place listed
    obtain ⟨tries, bound, rfl⟩ := List.mem_map.mp listed
    rw [List.mem_range] at bound
    have held := all tries (by omega)
    rw [FileTree.eq_lookup_of_ne_nil (by simp)] at held
    obtain ⟨entry, found⟩ := Option.ne_none_iff_exists'.mp held
    exact FileTree.mem_keys_of_lookup found
  have few := distinct.length_le_of_subset keys
  simp only [places, List.length_map, List.length_range] at few
  omega

end Fresh

theorem temporaryName_injective (name : String) : Function.Injective (temporaryName name) := by
  intro first second same
  simp only [temporaryName, ← String.toList_inj, String.toList_append] at same
  rw [← String.toList_inj]
  exact List.append_cancel_left (List.append_cancel_right same)

theorem temporaryPlace_fresh (workspace : Workspace) (path : Path) (unique : String) :
    workspace.tree.entry? (temporaryPlace workspace path unique) = none :=
  freshName_fresh (temporaryName_injective path.name) unique

/-- A file written in one step leaves what one written directly leaves; where it cannot be written
nothing changes. -/
theorem run_writeAtomically (located : workspace.locate path = .ok place) (unique : String)
    (content : List UInt8) :
    (writeAtomically unique path content).run workspace =
      if workspace.tree.entry? place = some .directory then
        (.error (.cannotReplace (Workspace.absolute (temporaryPlace workspace path unique)) path),
          workspace)
      else (.ok (), workspace.put place (.file content)) := by
  have fresh := temporaryPlace_fresh workspace path unique
  generalize chosen : temporaryPlace workspace path unique = temporary at *
  have shape : (writeAtomically unique path content).run workspace =
      (tryCatch (replaceFile temporary content path) fun cause => do
        modify (·.remove temporary)
        throw cause).run (workspace.put temporary (.file content)) := by
    rw [← chosen]
    rfl
  have stillLocated : (workspace.put temporary (.file content)).locate path = .ok place := by
    refine FileTree.follow_of_kept (fun upper directory => ?_) located
    have apart : upper ≠ temporary := by
      rintro rfl
      rw [fresh] at directory
      cases directory
    rw [Workspace.put, FileTree.put_of_ne apart, directory]
  have restored : (workspace.put temporary (.file content)).remove temporary = workspace := by
    rw [Workspace.remove, Workspace.put, FileTree.remove_put_of_fresh fresh]
  -- The temporary file is no directory, and where it stands there was none before.
  have directory : (workspace.put temporary (.file content)).tree.entry? place =
      some .directory ↔ workspace.tree.entry? place = some .directory := by
    by_cases same : place = temporary
    · rw [same, fresh, Workspace.put, FileTree.put_self (FileTree.ne_nil_of_fresh fresh)]
      simp
    · rw [Workspace.put, FileTree.put_of_ne same]
  rw [shape, run_tryCatch, run_replaceFile, stillLocated]
  dsimp only
  by_cases held : workspace.tree.entry? place = some .directory
  · rw [if_pos (directory.mpr held), if_pos held]
    exact congrArg (Prod.mk _) restored
  · rw [if_neg (mt directory.mp held), if_neg held, restored]

end FileChange

end ProgramIdl
