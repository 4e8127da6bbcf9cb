import ProgramIdl.CommandLine.Run
import ProgramIdl.Proofs.Declaration.Leaves
import ProgramIdl.Proofs.Generate
import ProgramIdl.Proofs.Output
import ProgramIdl.Proofs.Schema.Interface

/-!
# The command that writes a schema

With an output file, the command prints nothing and writes to the file what it would print without
one; where it fails, nothing changes (`run_idl`).
-/

set_option autoImplicit false

namespace ProgramIdl.CommandLine

/-! ## Arguments -/

/-- How the command that writes a schema is called, save for the output file; what is left out has its
default. -/
structure IdlOptions where
  verbose : Bool := false
  path : Option String := none
  name : Option String := none
  style : Option Json.Style := none
  force : Bool := false

/-- An option with its value, if it is given. -/
def valued (flag : String) : Option String → List String
  | some value => [flag, value]
  | none => []

/-- An option without a value, if it is given. -/
def flagged (flag : String) (given : Bool) : List String :=
  if given then [flag] else []

/-- The arguments of a call, from the name of the command on. -/
def IdlOptions.commandArguments (options : IdlOptions) (output : Option String) : List String :=
  valued "--path" options.path ++ (valued "--name" options.name ++
    (flagged "--pretty" (options.style = some .pretty) ++
      (flagged "--compact" (options.style = some .compact) ++
        (flagged "--force" options.force ++ (valued "--output" output ++ [])))))

/-- The arguments of a call. -/
def IdlOptions.arguments (options : IdlOptions) (output : Option String) : List String :=
  flagged "--verbose" options.verbose ++ "idl" :: options.commandArguments output

/-! ## Understanding the arguments -/

/-- An option with its value among those that have been understood. -/
def givenValue (key : String) (value : Option String) : List GivenOption :=
  (value.map (GivenOption.mk key)).toList

/-- An option without a value among those that have been understood. -/
def givenFlag (key : String) (given : Bool) : List GivenOption :=
  if given then [⟨key, ""⟩] else []

section Parsing

variable {forms : List OptionForm} {flag key : String}

theorem parse_valued (spelled : readArgument forms flag = .awaiting [] key) (other : flag ≠ "--")
    (value : Option String) (rest : List String) :
    parseArguments forms true (valued flag value ++ rest) =
      (parseArguments forms true rest).map (·.withOptions (givenValue key value)) := by
  cases value with
  | none => simp [valued, givenValue, ParsedArguments.withOptions]
  | some value =>
      rw [valued, List.cons_append, parseArguments, if_neg other, spelled]
      rfl

theorem parse_flagged (spelled : readArgument forms flag = .complete [⟨key, ""⟩])
    (other : flag ≠ "--") (given : Bool) (rest : List String) :
    parseArguments forms true (flagged flag given ++ rest) =
      (parseArguments forms true rest).map (·.withOptions (givenFlag key given)) := by
  cases given with
  | false => simp [flagged, givenFlag, ParsedArguments.withOptions]
  | true =>
      rw [flagged, if_pos rfl, List.singleton_append, parseArguments, if_neg other, spelled]
      rfl

end Parsing

/-- The options of a call as they are understood. -/
def IdlOptions.given (options : IdlOptions) (output : Option String) : List GivenOption :=
  givenValue "path" options.path ++ (givenValue "name" options.name ++
    (givenFlag "pretty" (options.style = some .pretty) ++
      (givenFlag "compact" (options.style = some .compact) ++
        (givenFlag "force" options.force ++ (givenValue "output" output ++ [])))))

theorem parse_commandArguments (options : IdlOptions) (output : Option String) :
    parseArguments idlForms true (options.commandArguments output) =
      some { options := options.given output } := by
  have path : readArgument idlForms "--path" = .awaiting [] "path" := by decide +kernel
  have name : readArgument idlForms "--name" = .awaiting [] "name" := by decide +kernel
  have pretty : readArgument idlForms "--pretty" = .complete [⟨"pretty", ""⟩] := by decide +kernel
  have compact : readArgument idlForms "--compact" = .complete [⟨"compact", ""⟩] := by
    decide +kernel
  have force : readArgument idlForms "--force" = .complete [⟨"force", ""⟩] := by decide +kernel
  have output : readArgument idlForms "--output" = .awaiting [] "output" := by decide +kernel
  rw [IdlOptions.commandArguments, parse_valued path (by decide), parse_valued name (by decide),
    parse_flagged pretty (by decide), parse_flagged compact (by decide),
    parse_flagged force (by decide), parse_valued output (by decide)]
  rfl

theorem read_given (options : IdlOptions) (output : Option String) :
    let parsed : ParsedArguments := { options := options.given output }
    parsed.value? "path" = options.path ∧ parsed.value? "name" = options.name ∧
      parsed.value? "output" = output ∧ parsed.has "force" = options.force ∧
        parsed.has "help" = false ∧ styleOf parsed = options.style.getD .pretty := by
  obtain ⟨verbose, path, name, style, force⟩ := options
  cases path <;> cases name <;> cases force <;> cases output <;> rcases style with _ | _ | _
  all_goals exact ⟨rfl, rfl, rfl, rfl, rfl, rfl⟩

/-- What the arguments of a call ask for. -/
def IdlOptions.call? (options : IdlOptions) (workspace : Workspace) (output : Option String) :
    Option IdlCall := do
  let path ← directoryPath? workspace (options.path.getD ".")
  let output ←
    match output with
    | some text => (filePath? workspace text).map some
    | none => some none
  some {
    path := path
    output := output
    name := options.name
    style := options.style.getD .pretty
    force := options.force }

theorem ofArguments_arguments (options : IdlOptions) (workspace : Workspace)
    (output : Option String) : Request.ofArguments workspace (options.arguments output) =
      match options.call? workspace output with
      | some call => .ok (.idl options.verbose call)
      | none => .error (usageError "pina-idl idl [OPTIONS]") := by
  have main : parseArguments mainForms false (options.arguments output) =
      some { options := givenFlag "verbose" options.verbose
             operands := "idl" :: options.commandArguments output } := by
    cases verbose : options.verbose
    all_goals
      rw [IdlOptions.arguments, verbose]
      rfl
  obtain ⟨path, name, file, force, help, style⟩ := read_given options output
  have request : Request.ofCommand idlForms "pina-idl idl [OPTIONS]" idlHelp
      (fun parsed => (IdlCall.ofArguments? workspace parsed).map (.idl options.verbose))
      (options.commandArguments output) =
        match options.call? workspace output with
        | some call => .ok (.idl options.verbose call)
        | none => .error (usageError "pina-idl idl [OPTIONS]") := by
    have understood : IdlCall.ofArguments? workspace { options := options.given output } =
        options.call? workspace output := by
      rw [IdlCall.ofArguments?, IdlOptions.call?, path, name, file, force, style]
      rfl
    rw [Request.ofCommand, parse_commandArguments]
    dsimp only
    rw [help, understood]
    cases options.call? workspace output <;> rfl
  rw [← request, Request.ofArguments, main]
  cases options.verbose <;> rfl

/-! ## Running a call -/

theorem run_stateBind {σ α β : Type} (change : StateM σ α) (next : α → StateM σ β) (state : σ) :
    (change >>= next).run state = (next (change.run state).1).run (change.run state).2 :=
  rfl

theorem run_idlCall (call : IdlCall) (verbose : Bool) (unique : String) (workspace : Workspace) :
    (call.run verbose unique).run workspace =
      let schema := Generate.schemaText { nameOverride := call.name } workspace call.path call.style
      let log := logText verbose schema.notices
      match schema.outcome, call.output with
      | .error failure, _ => (failed log failure, workspace)
      | .ok text, none => ({ output := text, errors := log }, workspace)
      | .ok text, some path =>
          match (Output.write { mode := outputMode call.force } unique path text).run workspace with
          | (.ok (), after) => ({ errors := log }, after)
          | (.error failure, after) => (failed log failure, after) := by
  have got : (get : StateM Workspace Workspace).run workspace = (workspace, workspace) := rfl
  rw [IdlCall.run, run_stateBind, got]
  dsimp only
  generalize Generate.schemaText { nameOverride := call.name } workspace call.path call.style = schema
  obtain ⟨notices, outcome⟩ := schema
  dsimp only
  cases outcome with
  | error failure => rfl
  | ok text =>
      cases call.output with
      | none => rfl
      | some path =>
          dsimp only
          rw [run_stateBind]
          generalize Output.write { mode := outputMode call.force } unique path text = change
          have ran : StateT.run (ExceptT.run change) workspace = change.run workspace := rfl
          rw [ran]
          rcases change.run workspace with ⟨_ | _, after⟩ <;> rfl

theorem run_arguments (options : IdlOptions) (output : Option String) (unique : String)
    (workspace : Workspace) : (run unique (options.arguments output)).run workspace =
      match options.call? workspace output with
      | some call => (call.run options.verbose unique).run workspace
      | none => (usageError "pina-idl idl [OPTIONS]", workspace) := by
  have got : (get : StateM Workspace Workspace).run workspace = (workspace, workspace) := rfl
  rw [run, run_stateBind, got]
  dsimp only
  rw [ofArguments_arguments]
  cases options.call? workspace output <;> rfl

/-! ## The output file -/

theorem not_mem_foldl_step {names : List String} {place : Place} (plain : ".." ∉ place) :
    ".." ∉ names.foldl FileTree.step place := by
  induction names generalizing place with
  | nil => exact plain
  | cons name names inductionHypothesis =>
      rw [List.foldl_cons]
      apply inductionHypothesis
      rw [FileTree.step]
      split
      · exact fun listed => plain (List.dropLast_subset place listed)
      · rename_i other
        simpa using ⟨plain, Ne.symm other⟩

section Resolved

variable {workspace : Workspace}

/-- The path that an option names has no double points any more. -/
theorem resolvePath_plain (plain : ".." ∉ workspace.here) (text : String) :
    ".." ∉ (resolvePath workspace text).parts := by
  refine not_mem_foldl_step ?_
  rw [Workspace.start]
  split
  · exact plain
  · simp

theorem namedPlace_resolvePath (plain : ".." ∉ workspace.here) (text : String) :
    workspace.namedPlace (resolvePath workspace text) = workspace.namedPlace (.ofString text) := by
  rw [Workspace.namedPlace_eq (resolvePath_plain plain text)]
  rfl

end Resolved

theorem call?_none {options : IdlOptions} {workspace : Workspace} {file : String} {call : IdlCall}
    (understood : options.call? workspace (some file) = some call) :
    options.call? workspace none = some { call with output := none } ∧
      call.output = some (resolvePath workspace file) ∧ call.force = options.force := by
  rw [IdlOptions.call?] at understood ⊢
  cases directory : directoryPath? workspace (options.path.getD ".") with
  | none =>
      rw [directory] at understood
      cases understood
  | some path =>
      rw [directory] at understood
      by_cases occupied : workspace.isDirectory (resolvePath workspace file) = true
      · have refused : filePath? workspace file = none := if_pos occupied
        simp only [refused] at understood
        cases understood
      · have accepted : filePath? workspace file = some (resolvePath workspace file) :=
          if_neg occupied
        simp only [accepted] at understood
        obtain rfl := Option.some.inj understood
        exact ⟨rfl, rfl, rfl⟩

/-- A call without an output file changes nothing. -/
theorem exists_printed (options : IdlOptions) (unique : String) (workspace : Workspace) :
    ∃ printed, (run unique (options.arguments none)).run workspace = (printed, workspace) := by
  rw [run_arguments, IdlOptions.call?]
  cases directoryPath? workspace (options.path.getD ".") with
  | none => exact ⟨_, rfl⟩
  | some path =>
      simp only [Option.bind_eq_bind, Option.bind_some]
      rw [run_idlCall]
      dsimp only
      split
      · exact ⟨_, rfl⟩
      · exact ⟨_, rfl⟩
      · rename_i given
        cases given

/-- The failures that end a call: that of the schema, or that of the file it is written to. -/
inductive IdlCall.Fails (call : IdlCall) (workspace : Workspace) (unique : String) :
    Failure → Prop where
  | schema {failure : Failure}
      (outcome : (Generate.schemaText { nameOverride := call.name } workspace call.path
        call.style).outcome = .error failure) : Fails call workspace unique failure
  | file {text : String} {path : Path} {failure : Failure}
      (outcome : (Generate.schemaText { nameOverride := call.name } workspace call.path
        call.style).outcome = .ok text)
      (output : call.output = some path)
      (refused : ((Output.write { mode := outputMode call.force } unique path text).run
        workspace).1 = .error failure) : Fails call workspace unique failure

/-- Beside a call without an output file, which changes nothing, the same call with one prints nothing.
Where it succeeds, the file holds what the other call prints, in directories that are made if they are
missing, and nothing else has changed; otherwise nothing has changed, and the failure that has ended
the call is the last that is shown.  Without leave to overwrite, whatever stands anywhere is kept. -/
theorem run_idl {workspace : Workspace} (wellFormed : workspace.WellFormed)
    (plain : ".." ∉ workspace.here) (options : IdlOptions) (file unique : String) :
    ∃ printed written after,
      (run unique (options.arguments none)).run workspace = (printed, workspace) ∧
      (run unique (options.arguments (some file))).run workspace = (written, after) ∧
      written.output = "" ∧
      (written.exit = 0 → printed.exit = 0 ∧ printed.errors = written.errors ∧
        workspace.Wrote after (workspace.namedPlace (.ofString file))
          (Text.utf8Bytes printed.output.toList)) ∧
      (written.exit ≠ 0 → after = workspace) ∧
      (written.exit = 1 → ∃ call log failure, options.call? workspace (some file) = some call ∧
        call.Fails workspace unique failure ∧
          written.errors = log ++ "Error: " ++ failure.message ++ "\n") ∧
      (options.force = false → ∀ place entry, workspace.tree.entry? place = some entry →
        after.tree.entry? place = some entry) := by
  obtain ⟨printed, printing⟩ := exists_printed options unique workspace
  rw [run_arguments options (some file)]
  cases understood : options.call? workspace (some file) with
  | none =>
      exact ⟨printed, _, workspace, printing, rfl, rfl, nofun, fun _ => rfl, nofun, fun _ _ _ => id⟩
  | some call =>
      obtain ⟨withoutFile, output, force⟩ := call?_none understood
      rw [run_arguments, withoutFile] at printing ⊢
      dsimp only
      rw [run_idlCall, run_idlCall]
      dsimp only
      cases outcome : (Generate.schemaText { nameOverride := call.name } workspace call.path
        call.style).outcome with
      | error failure =>
          refine ⟨_, _, workspace, rfl, rfl, rfl, nofun, fun _ => rfl, fun _ => ?_, fun _ _ _ => id⟩
          exact ⟨call, _, failure, rfl, .schema outcome, rfl⟩
      | ok text =>
          rw [output]
          dsimp only
          have anchored := wellFormed.anchored (resolvePath_plain plain file)
          obtain ⟨after, ran, unoccupied, _, wrote⟩ | ⟨failure, ran, _⟩ :=
            Output.run_write_cases wellFormed anchored { mode := outputMode call.force } unique text
          · rw [ran]
            have keeps (unforced : options.force = false) (place : Place) (entry : Entry)
                (stands : workspace.tree.entry? place = some entry) :
                after.tree.entry? place = some entry := by
              have kept : outputMode call.force = .keep := by rw [force, unforced]; rfl
              exact Output.keeps_of_absent wellFormed anchored
                (fun occupied => unoccupied ⟨kept, occupied⟩) wrote stands
            rw [namedPlace_resolvePath plain] at wrote
            exact ⟨_, _, after, rfl, rfl, rfl, fun _ => ⟨rfl, rfl, wrote⟩,
              fun fails => absurd rfl fails, nofun, keeps⟩
          · have refused := congrArg Prod.fst ran
            rw [ran]
            refine ⟨_, _, workspace, rfl, rfl, rfl, nofun, fun _ => rfl, fun _ => ?_, fun _ _ _ => id⟩
            exact ⟨call, _, failure, rfl, .file outcome output refused, rfl⟩

/-! ### A program that declares nothing but its address -/

/-- The text of the program. -/
def addressProgram : String :=
  "\n".intercalate ["declare_id!(\"11111111111111111111111111111111\");"]

/-- A directory with the program in it. -/
def addressWorkspace : Workspace where
  tree := ⟨[(["Cargo.toml"], .file []), (["src"], .directory),
    (["src", "lib.rs"], .file (Text.utf8Bytes addressProgram.toList))]⟩

/-- What is read from the text. -/
def addressFile : ScannedFile :=
  ⟨"/src/lib.rs", [.programId ⟨"declare_id", ⟨"/src/lib.rs", 1⟩, [],
    ⟨"11111111111111111111111111111111", 0⟩⟩]⟩

theorem scan_addressProgram : (scan "/src/lib.rs" addressProgram).outcome = .ok addressFile := by
  obtain ⟨items, parsed, gathered⟩ : ∃ items, Syntax.itemsOf? addressProgram = some items ∧
      decide ((gather (findings "/src/lib.rs" 0 items)).outcome = .ok addressFile.declarations) := by
    refine (Option.any_eq_true _ _).mp ?_
    rw [addressProgram, itemsOf?_lines]
    simp only [List.map_cons, List.map_nil]
    repeat rw [String.toList_ofList]
    decide +kernel
  exact outcome_scan parsed (of_decide_eq_true gathered)

theorem sourceFiles_addressWorkspace : Generate.sourceFiles {} addressWorkspace ⟨"/", []⟩ =
      .ok [⟨"/", ["src", "lib.rs"]⟩] := by
  have source : (⟨"/", []⟩ : Path) ++ Path.ofString "src" ++ (⟨"", ["lib.rs"]⟩ : Path) =
      ⟨"/", ["src", "lib.rs"]⟩ := by decide +kernel
  have place : addressWorkspace.namedPlace ((⟨"/", []⟩ : Path) ++ Path.ofString "src") = ["src"] := by
    decide +kernel
  have held : addressWorkspace.tree.entry? (addressWorkspace.namedPlace
      ((⟨"/", []⟩ : Path) ++ Path.ofString "src") ++ ["lib.rs"]) =
        some (.file (Text.utf8Bytes addressProgram.toList)) := by
    rw [place]
    rfl
  have alone (names : List String) (nonempty : names ≠ []) (stands : (addressWorkspace.tree.entry?
      (addressWorkspace.namedPlace ((⟨"/", []⟩ : Path) ++ Path.ofString "src") ++ names)).isSome) :
      names = ["lib.rs"] := by
    rw [place, FileTree.eq_lookup_of_ne_nil (by simp), List.lookup_isSome_iff] at stands
    obtain ⟨entry, listed, same⟩ := stands
    simp only [addressWorkspace, List.mem_cons, List.not_mem_nil, or_false] at listed
    rcases listed with rfl | rfl | rfl
    · simp at same
    · simp [nonempty] at same
    · simpa using same
  have found : addressWorkspace.isDirectory ⟨"/", []⟩ = true := by decide +kernel
  have foundSource : addressWorkspace.isDirectory ((⟨"/", []⟩ : Path) ++ Path.ofString "src") = true := by
    decide +kernel
  rw [← source]
  exact Generate.sourceFiles_of_alone found foundSource Glob.namesFile_library held alone

/-- The program has a schema, which is read back from its text. -/
theorem schemaText_addressWorkspace (style : Json.Style) : ∃ text tree,
    (Generate.schemaText {} addressWorkspace ⟨"/", []⟩ style).outcome = .ok text ∧
      Json.read? text = some tree := by
  have name : Generate.programName {} addressWorkspace ⟨"/", []⟩ = .ok "unknown_program" := by
    decide +kernel
  have read : addressWorkspace.readText ⟨"/", ["src", "lib.rs"]⟩ = .ok addressProgram :=
    Workspace.readText_utf8Bytes rfl (by decide +kernel)
  have scanned : (Generate.scanFile addressWorkspace ⟨"/", ["src", "lib.rs"]⟩).outcome =
      .ok addressFile := by
    have path : Path.toString ⟨"/", ["src", "lib.rs"]⟩ = "/src/lib.rs" := by decide +kernel
    rw [Generate.outcome_scanFile, path]
    exact bind_eq_ok_iff.mpr ⟨_, read, scan_addressProgram⟩
  obtain ⟨program, assembled, said⟩ : ∃ program,
      (assemble .standard "unknown_program" [addressFile]).outcome = .ok program ∧
        decide (program.address = some "11111111111111111111111111111111" ∧
          program.tagged.length = 0 ∧ program.numbers = []) = true :=
    exists_ok_of_any (by decide +kernel)
  obtain ⟨address, untagged, numberless⟩ := of_decide_eq_true said
  have describable : program.Describable := by
    refine ⟨⟨_, address, by decide⟩, ?_, ?_⟩
    · rw [List.eq_nil_of_length_eq_zero untagged]
      nofun
    · rw [numberless]
      nofun
  obtain ⟨tree, written⟩ := Schema.exists_ofProgram describable Generate.version
  obtain ⟨text, rendered, readBack⟩ := Schema.exists_textOf describable written style
  refine ⟨text, tree, ?_, readBack⟩
  have ran : (Generate.readProgram {} addressWorkspace ⟨"/", []⟩).outcome = .ok program := by
    have scannedAll : ([⟨"/", ["src", "lib.rs"]⟩].mapM (Generate.scanFile addressWorkspace)).outcome =
        .ok [addressFile] := by
      rw [List.mapM_cons, Reporting.outcome_bind, scanned]
      rfl
    rw [Generate.outcome_readProgram]
    exact bind_eq_ok_iff.mpr ⟨_, name, bind_eq_ok_iff.mpr ⟨_, sourceFiles_addressWorkspace,
      bind_eq_ok_iff.mpr ⟨_, scannedAll, assembled⟩⟩⟩
  rw [Generate.outcome_schemaText, ran]
  exact rendered

/-- A file beside the program can be written. -/
theorem exit_addressWorkspace :
    ((run "" (({} : IdlOptions).arguments (some "idl.json"))).run addressWorkspace).1.exit = 0 := by
  have understood : ({} : IdlOptions).call? addressWorkspace (some "idl.json") =
      some { path := ⟨"/", []⟩, output := some ⟨"/", ["idl.json"]⟩ } := by decide +kernel
  obtain ⟨text, tree, outcome, read⟩ := schemaText_addressWorkspace .pretty
  rw [run_arguments, understood]
  dsimp only
  rw [run_idlCall]
  dsimp only
  rw [outcome]
  dsimp only
  have wellFormed : addressWorkspace.WellFormed := ⟨FileTree.closed_of_all (by decide +kernel), rfl⟩
  have anchored : addressWorkspace.Anchored ⟨"/", ["idl.json"]⟩ := wellFormed.anchored (by decide)
  obtain ⟨after, ran, _⟩ | ⟨failure, _, refused | refused | refused, _⟩ :=
    Output.run_write_cases wellFormed anchored { mode := outputMode false } "" text
  · rw [ran]
  · exact absurd refused (by decide +kernel)
  · refine absurd (fun _ => ?_) refused
    rw [Json.read?] at read
    cases found : Json.read text with
    | ok value => exact ⟨value, rfl⟩
    | error fault =>
        rw [found] at read
        cases read
  · exact absurd (FileTree.writable_of_inits (by decide +kernel) (by decide +kernel)) refused

theorem run_idl_address : addressWorkspace.WellFormed ∧ ".." ∉ addressWorkspace.here ∧
    ∃ printed written after,
      (run "" (({} : IdlOptions).arguments none)).run addressWorkspace =
        (printed, addressWorkspace) ∧
      (run "" (({} : IdlOptions).arguments (some "idl.json"))).run addressWorkspace =
        (written, after) ∧
      written.exit = 0 ∧ written.output = "" ∧
      addressWorkspace.Wrote after ["idl.json"] (Text.utf8Bytes printed.output.toList) := by
  have wellFormed : addressWorkspace.WellFormed := ⟨FileTree.closed_of_all (by decide +kernel), rfl⟩
  have plain : ".." ∉ addressWorkspace.here := by decide
  obtain ⟨printed, written, after, printing, writing, silent, agrees, _⟩ :=
    run_idl wellFormed plain {} "idl.json" ""
  have exits := exit_addressWorkspace
  rw [writing] at exits
  have place : addressWorkspace.namedPlace (.ofString "idl.json") = ["idl.json"] := by decide +kernel
  obtain ⟨_, _, wrote⟩ := agrees exits
  rw [place] at wrote
  exact ⟨wellFormed, plain, printed, written, after, printing, writing, exits, silent, wrote⟩

end ProgramIdl.CommandLine
