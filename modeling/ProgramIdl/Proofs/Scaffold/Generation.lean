import ProgramIdl.Proofs.Generate
import ProgramIdl.Proofs.Scaffold.Keeping
import ProgramIdl.Proofs.Scaffold.Manifest
import ProgramIdl.Proofs.Scaffold.Program
import ProgramIdl.Proofs.Scaffold.Writing

/-!
# From a new project to its schema

A project that is laid out in an empty directory has a schema, if the first letter or digit of its name
is a letter (`layOut_generates`).
-/

set_option autoImplicit false

namespace ProgramIdl

open ProgramIdl.Text

/-- A path by which a name is reached leads to a directory without it. -/
theorem Workspace.isDirectory_of_locate {workspace : Workspace} {root name : String}
    {names : List String} {place : Place}
    (located : workspace.locate ⟨root, names ++ [name]⟩ = .ok place) :
    workspace.isDirectory ⟨root, names⟩ = true := by
  obtain ⟨middle, reached, directory⟩ := FileTree.exists_of_follow_concat located
  refine decide_eq_true ?_
  rw [Workspace.entry?, show workspace.locate ⟨root, names⟩ = .ok middle from reached]
  exact directory

namespace Scaffold

/-! ## Empty directories -/

/-- The names of the files of a project. -/
theorem map_names_projectFiles (name : String) : (projectFiles name).map ProjectFile.names =
    [["Cargo.toml"], ["src", "lib.rs"], [".gitignore"]] := by
  change [(Path.ofString "Cargo.toml").parts, (Path.ofString "src/lib.rs").parts,
    (Path.ofString ".gitignore").parts] = _
  decide +kernel

theorem names_ne_nil {name : String} (file : ProjectFile) (listed : file ∈ projectFiles name) :
    file.names ≠ [] := by
  have member := List.mem_map_of_mem (f := ProjectFile.names) listed
  rw [map_names_projectFiles] at member
  intro empty
  rw [empty] at member
  simp at member

/-- A directory that is empty or not there yet. -/
structure Vacant (workspace : Workspace) (directory : Path) : Prop where
  anchored : workspace.Anchored directory
  above : ∀ upper, upper <+: workspace.namedPlace directory →
    workspace.tree.entry? upper = some .directory ∨ workspace.tree.entry? upper = none
  below : ∀ names, names ≠ [] →
    workspace.tree.entry? (workspace.namedPlace directory ++ names) = none

section Vacant

variable {workspace : Workspace} {directory : Path}

theorem vacant_of_isDirectory (wellFormed : workspace.WellFormed)
    (found : workspace.isDirectory directory = true)
    (empty : ∀ names, names ≠ [] →
      workspace.tree.entry? (workspace.namedPlace directory ++ names) = none) :
    Vacant workspace directory := by
  obtain ⟨_, stands⟩ := Workspace.exists_of_isDirectory found
  refine ⟨⟨directory.parts, [], (List.append_nil _).symm, nofun, found⟩, fun upper within => ?_, empty⟩
  by_cases whole : upper = workspace.namedPlace directory
  · rw [whole]
    exact .inl stands
  · exact .inl (wellFormed.closed.leads stands upper within whole)

theorem Vacant.writable (vacant : Vacant workspace directory) {names : List String}
    (nonempty : names ≠ []) :
    workspace.tree.Writable (workspace.namedPlace directory ++ names) := by
  constructor
  · intro upper within _
    rcases List.prefix_or_prefix_of_prefix within (List.prefix_append _ _) with above | ⟨more, rfl⟩
    · exact vacant.above upper above
    · by_cases here : more = []
      · rw [here, List.append_nil]
        exact vacant.above _ List.prefix_rfl
      · exact .inr (vacant.below more here)
  · rw [vacant.below names nonempty]
    nofun

/-- Nothing of a project is there yet. -/
theorem Vacant.existing?_eq_none (vacant : Vacant workspace directory) (name : String) :
    existing? workspace directory (projectFiles name) = none := by
  rw [existing?, List.find?_eq_none]
  intro path listed there
  obtain ⟨file, member, rfl⟩ := List.mem_map.mp listed
  have inside := inside_of_mem_projectFiles file member
  obtain ⟨entry, found⟩ := Option.isSome_iff_exists.mp there
  rw [Workspace.entry?] at found
  split at found
  · rename_i place located
    rw [Workspace.namedPlace_of_locate located, inside.namedPlace,
      vacant.below _ (names_ne_nil file member)] at found
    cases found
  · cases found

end Vacant

/-! ## Laying out a project -/

/-- What is written below a place changes nothing elsewhere. -/
theorem WroteFiles.kept {root place : Place} {files : List ProjectFile} {before after : Workspace}
    (wrote : WroteFiles root before files after)
    (apart : ∀ file ∈ files, ¬ place <+: root ++ file.names) :
    after.tree.entry? place = before.tree.entry? place := by
  induction wrote with
  | nil => rfl
  | cons wrote _ inductionHypothesis =>
      obtain ⟨here, later⟩ := List.forall_mem_cons.mp apart
      rw [inductionHypothesis later, wrote.kept place here]

/-- A workspace in which a project has been laid out where there was nothing. -/
structure LaidOut (workspace : Workspace) (directory : Path) (name : String) (after : Workspace) :
    Prop where
  stands : ∀ file ∈ projectFiles name, Stands after directory file
  place : after.namedPlace directory = workspace.namedPlace directory
  wrote : WroteFiles (workspace.namedPlace directory) workspace (projectFiles name) after

variable {workspace : Workspace} {directory : Path} {name : String}

theorem Vacant.exists_laidOut (vacant : Vacant workspace directory) (wellFormed : workspace.WellFormed)
    (named : snakeCase name ≠ "") (force : Bool) :
    ∃ after, (layOut directory name force).run workspace =
        (.ok ((projectFiles name).map fun file => file.pathIn directory), after) ∧
      LaidOut workspace directory name after := by
  have existing : (if force then none else existing? workspace directory (projectFiles name)) =
      none := by
    rw [vacant.existing?_eq_none, ite_self]
  have distinct := projectFiles_names_nodup name placeholderAddress
  obtain ⟨after, ran, wrote⟩ | ⟨_, _, _, file, rest, split, _, _, refused⟩ :=
    run_writeFiles wellFormed vacant.anchored inside_of_mem_projectFiles
      (projectFiles_apart name placeholderAddress)
  · obtain ⟨final, ranToo, lays, stands⟩ | ⟨_, _, ranToo, _⟩ :=
      lays_writeFiles workspace directory inside_of_mem_projectFiles distinct
    · rw [ran] at ranToo
      obtain rfl : after = final := (Prod.mk.inj ranToo).2
      refine ⟨after, ?_, stands, Workspace.namedPlace_congr lays.here directory, wrote⟩
      rw [run_layOut, if_neg named, existing]
      dsimp only
      rw [ran]
      rfl
    · rw [ran] at ranToo
      cases (Prod.mk.inj ranToo).1
  · have listed : file ∈ projectFiles name := by
      rw [split]
      simp
    exact absurd (vacant.writable (names_ne_nil file listed)) refused

/-! ## Reading it back -/

/-- The names of a project, of which the first letter or digit is a letter. -/
def namesOf (name : String) : Names :=
  ⟨snakeCase name, pascalCase name, placeholderAddress⟩

/-- The files of a project, by what is read of them. -/
theorem projectFiles_eq (name : String) : projectFiles name =
    [⟨"Cargo.toml", textOfLines (manifestLines (namesOf name))⟩,
      ⟨"src/lib.rs", textOfLines (programLines (namesOf name))⟩,
      ⟨".gitignore", textOfLines ignoredLines⟩] :=
  rfl

theorem not_mem_textOfLines {lines : List String} (plain : ∀ line ∈ lines, '\x0d' ∉ line.toList) :
    '\x0d' ∉ (textOfLines lines).toList := by
  rw [toList_textOfLines, List.mem_flatMap]
  rintro ⟨line, listed, member⟩
  rcases List.mem_append.mp member with inside | ending
  · exact plain line listed inside
  · exact absurd (List.mem_singleton.mp ending) (by decide)

theorem not_mem_manifestLines (name : String) :
    ∀ line ∈ manifestLines (namesOf name), '\x0d' ∉ line.toList := by
  have named : '\x0d' ∉ (namesOf name).snake.toList := fun member =>
    absurd (isAsciiWordChar_of_mem_snakeCase name _ member) (by decide)
  have second : '\x0d' ∉ ("name = \"" ++ (namesOf name).snake ++ "\"").toList := by
    rw [String.toList_append, String.toList_append, List.mem_append, List.mem_append, not_or, not_or]
    exact ⟨⟨by decide +kernel, named⟩, by decide +kernel⟩
  refine List.forall_mem_cons.mpr ⟨by decide +kernel, List.forall_mem_cons.mpr ⟨second, ?_⟩⟩
  decide +kernel

theorem not_mem_fill (ρ : Filling) {text : List Char} (plain : '\x0d' ∉ text) :
    '\x0d' ∉ ρ.fill text := by
  intro member
  obtain ⟨c, inText, inside⟩ := List.mem_flatMap.mp member
  by_cases hole : c ∈ Filling.holes
  · exact absurd (List.all_eq_true.mp (ρ.word_of_hole hole) _ inside) (by decide)
  · rw [ρ.char_of_not_mem hole, List.mem_singleton] at inside
    exact plain (inside ▸ inText)

theorem not_mem_openProgram : '\x0d' ∉ programChars openNames := by
  rw [programChars, programLines, openNames, placeholderAddress]
  simp only [List.flatMap_cons, List.flatMap_nil, String.toList_append]
  repeat rw [String.toList_ofList]
  decide +kernel

theorem isPlainText_of_words {text : List Char} (word : ∀ c ∈ text, isAsciiWordChar c = true) :
    Toml.IsPlainText text := by
  have table : ∀ point < 0x80, isAsciiWordChar (Char.ofNat point) = true →
      Char.ofNat point ≠ '"' ∧ Char.ofNat point ≠ '\\' ∧ Toml.isControl (Char.ofNat point) = false := by
    decide +kernel
  intro c member
  have here := table c.toNat (lt_of_ascii (word c member))
  rw [Char.ofNat_toNat] at here
  exact here (word c member)

namespace LaidOut

variable {after : Workspace}

/-- A file of the project is read as it was written. -/
theorem readText (laid : LaidOut workspace directory name after) {path text : String}
    {names : List String} (listed : ⟨path, text⟩ ∈ projectFiles name)
    (leads : (Path.ofString path).parts = names) (plain : '\x0d' ∉ text.toList) :
    after.readText ⟨directory.root, directory.parts ++ names⟩ = .ok text := by
  have inside := inside_of_mem_projectFiles _ listed
  have held := (laid.stands _ listed).readFile
  rw [inside.pathIn, ProjectFile.names, leads] at held
  exact Workspace.readText_utf8Bytes held plain

theorem locate (laid : LaidOut workspace directory name after) {path text : String}
    {names : List String} (listed : ⟨path, text⟩ ∈ projectFiles name)
    (leads : (Path.ofString path).parts = names) :
    after.locate ⟨directory.root, directory.parts ++ names⟩ =
      .ok (workspace.namedPlace directory ++ names) := by
  have inside := inside_of_mem_projectFiles _ listed
  have located := (laid.stands _ listed).located
  rwa [inside.pathIn, placeOf, laid.place, ProjectFile.names, leads] at located

theorem program_mem (name : String) :
    ⟨"src/lib.rs", textOfLines (programLines (namesOf name))⟩ ∈ projectFiles name :=
  List.mem_cons_of_mem _ List.mem_cons_self

theorem program_parts : (Path.ofString "src/lib.rs").parts = ["src", "lib.rs"] := by
  decide +kernel

/-- Nothing but the program is to be found among the sources. -/
theorem eq_of_entry? (laid : LaidOut workspace directory name after)
    (vacant : Vacant workspace directory) {names : List String} (nonempty : names ≠ [])
    (there : (after.tree.entry?
      (workspace.namedPlace directory ++ ["src"] ++ names)).isSome = true) : names = ["lib.rs"] := by
  by_contra other
  have apart : ∀ file ∈ projectFiles name,
      ¬ workspace.namedPlace directory ++ ["src"] ++ names <+:
        workspace.namedPlace directory ++ file.names := by
    intro file listed
    rw [List.append_assoc, List.prefix_append_right_inj]
    have member := List.mem_map_of_mem (f := ProjectFile.names) listed
    rw [map_names_projectFiles] at member
    obtain ⟨first, more, rfl⟩ := List.exists_cons_of_ne_nil nonempty
    simp only [List.mem_cons, List.not_mem_nil, or_false] at member
    rcases member with same | same | same <;> rw [same] <;> simp_all
  rw [laid.wrote.kept apart, List.append_assoc, vacant.below _ (by simp)] at there
  cases there

/-- The program is the only source file of the project. -/
theorem sourceFiles (laid : LaidOut workspace directory name after)
    (vacant : Vacant workspace directory) :
    Generate.sourceFiles {} after directory =
      .ok [⟨directory.root, directory.parts ++ ["src", "lib.rs"]⟩] := by
  have path : directory ++ Path.ofString "src" = ⟨directory.root, directory.parts ++ ["src"]⟩ := by
    have written : Path.ofString "src" = ⟨"", ["src"]⟩ := by decide +kernel
    rw [written]
    rfl
  have place : after.namedPlace (directory ++ Path.ofString "src") =
      workspace.namedPlace directory ++ ["src"] := by
    rw [path, ← laid.place]
    exact Workspace.namedPlace_child (by decide)
  have located : after.locate ⟨directory.root, (directory.parts ++ ["src"]) ++ ["lib.rs"]⟩ =
      .ok (workspace.namedPlace directory ++ ["src", "lib.rs"]) := by
    rw [List.append_assoc]
    exact laid.locate (program_mem name) program_parts
  have source : after.isDirectory (directory ++ Path.ofString "src") = true := by
    rw [path]
    exact Workspace.isDirectory_of_locate located
  have found : after.isDirectory directory = true := by
    have parent := Workspace.isDirectory_parent source
    rwa [path, Path.parent, List.dropLast_concat] at parent
  have written := (laid.stands _ (program_mem name)).written
  rw [placeOf, laid.place, ProjectFile.names, program_parts] at written
  have alone : Generate.sourceFiles {} after directory = _ :=
    Generate.sourceFiles_of_alone found source Glob.namesFile_library
      (by rw [place, List.append_assoc]; exact written) fun names nonempty there => by
        rw [place] at there
        exact laid.eq_of_entry? vacant nonempty there
  rw [alone]
  change Except.ok [(directory ++ Path.ofString "src") ++ (⟨"", ["lib.rs"]⟩ : Path)] = _
  rw [path]
  change Except.ok [(⟨directory.root, directory.parts ++ ["src"] ++ ["lib.rs"]⟩ : Path)] = _
  rw [List.append_assoc]
  rfl

/-- The manifest names the program. -/
theorem programName (laid : LaidOut workspace directory name after) (named : snakeCase name ≠ "") :
    Generate.programName {} after directory = .ok (snakeCase name) := by
  have listed : ⟨"Cargo.toml", textOfLines (manifestLines (namesOf name))⟩ ∈ projectFiles name :=
    List.mem_cons_self
  have plain : Toml.IsPlainText (namesOf name).snake.toList :=
    isPlainText_of_words (isAsciiWordChar_of_mem_snakeCase name)
  have parts : (Path.ofString "Cargo.toml").parts = ["Cargo.toml"] := by decide +kernel
  have read := laid.readText listed parts (not_mem_textOfLines (not_mem_manifestLines name))
  obtain ⟨table, parsed, package⟩ := packageName?_manifest plain named
  change (do return (← Manifest.readPackageName after directory).getD "unknown_program") = _
  change after.readText (Manifest.pathIn directory) = _ at read
  rw [Manifest.readPackageName, read]
  simp only [bind, Except.bind]
  rw [parsed]
  dsimp only [pure, Except.pure]
  rw [package]
  rfl

/-- The program declares the counter. -/
theorem scanFile (laid : LaidOut workspace directory name after) (led : LetterLed name) :
    ∃ file, (Generate.scanFile after
        ⟨directory.root, directory.parts ++ ["src", "lib.rs"]⟩).outcome = .ok file ∧
      file.declarations.map Declaration.placeless = Counter.declarations (namesOf name) := by
  have filled : filledNames led.filling = namesOf name := by
    rw [filledNames, LetterLed.filling, String.ofList_toList, String.ofList_toList]
    rfl
  have plain : '\x0d' ∉ (textOfLines (programLines (namesOf name))).toList := by
    rw [toList_textOfLines, ← filled]
    change '\x0d' ∉ programChars (filledNames led.filling)
    rw [programChars_filledNames]
    exact not_mem_fill _ not_mem_openProgram
  have read := laid.readText (program_mem name) program_parts plain
  obtain ⟨file, scanned, declares⟩ := scan_programLines led.filling
    (Path.toString ⟨directory.root, directory.parts ++ ["src", "lib.rs"]⟩)
  rw [filled] at scanned declares
  refine ⟨file, ?_, declares⟩
  generalize textOfLines (programLines (namesOf name)) = text at read scanned
  rw [Generate.outcome_scanFile, read]
  exact scanned

/-- The project is read as the program of a counter. -/
theorem readProgram (laid : LaidOut workspace directory name after)
    (vacant : Vacant workspace directory) (led : LetterLed name) :
    (Generate.readProgram {} after directory).outcome =
      .ok (Counter.program (namesOf name) .standard (snakeCase name)) := by
  obtain ⟨file, scanned, declares⟩ := laid.scanFile led
  have placed : Address.Writes placeholderAddress :=
    Address.validate_eq_ok_iff.mp (by decide +kernel)
  have word : ∀ c ∈ (namesOf name).pascal.toList, isAsciiWordChar c = true :=
    isAsciiWordChar_of_mem_pascalCase name
  have assembled := Counter.assembles word placed .standard (snakeCase name)
  have same : (Declarations.ofFiles [file]).placeless = (Counter.parts (namesOf name)).placeless := by
    have single : Declarations.ofFiles [file] = .ofList file.declarations := by
      rw [Declarations.ofFiles, List.mergeSort_singleton, List.flatMap_singleton]
    rw [single, ofList_placeless, declares, ← placeless_declarations, ← ofList_placeless]
    rfl
  have alike := (assembleDeclarations_alike .standard (snakeCase name) same).symm
  have outcome := alike.outcome.eq_ok assembled
  rw [Generate.outcome_readProgram, laid.programName led.snakeCase_ne, laid.sourceFiles vacant]
  have scans : ([⟨directory.root, directory.parts ++ ["src", "lib.rs"]⟩].mapM
      (Generate.scanFile after)).outcome = .ok [file] := by
    rw [List.mapM_cons, List.mapM_nil]
    simp only [Reporting.outcome_bind, scanned]
    rfl
  simp only [bind, Except.bind, scans]
  exact outcome

/-- A program that cannot be read ends the reading of the project. -/
theorem readProgram_of_unreadable (laid : LaidOut workspace directory name after)
    (vacant : Vacant workspace directory) (named : snakeCase name ≠ "")
    (plain : '\x0d' ∉ programChars (namesOf name))
    (unreadable : Syntax.itemsOf? (.ofList (programChars (namesOf name))) = none) :
    (Generate.readProgram {} after directory).outcome = .error (.malformed
      (.ofString (Path.toString ⟨directory.root, directory.parts ++ ["src", "lib.rs"]⟩)) none "") := by
  have whole : String.ofList (programChars (namesOf name)) =
      textOfLines (programLines (namesOf name)) := by
    rw [programChars, ← toList_textOfLines, String.ofList_toList]
  rw [whole] at unreadable
  rw [programChars, ← toList_textOfLines] at plain
  have read := laid.readText (program_mem name) program_parts plain
  generalize textOfLines (programLines (namesOf name)) = text at read unreadable
  rw [Generate.outcome_readProgram, laid.programName named, laid.sourceFiles vacant]
  have scans : ([⟨directory.root, directory.parts ++ ["src", "lib.rs"]⟩].mapM
      (Generate.scanFile after)).outcome = .error (.malformed
        (.ofString (Path.toString ⟨directory.root, directory.parts ++ ["src", "lib.rs"]⟩)) none
          "") := by
    rw [List.mapM_cons, Reporting.outcome_bind, Generate.outcome_scanFile, read]
    simp only [bind, Except.bind, scan, unreadable]
    rfl
  simp only [bind, Except.bind, scans]

end LaidOut


/-! ## The schema of a new project -/

/-- The program of a counter, which goes by the name of its project. -/
structure IsCounter (program : Program) (name : String) : Prop where
  name : program.name = snakeCase name
  address : program.address = some placeholderAddress
  instructions : program.instructions.map (·.layout.name) = ["initialize", "increment"]
  accounts : program.accounts.map (·.name) = ["CounterState"]
  events : program.events = []
  errors : program.errors.map (·.name) = ["Overflow"]
  pdas : program.pdas.map (·.name) = ["counter"]

theorem isCounter_program (known : KnownAddresses) (name : String) :
    IsCounter (Counter.program (namesOf name) known (snakeCase name)) name where
  name := rfl
  address := rfl
  instructions := Counter.instructionNames (namesOf name)
  accounts := rfl
  events := rfl
  errors := rfl
  pdas := rfl

/-- A project whose name has a letter in front of its digits can be laid out in an empty directory, and
what is laid out is read as the program of a counter, which has a schema. -/
theorem layOut_generates (wellFormed : workspace.WellFormed) (vacant : Vacant workspace directory)
    (led : LetterLed name) (force : Bool) :
    ∃ after program tree, (layOut directory name force).run workspace =
        (.ok ((projectFiles name).map fun file => file.pathIn directory), after) ∧
      (Generate.readProgram {} after directory).outcome = .ok program ∧ IsCounter program name ∧
        Schema.ofProgram Generate.version program = .ok tree ∧
          ∀ style, ∃ text, (Generate.schemaText {} after directory style).outcome = .ok text ∧
            Json.read? text = some tree := by
  obtain ⟨after, ran, laid⟩ := vacant.exists_laidOut wellFormed led.snakeCase_ne force
  have read := laid.readProgram vacant led
  have named : (namesOf name).address ≠ "" := (by decide : placeholderAddress ≠ "")
  have describable := Counter.describable named .standard (snakeCase name)
  obtain ⟨tree, written⟩ := Schema.exists_ofProgram describable Generate.version
  refine ⟨after, _, tree, ran, read, isCounter_program .standard name, written, fun style => ?_⟩
  obtain ⟨text, shown, readBack⟩ := Schema.exists_textOf describable written style
  refine ⟨text, ?_, readBack⟩
  rw [Generate.outcome_schemaText, read]
  exact shown

/-! ### A name that starts with a letter, and one that starts with a digit -/

theorem wellFormed_empty : Workspace.WellFormed {} :=
  ⟨FileTree.closed_of_all (by decide), rfl⟩

theorem vacant_empty : Vacant {} {} :=
  vacant_of_isDirectory wellFormed_empty rfl fun _ => FileTree.eq_lookup_of_ne_nil

theorem layOut_generates_demo : ∃ after program text,
    (layOut {} "demo_counter" false).run {} =
        (.ok ((projectFiles "demo_counter").map fun file => file.pathIn {}), after) ∧
      (Generate.readProgram {} after {}).outcome = .ok program ∧ IsCounter program "demo_counter" ∧
        (Generate.schemaText {} after {} .compact).outcome = .ok text := by
  have led : LetterLed "demo_counter" := ⟨'d', by decide +kernel, by decide⟩
  obtain ⟨after, program, _, ran, read, counter, _, texts⟩ :=
    layOut_generates wellFormed_empty vacant_empty led false
  obtain ⟨text, shown, _⟩ := texts .compact
  exact ⟨after, program, text, ran, read, counter, shown⟩

theorem namesOf_2048 : namesOf "2048" = ⟨"2048", "2048", placeholderAddress⟩ := by
  rw [namesOf, Names.mk.injEq]
  exact ⟨by decide +kernel, by decide +kernel, rfl⟩

theorem itemsOf?_2048 : Syntax.itemsOf? (.ofList (programChars (namesOf "2048"))) = none := by
  rw [← Option.isNone_iff_eq_none, namesOf_2048, Syntax.itemsOf?, Syntax.trees?_eq, Syntax.tokens?,
    String.toList_ofList, programChars, programLines, placeholderAddress]
  simp only [List.flatMap_cons, List.flatMap_nil, String.toList_append]
  repeat rw [String.toList_ofList]
  decide +kernel

/-- The enums of a project are named by its name, and no name of an enum starts with a digit. -/
theorem not_generates_2048 : snakeCase "2048" ≠ "" ∧ ∃ after,
    (layOut {} "2048" false).run {} =
        (.ok ((projectFiles "2048").map fun file => file.pathIn {}), after) ∧
      (Generate.readProgram {} after {}).outcome =
        .error (.malformed (.ofString "src/lib.rs") none "") := by
  have named : snakeCase "2048" ≠ "" := by decide +kernel
  have plain : '\x0d' ∉ programChars (namesOf "2048") := by
    rw [namesOf_2048, programChars, programLines, placeholderAddress]
    simp only [List.flatMap_cons, List.flatMap_nil, String.toList_append]
    repeat rw [String.toList_ofList]
    decide +kernel
  obtain ⟨after, ran, laid⟩ := vacant_empty.exists_laidOut wellFormed_empty named false
  refine ⟨named, after, ran, ?_⟩
  have fails := laid.readProgram_of_unreadable vacant_empty named plain itemsOf?_2048
  have path : Path.toString ⟨"", [] ++ ["src", "lib.rs"]⟩ = "src/lib.rs" := by decide +kernel
  exact fails.trans (by rw [← path])

end Scaffold

end ProgramIdl
