import ProgramIdl.Proofs.Program.ByteSeeds
import ProgramIdl.Proofs.Program.Insertion

/-!
# Programs with unrelated declarations

Plain structs and constants that a program does not know change nothing when they are added to its
files: neither the program nor any notice (`assemble_unrelated`).  A constant that holds something else
than bytes may still be read as bytes, and then a seed that was kept as it is becomes literal.
-/

set_option autoImplicit false

namespace ProgramIdl

open ProgramIdl.Text
open ProgramIdl.Syntax
open ProgramIdl.Literal

/-! ## Layouts -/

theorem Layouts.Follow.extend {declarations other : Declarations}
    {discriminators : List Discriminator} {layouts : Layouts}
    (adds : declarations.OnlyAdds other)
    (follow : Layouts.Follow declarations discriminators layouts) :
    Layouts.Follow other discriminators layouts := by
  have stand {declared : Declared TaggedStruct} {layout : TaggedLayout} :
      StandsFor discriminators declarations.typeTable declared layout →
        StandsFor discriminators other.typeTable declared layout := by
    rintro ⟨selection, fields, selected, typed, rfl⟩
    exact ⟨selection, fields, selected, typed.extend adds.types, rfl⟩
  have list {declared : Declared TaggedStruct} {entry : String × List (Member Layout)} :
      ListsArguments declarations.typeTable declared entry →
        ListsArguments other.typeTable declared entry :=
    fun ⟨named, typed⟩ => ⟨named, typed.extend adds.types⟩
  have accounts : other.accounts = declarations.accounts := by rw [adds.others]
  have events : other.events = declarations.events := by rw [adds.others]
  have instructions : other.instructions = declarations.instructions := by rw [adds.others]
  constructor
  · rw [accounts]
    exact follow.accounts_nodup
  · rw [accounts]
    exact follow.accounts.imp fun _ _ => stand
  · rw [events]
    exact follow.events_nodup
  · rw [events]
    exact follow.events.imp fun _ _ => stand
  · rw [instructions]
    exact follow.arguments.imp fun _ _ => list

/-! ## Seeds -/

/-- Two tables of seeds that give every seed the same meaning. -/
structure SeedTable.Agrees (table other : SeedTable) : Prop where
  bytes : table.byteConstant? = other.byteConstant?
  instructions : table.instructions = other.instructions

section Seeds

variable {table other : SeedTable}

namespace SeedTable

theorem byteConstant?_eq_map (table : SeedTable) (expression : String) :
    table.byteConstant? expression = (qualifiedName? (Seed.subject expression.toList)).bind
      fun name => ((table.constants.lookup (.ofList name)).bind Literal.byteString?).map
        fun bytes => (.ofList name, bytes) := by
  rw [byteConstant?]
  cases qualifiedName? (Seed.subject expression.toList) with
  | none => rfl
  | some name =>
      simp only [Option.bind_eq_bind, Option.bind_some, Option.map_bind]
      congr 1
      funext value
      exact Option.map_eq_bind.symm

theorem agrees_of_lookup {constants others : List (String × String)}
    {arguments : List (String × List (Member Layout))}
    (same : ∀ name, (others.lookup name).bind Literal.byteString? =
      (constants.lookup name).bind Literal.byteString?) :
    Agrees ⟨others, arguments⟩ ⟨constants, arguments⟩ := by
  refine ⟨funext fun expression => ?_, rfl⟩
  rw [byteConstant?_eq_map, byteConstant?_eq_map]
  simp only [same]

namespace Agrees

theorem literal? (agrees : table.Agrees other) : table.literal? = other.literal? := by
  funext expression
  rw [SeedTable.literal?, SeedTable.literal?, agrees.bytes]

theorem plainSeed? (agrees : table.Agrees other) : table.plainSeed? = other.plainSeed? := by
  funext subject
  have arguments : table.argument? = other.argument? := by
    funext struct field
    rw [argument?, argument?, agrees.instructions]
  rw [SeedTable.plainSeed?, SeedTable.plainSeed?, arguments]

theorem classifyUnbound (agrees : table.Agrees other) :
    table.classifyUnbound = other.classifyUnbound := by
  funext expression
  rw [SeedTable.classifyUnbound, SeedTable.classifyUnbound, agrees.literal?, agrees.plainSeed?]

theorem classify (agrees : table.Agrees other) : table.classify = other.classify := by
  funext bound expression
  rw [SeedTable.classify, SeedTable.classify, agrees.literal?, agrees.classifyUnbound]

theorem extract (agrees : table.Agrees other) : Pda.extract table = Pda.extract other := by
  have addMacro : Pda.addMacro table = Pda.addMacro other := by
    funext calls pdas definition
    rw [Pda.addMacro, Pda.addMacro, agrees.classify]
  have addCall : Pda.addCall table = Pda.addCall other := by
    funext pdas call
    rw [Pda.addCall, Pda.addCall, agrees.bytes, agrees.classifyUnbound]
  funext macros macroCalls calls
  rw [Pda.extract, Pda.extract, addMacro, addCall]

theorem slots (agrees : table.Agrees other) (known : KnownAddresses) :
    AccountSlot.all known table = AccountSlot.all known other := by
  have nameOfSeeds : Pda.nameOfSeeds? table = Pda.nameOfSeeds? other := by
    funext expression
    rw [Pda.nameOfSeeds?, Pda.nameOfSeeds?, agrees.bytes]
  have asked : AccountSlot.askedPda? table = AccountSlot.askedPda? other := by
    funext check
    rw [AccountSlot.askedPda?, AccountSlot.askedPda?, nameOfSeeds]
  have ofChecks : AccountSlot.ofChecks known table = AccountSlot.ofChecks known other := by
    funext field checks
    rw [AccountSlot.ofChecks, AccountSlot.ofChecks, asked]
  funext struct processors
  rw [AccountSlot.all, AccountSlot.all, ofChecks]

end Agrees

end SeedTable

end Seeds

/-! ## Instructions -/

theorem accountSlots_extend {table other : SeedTable} (agrees : table.Agrees other)
    {declarations larger : Declarations} (adds : declarations.OnlyAdds larger)
    (known : KnownAddresses) :
    accountSlots known table larger = accountSlots known other declarations := by
  funext instruction selection
  rw [adds.others, accountSlots, accountSlots, agrees.slots]

theorem instructionsFrom_extend {table other : SeedTable} (agrees : table.Agrees other)
    {declarations larger : Declarations} (adds : declarations.OnlyAdds larger)
    (known : KnownAddresses) (discriminators : List Discriminator) (seen : List String)
    (declared : List (Declared TaggedStruct)) :
    instructionsFrom known table larger discriminators seen declared =
      instructionsFrom known other declarations discriminators seen declared := by
  induction declared generalizing seen with
  | nil => rfl
  | cons struct rest inductionHypothesis =>
      rw [instructionsFrom, instructionsFrom, accountSlots_extend agrees adds, agrees.instructions]
      simp only [inductionHypothesis]

/-! ## The whole program -/

theorem assembleDeclarations_extend {known : KnownAddresses} {name : String}
    {declarations larger : Declarations} {program : Program} (adds : declarations.OnlyAdds larger)
    (assembled : (assembleDeclarations known name declarations).outcome = .ok program) :
    assembleDeclarations known name larger = assembleDeclarations known name declarations := by
  obtain ⟨_, layouts, collects⟩ := assembleDeclarations_eq_ok_iff.mp assembled
  have laidOut := layOut_eq_ok_iff.mpr collects.follow
  have laidOutLarger := layOut_eq_ok_iff.mpr (collects.follow.extend adds)
  have agrees : (layouts.seedTable larger).Agrees (layouts.seedTable declarations) :=
    SeedTable.agrees_of_lookup adds.bytes
  have instructions := instructionsFrom_extend agrees adds known program.discriminators []
  obtain ⟨constants, records, rfl⟩ : ∃ constants records,
      larger = { declarations with constants := constants, records := records } :=
    ⟨_, _, adds.others⟩
  have lift {α : Type} (value : α) : 
      (liftM (Except.ok value : Except Failure α) : Reporting α) = pure value := rfl
  rw [assembleDeclarations, assembleDeclarations]
  congr 1
  funext address
  simp only [collects.discriminators, laidOut, laidOutLarger, lift, pure_bind]
  change (Pda.extract (layouts.seedTable _) _ _ _ >>= fun pdas =>
    instructionsFrom known (layouts.seedTable _) _ _ _ _ >>= _) = _
  rw [agrees.extract]
  simp only [instructions]
  rfl

/-- Unrelated declarations change neither the program nor the notices of its assembly, wherever they
are put. -/
theorem assemble_unrelated {known : KnownAddresses} {name : String} {files others : List ScannedFile}
    {program : Program}
    (extended : ScannedFile.Extended (Declarations.ofFiles files).tableNames files others)
    (assembled : (assemble known name files).outcome = .ok program) :
    assemble known name others = assemble known name files :=
  assembleDeclarations_extend (.of_extended extended) assembled

/-! ### A seed that refers to something that is not in the files -/

/-- The text of a program whose second seed is a constant of another crate. -/
def tagLines : List String :=
  ["const TAG: &[u8] = b\"tag\";",
    "fn derive() \x7b find_program_address(&[TAG, keys::MARK], &ID); \x7d"]

/-- What is read from the text. -/
def tagFile : ScannedFile where
  path := "src/lib.rs"
  declarations :=
    [.constant ⟨"TAG", ⟨"src/lib.rs", 1⟩, [], ⟨"&[u8]", "b\"tag\""⟩⟩,
      .pdaCall ⟨"find_program_address", ⟨"src/lib.rs", 2⟩, [], ⟨["TAG", "keys::MARK"]⟩⟩]

/-- The same file with a struct that contains itself. -/
def loopFile : ScannedFile where
  path := "src/lib.rs"
  declarations :=
    .record ⟨"Loop", ⟨"src/lib.rs", 3⟩, [], ⟨[{ name := "next", type := "Loop" }]⟩⟩ ::
      tagFile.declarations

/-- A number with the name that the second seed ends in. -/
def numberFile : ScannedFile :=
  ⟨"src/keys.rs", [.constant ⟨"MARK", ⟨"src/keys.rs", 1⟩, [], ⟨"u8", "7"⟩⟩]⟩

theorem assemble_unrelated_number :
    ScannedFile.Extended (Declarations.ofFiles [tagFile]).tableNames [tagFile]
        [numberFile, loopFile] ∧
      (∃ program, (assemble .standard "mark" [tagFile]).outcome = .ok program) ∧
      assemble .standard "mark" [numberFile, loopFile] = assemble .standard "mark" [tagFile] := by
  have names : (Declarations.ofFiles [tagFile]).tableNames = ["TAG"] := by decide +kernel
  have alike : Interspersed (· = ·) (Declaration.Unrelated ["TAG"]) tagFile.declarations
      loopFile.declarations :=
    .add (.record (by decide)) (.keep rfl (.keep rfl .nil))
  have number : ∀ declaration ∈ numberFile.declarations, declaration.Unrelated ["TAG"] :=
    List.forall_mem_singleton.mpr (.constant (by decide) (by decide +kernel))
  have extended : ScannedFile.Extended (Declarations.ofFiles [tagFile]).tableNames [tagFile]
      [numberFile, loopFile] := by
    rw [names]
    exact .add number (.keep ⟨rfl, alike⟩ .nil)
  obtain ⟨program, assembled, _⟩ : ∃ program,
      (assemble .standard "mark" [tagFile]).outcome = .ok program ∧ true = true :=
    exists_ok_of_any (by decide +kernel)
  exact ⟨extended, ⟨program, assembled⟩, assemble_unrelated extended assembled⟩

/-- A truth value, written as a comparison of two byte strings. -/
def markLine : String :=
  "const MARK: bool = br\"a\" == br\"b\";"

def markConstant : Declared Constant :=
  ⟨"MARK", ⟨"src/lib.rs", 3⟩, [], ⟨"bool", "br\"a\" == br\"b\""⟩⟩

def markedFile : ScannedFile where
  path := "src/lib.rs"
  declarations := tagFile.declarations ++ [.constant markConstant]

theorem scanned_tagFile : tagFile.Scanned := by
  obtain ⟨items, parsed, gathered⟩ : ∃ items, itemsOf? ("\n".intercalate tagLines) = some items ∧
      decide ((gather (findings "src/lib.rs" 0 items)).outcome = .ok tagFile.declarations) := by
    refine (Option.any_eq_true _ _).mp ?_
    unfold tagLines
    rw [itemsOf?_lines]
    simp only [List.map_cons, List.map_nil]
    repeat rw [String.toList_ofList]
    decide +kernel
  exact (readFrom_of_gather parsed (of_decide_eq_true gathered)).scanned

theorem scanned_markedFile : markedFile.Scanned := by
  obtain ⟨items, parsed, gathered⟩ :
      ∃ items, itemsOf? ("\n".intercalate (tagLines ++ [markLine])) = some items ∧
        decide ((gather (findings "src/lib.rs" 0 items)).outcome = .ok markedFile.declarations) := by
    refine (Option.any_eq_true _ _).mp ?_
    unfold tagLines markLine
    rw [itemsOf?_lines]
    simp only [List.map_cons, List.map_nil, List.cons_append, List.nil_append]
    repeat rw [String.toList_ofList]
    decide +kernel
  exact (readFrom_of_gather parsed (of_decide_eq_true gathered)).scanned

theorem not_byteLiteral_mark (bytes : List UInt8) :
    ¬ ByteLiteral markConstant.content.value.toList bytes := by
  intro literal
  generalize written : markConstant.content.value.toList = text at literal
  have spelled : text = ['b', 'r', '"', 'a', '"', ' ', '=', '=', ' ', 'b', 'r', '"', 'b', '"'] := by
    rw [← written]
    rfl
  cases literal with
  | cooked stands => cases spelled
  | @raw marks body ascii closed =>
      cases marks with
      | succ marks => cases spelled
      | zero =>
          have inside : body ++ ['"'] =
              ['a', '"', ' ', '=', '=', ' ', 'b', 'r', '"', 'b'] ++ ['"'] := by
            simpa using spelled
          obtain rfl := List.append_cancel_right inside
          exact closed (by decide)

/-- The truth value turns the seed into bytes, and the warning of it is gone. -/
theorem not_unrelated_mark :
    tagFile.Scanned ∧ markedFile.Scanned ∧
      markedFile.declarations = tagFile.declarations ++ [.constant markConstant] ∧
      markConstant.name ∉ (Declarations.ofFiles [tagFile]).tableNames ∧
      (∀ bytes, ¬ ByteLiteral markConstant.content.value.toList bytes) ∧
      ∃ program, (assemble .standard "mark" [tagFile]).outcome = .ok program ∧
        ∃ other, (assemble .standard "mark" [markedFile]).outcome = .ok other ∧
          program.pdas.map (·.seeds.map Seed.bytes?) ≠ other.pdas.map (·.seeds.map Seed.bytes?) ∧
          (assemble .standard "mark" [tagFile]).warnings ≠
            (assemble .standard "mark" [markedFile]).warnings := by
  obtain ⟨program, assembled, kept⟩ : ∃ program,
      (assemble .standard "mark" [tagFile]).outcome = .ok program ∧
        decide (program.pdas.map (·.seeds.map Seed.bytes?) = [[some [116, 97, 103], none]]) :=
    exists_ok_of_any (by decide +kernel)
  obtain ⟨other, assembledToo, literal⟩ : ∃ program,
      (assemble .standard "mark" [markedFile]).outcome = .ok program ∧
        decide (program.pdas.map (·.seeds.map Seed.bytes?) ≠ [[some [116, 97, 103], none]]) :=
    exists_ok_of_any (by decide +kernel)
  refine ⟨scanned_tagFile, scanned_markedFile, rfl, by decide +kernel, not_byteLiteral_mark, program,
    assembled, other, assembledToo, ?_, by decide +kernel⟩
  rw [of_decide_eq_true kept]
  exact Ne.symm (of_decide_eq_true literal)

end ProgramIdl
