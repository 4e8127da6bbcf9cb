import ProgramIdl.Proofs.Declaration.Names
import ProgramIdl.Proofs.Program.Assembly

/-!
# The arguments of instructions

Instructions follow their structs one by one.  The arguments are looked up by the name of the
struct, though, and of structs with one name the last one's fields hold: an instruction keeps its
own fields unless another struct of that name lists different ones (`assemble_instructions`).
-/

set_option autoImplicit false

namespace ProgramIdl

/-! ## The last struct of a name -/

/-- The last of some structs with a name. -/
def lastNamed? (declared : List (Declared TaggedStruct)) (name : String) :
    Option (Declared TaggedStruct) :=
  declared.findRev? fun struct => struct.name = name

section LastNamed

variable {declared : List (Declared TaggedStruct)} {name : String} {last : Declared TaggedStruct}

theorem lastNamed?_eq_find?_reverse (declared : List (Declared TaggedStruct)) (name : String) :
    lastNamed? declared name = declared.reverse.find? fun struct => struct.name = name :=
  List.findRev?_eq_find?_reverse

theorem mem_of_lastNamed? (found : lastNamed? declared name = some last) :
    last ∈ declared ∧ last.name = name := by
  rw [lastNamed?_eq_find?_reverse] at found
  exact ⟨List.mem_reverse.mp (List.mem_of_find?_eq_some found), by
    simpa using List.find?_some found⟩

theorem exists_lastNamed? {struct : Declared TaggedStruct} (listed : struct ∈ declared) :
    ∃ last, lastNamed? declared struct.name = some last := by
  rw [← Option.isSome_iff_exists, lastNamed?_eq_find?_reverse, List.find?_isSome]
  exact ⟨struct, List.mem_reverse.mpr listed, by simp⟩

end LastNamed

/-- The first entry of a name is that of the first struct with the name. -/
theorem lookup_of_listsArguments {types : TypeTable} {declared : List (Declared TaggedStruct)}
    {entries : List (String × List (Member Layout))}
    (list : List.Forall₂ (ListsArguments types) declared entries) {name : String}
    {first : Declared TaggedStruct}
    (found : declared.find? (fun struct => struct.name = name) = some first) :
    ∃ fields, entries.lookup name = some fields ∧
      types.FieldsHaveType first.content.fields fields := by
  induction list with
  | nil => cases found
  | @cons struct entry rest others head tail inductionHypothesis =>
      obtain ⟨key, fields⟩ := entry
      obtain ⟨same, typed⟩ := head
      simp only at same typed
      subst same
      rw [List.find?_cons] at found
      rw [List.lookup_cons]
      by_cases named : struct.name = name
      · subst named
        simp only [decide_true, Option.some.injEq] at found
        subst found
        exact ⟨fields, by simp, typed⟩
      · have other : (name == struct.name) = false := beq_false_of_ne (Ne.symm named)
        simp only [named, decide_false] at found
        simp only [other]
        exact inductionHypothesis found

/-! ## Instructions and their structs -/

/-- An instruction that a struct stands for, with the fields of a struct that may be another one. -/
structure Describes (declared : List (Declared TaggedStruct)) (struct : Declared TaggedStruct)
    (instruction : Instruction) : Prop where
  owner : instruction.struct = struct.name
  name : instruction.layout.name = instructionName struct
  variant : instruction.layout.variant = Discriminator.namedVariant struct
  docs : instruction.layout.docs = struct.docs
  fields : ∃ last, lastNamed? declared struct.name = some last ∧
    instruction.layout.fields.map Member.written = last.content.fields

/-- An instruction with the fields that its struct lists. -/
def KeepsFields (struct : Declared TaggedStruct) (instruction : Instruction) : Prop :=
  instruction.layout.fields.map Member.written = struct.content.fields

theorem Program.Collects.describes {known : KnownAddresses} {declarations : Declarations}
    {layouts : Layouts} {program : Program}
    (collects : program.Collects known declarations layouts) :
    List.Forall₂ (Describes declarations.instructions) declarations.instructions
      program.instructions := by
  -- The entries stand in reverse, so the first one of a name is that of the last struct.
  have list : List.Forall₂ (ListsArguments declarations.typeTable)
      declarations.instructions.reverse layouts.arguments := by
    have follow := List.forall₂_reverse_iff.mpr collects.follow.arguments
    rwa [List.reverse_reverse] at follow
  have instruct := (List.forall₂_and_left _ _).mpr
    ⟨fun _ listed => listed, collects.instruct.2⟩
  refine instruct.imp ?_
  rintro struct _ ⟨listed, selection, selected, rfl⟩
  obtain ⟨last, found⟩ := exists_lastNamed? listed
  have first := lastNamed?_eq_find?_reverse declarations.instructions struct.name ▸ found
  obtain ⟨fields, lookup, typed⟩ := lookup_of_listsArguments list first
  have looked : (layouts.seedTable declarations).instructions.lookup struct.name = some fields :=
    lookup
  refine ⟨rfl, rfl, Discriminator.variant_of_select selected, rfl, last, found, ?_⟩
  rw [Instruction.ofSelection, looked]
  exact typed.map_written

/-- Each instruction keeps the fields of its struct if and only if structs of one name list the same
fields. -/
theorem keepsFields_iff {declared : List (Declared TaggedStruct)} {instructions : List Instruction}
    (describe : List.Forall₂ (Describes declared) declared instructions) :
    List.Forall₂ KeepsFields declared instructions ↔
      ∀ struct ∈ declared, ∀ other ∈ declared, struct.name = other.name →
        struct.content.fields = other.content.fields := by
  constructor
  · intro keep
    have settled : ∀ struct ∈ declared, ∃ last, lastNamed? declared struct.name = some last ∧
        struct.content.fields = last.content.fields := by
      intro struct listed
      obtain ⟨instruction, _, described, keeps⟩ :=
        exists_right_of_forall₂ (List.Forall₂.mp (fun _ _ => And.intro) describe keep) listed
      obtain ⟨last, found, fields⟩ := described.fields
      exact ⟨last, found, keeps.symm.trans fields⟩
    intro struct listed other listedToo same
    obtain ⟨last, found, fields⟩ := settled struct listed
    obtain ⟨lastToo, foundToo, fieldsToo⟩ := settled other listedToo
    rw [same] at found
    obtain rfl := Option.some.inj (found.symm.trans foundToo)
    exact fields.trans fieldsToo.symm
  · intro agree
    refine ((List.forall₂_and_left _ _).mpr ⟨fun _ listed => listed, describe⟩).imp ?_
    rintro struct instruction ⟨listed, described⟩
    obtain ⟨last, found, fields⟩ := described.fields
    obtain ⟨lastListed, same⟩ := mem_of_lastNamed? found
    exact fields.trans (agree last lastListed struct listed same)

/-- An assembled program has one instruction for each declared struct, in order.  It takes the
fields of the last struct with the same name, so all instructions have their own fields exactly if
structs of one name list the same fields. -/
theorem assemble_instructions {known : KnownAddresses} {name : String} {files : List ScannedFile}
    {program : Program} (assembled : (assemble known name files).outcome = .ok program) :
    List.Forall₂ (Describes (Declarations.ofFiles files).instructions)
      (Declarations.ofFiles files).instructions program.instructions ∧
    (List.Forall₂ KeepsFields (Declarations.ofFiles files).instructions program.instructions ↔
      ∀ struct ∈ (Declarations.ofFiles files).instructions,
        ∀ other ∈ (Declarations.ofFiles files).instructions, struct.name = other.name →
          struct.content.fields = other.content.fields) := by
  obtain ⟨_, layouts, collects⟩ := assembleDeclarations_eq_ok_iff.mp assembled
  exact ⟨collects.describes, keepsFields_iff collects.describes⟩

/-- A file with two instructions in different modules, whose structs have given names. -/
def stepsFile (first second : String) : ScannedFile where
  path := "src/lib.rs"
  declarations :=
    [.discriminator {
      name := "Step"
      site := ⟨"src/lib.rs", 2⟩
      content := { variants := [{ name := "Go", value := 0 }, { name := "Stop", value := 1 }] } },
    .tagged .instruction {
      name := first
      site := ⟨"src/lib.rs", 5⟩
      content := {
        enum := some "Step"
        variant := some "Go"
        fields := [{ name := "size", type := "u64" }] } },
    .tagged .instruction {
      name := second
      site := ⟨"src/lib.rs", 9⟩
      content := {
        enum := some "Step"
        variant := some "Stop"
        fields := [{ name := "code", type := "u8" }] } }]

theorem assemble_instructions_steps : ∃ program,
    (assemble .standard "steps" [stepsFile "Go" "Stop"]).outcome = .ok program ∧
      List.Forall₂ KeepsFields (Declarations.ofFiles [stepsFile "Go" "Stop"]).instructions
        program.instructions := by
  obtain ⟨program, assembled, _⟩ : ∃ program,
      (assemble .standard "steps" [stepsFile "Go" "Stop"]).outcome = .ok program ∧ true = true :=
    exists_ok_of_any (by decide +kernel)
  exact ⟨program, assembled, (assemble_instructions assembled).2.mpr (by decide +kernel)⟩

/-- The text of such a file in which both structs have the same name. -/
def namesakesSource : String :=
  "#[discriminator]\nenum Step \x7b Go, Stop \x7d\n"
    ++ "mod go \x7b\n#[instruction(discriminator = Step, variant = Go)]\n"
    ++ "struct Args \x7b size: u64 \x7d\n\x7d\n"
    ++ "mod stop \x7b\n#[instruction(discriminator = Step, variant = Stop)]\n"
    ++ "struct Args \x7b code: u8 \x7d\n\x7d\n"

instance (struct : Declared TaggedStruct) (instruction : Instruction) :
    Decidable (KeepsFields struct instruction) :=
  inferInstanceAs (Decidable (_ = _))

/-- Of two instructions whose structs have one name, the first one loses its own fields. -/
theorem not_keepsFields_namesakes : (stepsFile "Args" "Args").Scanned ∧ ∃ program,
    (assemble .standard "steps" [stepsFile "Args" "Args"]).outcome = .ok program ∧
      ¬ List.Forall₂ KeepsFields (Declarations.ofFiles [stepsFile "Args" "Args"]).instructions
        program.instructions := by
  have scanned : (stepsFile "Args" "Args").Scanned := by
    apply @ScannedFile.scanned_of_any "src/lib.rs" namesakesSource
    unfold namesakesSource
    rw [Syntax.itemsOf?, Syntax.trees?]
    repeat rw [String.toList_append]
    repeat rw [String.toList_ofList]
    decide +kernel
  refine ⟨scanned, ?_⟩
  obtain ⟨program, assembled, lost⟩ : ∃ program,
      (assemble .standard "steps" [stepsFile "Args" "Args"]).outcome = .ok program ∧
        decide (¬ List.Forall₂ KeepsFields
          (Declarations.ofFiles [stepsFile "Args" "Args"]).instructions program.instructions) :=
    exists_ok_of_any (by decide +kernel)
  exact ⟨program, assembled, of_decide_eq_true lost⟩

end ProgramIdl
