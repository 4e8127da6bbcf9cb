import ProgramIdl.Proofs.Program.Assembly
import ProgramIdl.Proofs.Scaffold.Names
import ProgramIdl.Proofs.Scaffold.Template
import ProgramIdl.Proofs.Schema.Interface

/-!
# The program of a new project

What the program of a new project declares makes up a program that can be described, whatever words of
ASCII the names of the project are (`Counter.assembles`).
-/

set_option autoImplicit false

namespace ProgramIdl

open ProgramIdl.Text

namespace Scaffold.Counter

variable (names : Names)

/-- What the program of a new project declares, by kind. -/
def parts : Declarations :=
  .ofList (declarations names)

/-! ## Discriminators -/

def instructionKinds : Discriminator where
  name := names.pascal ++ "Instruction"
  values := [("Initialize", 0), ("Increment", 1)]
  docs := ["Instruction discriminator."]

def accountKinds : Discriminator where
  name := names.pascal ++ "AccountType"
  values := [("CounterState", 1)]
  docs := ["Account discriminator."]

theorem all_discriminators : Discriminator.all (parts names).discriminators =
    .ok [instructionKinds names, accountKinds names] := by
  refine Discriminator.all_eq_ok_iff.mpr ⟨?_, .cons rfl (.cons rfl .nil)⟩
  change [names.pascal ++ "Instruction", names.pascal ++ "AccountType"].Nodup
  simp [← String.toList_inj]

/-! ## Selections -/

theorem lastSegment_of_words {word : String} (letters : ∀ c ∈ word.toList, c ≠ ':') :
    lastSegment word = word := by
  have none : ∀ text : List Char, (∀ c ∈ text, c ≠ ':') → afterLastPathSeparator text = none := by
    intro text plain
    induction text with
    | nil => rfl
    | cons c rest inductionHypothesis =>
        obtain ⟨here, later⟩ := List.forall_mem_cons.mp plain
        rw [afterLastPathSeparator, inductionHypothesis later]
        simp [Ne.symm here]
  rw [lastSegment, none word.toList letters]

variable {names}

section Word

variable (word : ∀ c ∈ names.pascal.toList, isAsciiWordChar c = true)
include word

/-- The path of an enum of the project is its name. -/
theorem lastSegment_pascal {kind : String} (letters : kind.toList.all (· ≠ ':') = true) :
    lastSegment (names.pascal ++ kind) = names.pascal ++ kind := by
  apply lastSegment_of_words
  intro c member
  rw [String.toList_append, List.mem_append] at member
  rcases member with inName | inKind
  · rintro rfl
    cases word ':' inName
  · simpa using List.all_eq_true.mp letters c inKind

theorem find?_pascal {kind : String} (letters : kind.toList.all (· ≠ ':') = true)
    {discriminator : Discriminator} (named : discriminator.name = names.pascal ++ kind)
    (listed : discriminator ∈ [instructionKinds names, accountKinds names]) :
    Discriminator.find? [instructionKinds names, accountKinds names] (names.pascal ++ kind) =
      some discriminator := by
  have distinct := Discriminator.nodup_of_all (all_discriminators names)
  rw [Discriminator.find?_eq_some_iff distinct, lastSegment_pascal word letters]
  exact ⟨listed, named⟩

theorem select_pascal {kind : String} (letters : kind.toList.all (· ≠ ':') = true)
    {discriminator : Discriminator} (named : discriminator.name = names.pascal ++ kind)
    (listed : discriminator ∈ [instructionKinds names, accountKinds names])
    {declared : Declared TaggedStruct} (enum : declared.content.enum = some (names.pascal ++ kind))
    {variant : String} {value : Int} (found : discriminator.valueOf? variant = some value)
    (nonempty : kind ≠ "" ∧ variant ≠ "") :
    Discriminator.select [instructionKinds names, accountKinds names] declared variant =
      .ok ⟨discriminator, variant, value⟩ := by
  refine Discriminator.select_eq_ok_iff.mpr ⟨_, enum, ?_, nonempty.2, ?_, rfl, found⟩
  · intro empty
    have none := congrArg String.toList empty
    simp [nonempty.1] at none
  · exact find?_pascal word letters named listed

end Word

/-! ## Layouts -/

def bump (doc : String) : Member Layout :=
  ⟨"bump", "u8", .integer 1 false, [doc]⟩

def count : Member Layout :=
  ⟨"count", "PodU64", .integer 8 false, ["The current counter value."]⟩

variable (names)

def layouts : Layouts where
  accounts := [.ofSelection "CounterState" ["On-chain counter state."]
    ⟨accountKinds names, "CounterState", 1⟩ [bump "The PDA bump seed.", count]]
  events := []
  arguments := [("IncrementInstruction", []),
    ("InitializeInstruction", [bump "The PDA bump seed, computed off-chain."])]

theorem hasType_builtin {table : TypeTable} {token : String} {layout : Layout}
    (word : trim token.toList = token.toList ∧ token ≠ "" ∧ token.toList.all isWordChar = true)
    (known : Layout.builtin? token = some layout) : table.HasType token layout := by
  obtain ⟨trimmed, nonempty, letters⟩ := word
  have nonempty := mt String.toList_eq_nil_iff.mp nonempty
  have spelled : Layout.builtin? (.ofList token.toList) = some layout := by rwa [String.ofList_toList]
  refine .builtin ?_ spelled
  rw [trimmed]
  exact .word nonempty (List.all_eq_true.mp letters)

variable {names} in
theorem follow (word : ∀ c ∈ names.pascal.toList, isAsciiWordChar c = true) :
    Layouts.Follow (parts names) [instructionKinds names, accountKinds names] (layouts names) := by
  have bumps (table : TypeTable) : table.HasType "u8" (.integer 1 false) :=
    hasType_builtin (by decide +kernel) rfl
  have counts (table : TypeTable) : table.HasType "PodU64" (.integer 8 false) :=
    hasType_builtin (by decide +kernel) rfl
  constructor
  · exact List.nodup_singleton _
  · refine .cons ⟨⟨accountKinds names, "CounterState", 1⟩, _, ?_,
      .cons (bumps _) (.cons (counts _) .nil), rfl⟩ .nil
    have variant : selfNamedVariant (counterState names) = "CounterState" := rfl
    rw [variant]
    exact select_pascal word (by decide +kernel) rfl (by simp) rfl rfl (by decide)
  · exact List.nodup_nil
  · exact .nil
  · exact .cons ⟨rfl, .cons (bumps _) .nil⟩ (.cons ⟨rfl, .nil⟩ .nil)

/-! ## Instructions -/

/-- The address that the project derives. -/
def pda : Pda where
  name := "counter"
  seeds := [.literal [0x63, 0x6f, 0x75, 0x6e, 0x74, 0x65, 0x72], .account "authority" (some .plainAddress)]
  docs := ["Seeds of the counter PDA: `[\"counter\", <authority>]`."]

theorem extract_pdas : (Pda.extract ((layouts names).seedTable (parts names)) (parts names).seedMacros
    (parts names).seedCalls (parts names).pdaCalls).outcome = .ok [pda] := by
  rfl

theorem namedVariant_of_words {declared : Declared TaggedStruct} {variant : String}
    (chosen : declared.content.variant = some variant)
    (letters : variant.toList.all (· ≠ ':') = true) :
    Discriminator.namedVariant declared = variant := by
  rw [Discriminator.namedVariant, chosen]
  exact lastSegment_of_words fun c member => by simpa using List.all_eq_true.mp letters c member

theorem namedVariant_initializeInstruction :
    Discriminator.namedVariant (initializeInstruction names) = "Initialize" :=
  namedVariant_of_words rfl (by decide +kernel)

theorem namedVariant_incrementInstruction :
    Discriminator.namedVariant (incrementInstruction names) = "Increment" :=
  namedVariant_of_words rfl (by decide +kernel)

theorem instructionNames :
    (parts names).instructions.map instructionName = ["initialize", "increment"] := by
  change [snakeCase _, snakeCase _] = _
  rw [namedVariant_initializeInstruction, namedVariant_incrementInstruction]
  decide +kernel

/-- An instruction of the program, by what it selects. -/
def instruction (known : KnownAddresses) (declared : Declared TaggedStruct) (variant : String)
    (value : Int) : Instruction :=
  .ofSelection known ((layouts names).seedTable (parts names)) (parts names) declared
    ⟨instructionKinds names, variant, value⟩

/-- The program of a new project. -/
def program (known : KnownAddresses) (name : String) : Program where
  name := name
  address := some names.address
  discriminators := [instructionKinds names, accountKinds names]
  accounts := (layouts names).accounts
  instructions := [instruction names known (initializeInstruction names) "Initialize" 0,
    instruction names known (incrementInstruction names) "Increment" 1]
  errors := [⟨"Overflow", 0, ["The counter reached its maximum value."]⟩]
  pdas := [pda]

variable {names}

theorem collects (word : ∀ c ∈ names.pascal.toList, isAsciiWordChar c = true)
    (placed : Address.Writes names.address) (known : KnownAddresses) (name : String) :
    (program names known name).Collects known (parts names) (layouts names) where
  address := by
    refine programAddress_eq_ok_iff.mpr ⟨rfl, fun other listed => ?_⟩
    obtain rfl : other = names.address := List.mem_singleton.mp listed
    exact ⟨rfl, placed⟩
  discriminators := all_discriminators names
  follow := follow word
  accounts := rfl
  events := rfl
  pdas := extract_pdas names
  instructions := by
    have select {declared : Declared TaggedStruct} {variant : String} {value : Int}
        (enum : declared.content.enum = some (names.pascal ++ "Instruction"))
        (found : (instructionKinds names).valueOf? variant = some value) (nonempty : variant ≠ "") :=
      select_pascal word (by decide +kernel) rfl
        (by simp : instructionKinds names ∈ _) enum found ⟨by decide, nonempty⟩
    refine instructionsFrom_eq_ok_iff.mpr ⟨fresh_top_iff.mpr ?_, .cons ⟨_, ?_, rfl⟩
      (.cons ⟨_, ?_, rfl⟩ .nil)⟩
    · rw [instructionNames]
      decide
    · rw [namedVariant_initializeInstruction]
      exact select rfl rfl (by decide)
    · rw [namedVariant_incrementInstruction]
      exact select rfl rfl (by decide)
  errors := rfl

theorem describable (named : names.address ≠ "") (known : KnownAddresses) (name : String) :
    (program names known name).Describable where
  addressed := ⟨names.address, rfl, named⟩
  fits := by
    have small : ∀ layout ∈ (program names known name).tagged,
        (layout.value = 0 ∨ layout.value = 1) ∧ layout.width = 1 :=
      List.forall_mem_cons.mpr ⟨⟨.inr rfl, rfl⟩, List.forall_mem_cons.mpr ⟨⟨.inl rfl, rfl⟩,
        List.forall_mem_singleton.mpr ⟨.inr rfl, rfl⟩⟩⟩
    intro layout listed
    obtain ⟨value, width⟩ := small layout listed
    rw [width]
    rcases value with value | value <;> rw [value] <;> decide
  short := by
    have numbers : (program names known name).numbers = [1, 1, 8, 1, 1, 1, 0, 32] := rfl
    rw [numbers]
    decide

/-- What the program of a new project declares makes up the program of a counter, which can be
described. -/
theorem assembles (word : ∀ c ∈ names.pascal.toList, isAsciiWordChar c = true)
    (placed : Address.Writes names.address) (known : KnownAddresses) (name : String) :
    (assembleDeclarations known name (parts names)).outcome = .ok (program names known name) :=
  assembleDeclarations_eq_ok_iff.mpr ⟨rfl, _, collects word placed known name⟩

end Scaffold.Counter

end ProgramIdl
