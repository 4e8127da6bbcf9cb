import ProgramIdl.Program.Assemble
import ProgramIdl.Proofs.Discriminator

/-!
# Instructions and errors

Derived addresses and accounts are read off permissively: what is not recognized leaves a warning,
and nothing fails (`Pda.extract_succeeds`, `accountSlots_outcome`).  An instruction can fail only by
what it selects and by its name.
-/

set_option autoImplicit false

namespace ProgramIdl

/-! ## Derived addresses -/

theorem SeedTable.classifyUnbound_succeeds (table : SeedTable) (expression : String) :
    (table.classifyUnbound expression).Succeeds := by
  rw [classifyUnbound]
  split
  · exact Reporting.succeeds_pure _
  · dsimp only
    split
    · exact Reporting.succeeds_pure _
    · split
      · exact Reporting.succeeds_pure _
      · exact ⟨_, rfl⟩

theorem SeedTable.classify_succeeds (table : SeedTable) (bound : String → Option String)
    (expression : String) : (table.classify bound expression).Succeeds := by
  rw [classify]
  split
  · exact Reporting.succeeds_pure _
  · split
    · exact table.classifyUnbound_succeeds _
    · exact table.classifyUnbound_succeeds _

theorem Pda.addMacro_succeeds (table : SeedTable) (calls : List (Declared SeedCall))
    (pdas : List Pda) (definition : Declared SeedMacro) :
    (Pda.addMacro table calls pdas definition).Succeeds := by
  rw [addMacro]
  dsimp only
  split
  · exact Reporting.succeeds_pure _
  · exact (Reporting.succeeds_mapM (table.classify_succeeds _) _).bind fun _ =>
      Reporting.succeeds_pure _

theorem Pda.addCall_succeeds (table : SeedTable) (pdas : List Pda) (call : Declared PdaCall) :
    (Pda.addCall table pdas call).Succeeds := by
  rw [addCall]
  split
  · exact Reporting.succeeds_pure _
  · dsimp only
    split
    · exact Reporting.succeeds_pure _
    · exact (Reporting.succeeds_mapM table.classifyUnbound_succeeds _).bind fun _ =>
        Reporting.succeeds_pure _

/-- Whatever seeds are written, the derived addresses are found. -/
theorem Pda.extract_succeeds (table : SeedTable) (macros : List (Declared SeedMacro))
    (macroCalls : List (Declared SeedCall)) (calls : List (Declared PdaCall)) :
    (Pda.extract table macros macroCalls calls).Succeeds := by
  rw [extract]
  exact (Reporting.succeeds_foldlM (Pda.addMacro_succeeds table macroCalls) [] macros).bind
    fun pdas => Reporting.succeeds_foldlM (Pda.addCall_succeeds table) pdas calls

/-! ## Accounts -/

/-- The accounts that an instruction takes: those of the struct that it chooses, if there is such a
struct. -/
def slotsOf (known : KnownAddresses) (seeds : SeedTable) (declarations : Declarations)
    (selection : Discriminator.Selection) : List AccountSlot :=
  match (dispatchOf? declarations.dispatches selection).bind fun dispatch =>
      declarations.accountsStructs.find? fun struct => struct.name = dispatch.accounts with
  | some struct => AccountSlot.all known seeds struct declarations.processors
  | none => []

theorem accountSlots_outcome (known : KnownAddresses) (seeds : SeedTable)
    (declarations : Declarations) (instruction : String) (selection : Discriminator.Selection) :
    (accountSlots known seeds declarations instruction selection).outcome =
      .ok (slotsOf known seeds declarations selection) := by
  rw [accountSlots, slotsOf]
  cases dispatchOf? declarations.dispatches selection with
  | none => rfl
  | some dispatch =>
      simp only [Option.bind_some]
      cases declarations.accountsStructs.find? fun struct => struct.name = dispatch.accounts with
      | none => rfl
      | some struct => rfl

/-! ## Instructions -/

/-- The name of the instruction that a struct stands for. -/
def instructionName (declared : Declared TaggedStruct) : String :=
  Text.snakeCase (Discriminator.namedVariant declared)

theorem snakeCase_of_select {discriminators : List Discriminator} {declared : Declared TaggedStruct}
    {selection : Discriminator.Selection}
    (selected : Discriminator.select discriminators declared
      (Discriminator.namedVariant declared) = .ok selection) :
    Text.snakeCase selection.variant = instructionName declared := by
  rw [Discriminator.variant_of_select selected, instructionName]

/-- The instruction that a struct stands for, by what it selects. -/
def Instruction.ofSelection (known : KnownAddresses) (seeds : SeedTable)
    (declarations : Declarations) (declared : Declared TaggedStruct)
    (selection : Discriminator.Selection) : Instruction where
  layout := .ofSelection (instructionName declared) declared.docs selection
    ((seeds.instructions.lookup declared.name).getD [])
  struct := declared.name
  slots := slotsOf known seeds declarations selection

/-- An instruction that a struct stands for. -/
def Instructs (known : KnownAddresses) (seeds : SeedTable) (declarations : Declarations)
    (discriminators : List Discriminator) (declared : Declared TaggedStruct)
    (instruction : Instruction) : Prop :=
  ∃ selection,
    Discriminator.select discriminators declared (Discriminator.namedVariant declared) =
      .ok selection ∧
      instruction = .ofSelection known seeds declarations declared selection

theorem instructionsFrom_eq_ok_iff {known : KnownAddresses} {seeds : SeedTable}
    {declarations : Declarations} {discriminators : List Discriminator} {seen : List String}
    {declared : List (Declared TaggedStruct)} {instructions : List Instruction} :
    (instructionsFrom known seeds declarations discriminators seen declared).outcome =
        .ok instructions ↔
      Fresh seen (declared.map instructionName) ∧
        List.Forall₂ (Instructs known seeds declarations discriminators) declared
          instructions := by
  induction declared generalizing seen instructions with
  | nil => simp [instructionsFrom, fresh_nil, eq_comm]
  | cons struct rest inductionHypothesis =>
      rw [instructionsFrom, List.map_cons, fresh_cons_iff, List.forall₂_cons_left_iff]
      simp only [Reporting.outcome_bind, Reporting.outcome_lift, bind_eq_ok_iff]
      constructor
      · rintro ⟨selection, selected, built⟩
        rw [Reporting.outcome_ensure_eq_ok_iff, snakeCase_of_select selected] at built
        simp only [Reporting.outcome_bind, accountSlots_outcome, bind_eq_ok_iff] at built
        obtain ⟨absent, slots, given, others, builtLater, same⟩ := built
        obtain ⟨fresh, instruct⟩ := inductionHypothesis.mp builtLater
        obtain rfl := Except.ok.inj given
        exact ⟨⟨absent, fresh⟩, _, others, ⟨selection, selected, rfl⟩, instruct,
          (Except.ok.inj same).symm⟩
      · rintro ⟨⟨absent, fresh⟩, _, others, ⟨selection, selected, rfl⟩, instruct, rfl⟩
        refine ⟨selection, selected, ?_⟩
        rw [Reporting.outcome_ensure_eq_ok_iff, snakeCase_of_select selected]
        simp only [Reporting.outcome_bind, accountSlots_outcome, bind_eq_ok_iff]
        exact ⟨absent, _, rfl, others, inductionHypothesis.mpr ⟨fresh, instruct⟩, rfl⟩

/-! ## Errors -/

/-- The names of errors only have to differ. -/
theorem errorCodesFrom_eq_ok_iff {seen : List String} {variants : List Variant}
    {errors : List ErrorCode} :
    errorCodesFrom seen variants = .ok errors ↔
      Fresh seen (variants.map (·.name)) ∧
        errors = variants.map fun variant =>
          ⟨variant.name, variant.explicit.getD 0, variant.docs⟩ := by
  induction variants generalizing seen errors with
  | nil => simp [errorCodesFrom, fresh_nil, eq_comm]
  | cons variant rest inductionHypothesis =>
      rw [errorCodesFrom, ensure_eq_ok_iff, List.map_cons, fresh_cons_iff, List.map_cons]
      simp only [bind_eq_ok_iff, inductionHypothesis]
      constructor
      · rintro ⟨absent, others, ⟨fresh, rfl⟩, same⟩
        exact ⟨⟨absent, fresh⟩, (Except.ok.inj same).symm⟩
      · rintro ⟨⟨absent, fresh⟩, rfl⟩
        exact ⟨absent, _, ⟨fresh, rfl⟩, rfl⟩

theorem errorCodes_eq_ok_iff {declared : List (Declared ErrorEnum)} {errors : List ErrorCode} :
    errorCodes declared = .ok errors ↔
      (declared.flatMap fun enum => enum.content.variants.map (·.name)).Nodup ∧
        errors = (declared.flatMap fun enum => enum.content.variants).map fun variant =>
          ⟨variant.name, variant.explicit.getD 0, variant.docs⟩ := by
  rw [errorCodes, errorCodesFrom_eq_ok_iff, fresh_top_iff, List.map_flatMap]

end ProgramIdl
