import ProgramIdl.Proofs.Program.Address
import ProgramIdl.Proofs.Program.Instructions
import ProgramIdl.Proofs.Program.Layouts

/-!
# The passes of an assembly

A program is assembled if each pass over its declarations comes to an end, and it is made up of what
the passes find (`assembleDeclarations_eq_ok_iff`).
-/

set_option autoImplicit false

namespace ProgramIdl

variable {known : KnownAddresses} {name : String} {declarations : Declarations} {program : Program}

/-- What the seeds of a program may refer to, when its fields have been laid out. -/
def Layouts.seedTable (declarations : Declarations) (layouts : Layouts) : SeedTable :=
  ⟨declarations.constantTexts, layouts.arguments⟩

/-- A program of what the passes over its declarations find. -/
structure Program.Collects (known : KnownAddresses) (declarations : Declarations)
    (layouts : Layouts) (program : Program) : Prop where
  address : (programAddress declarations.programIds).outcome = .ok program.address
  discriminators : Discriminator.all declarations.discriminators = .ok program.discriminators
  follow : Layouts.Follow declarations program.discriminators layouts
  accounts : program.accounts = layouts.accounts
  events : program.events = layouts.events
  pdas : (Pda.extract (layouts.seedTable declarations) declarations.seedMacros
    declarations.seedCalls declarations.pdaCalls).outcome = .ok program.pdas
  instructions : (instructionsFrom known (layouts.seedTable declarations) declarations
    program.discriminators [] declarations.instructions).outcome = .ok program.instructions
  errors : errorCodes declarations.errors = .ok program.errors

/-- Assembling comes to an end if all passes do, with the program of what they find. -/
theorem assembleDeclarations_eq_ok_iff :
    (assembleDeclarations known name declarations).outcome = .ok program ↔
      program.name = name ∧ ∃ layouts, program.Collects known declarations layouts := by
  rw [assembleDeclarations]
  simp only [Reporting.outcome_bind, Reporting.outcome_lift, bind_eq_ok_iff, layOut_eq_ok_iff]
  constructor
  · rintro ⟨address, agreed, discriminators, taken, layouts, follow, pdas, extracted, instructions,
      built, errors, listed, _, _, same⟩
    obtain rfl := Except.ok.inj same
    exact ⟨rfl, layouts, agreed, taken, follow, rfl, rfl, extracted, built, listed⟩
  · rintro ⟨rfl, layouts, collects⟩
    refine ⟨_, collects.address, _, collects.discriminators, layouts, collects.follow, _,
      collects.pdas, _, collects.instructions, _, collects.errors, (), rfl, ?_⟩
    rw [← collects.accounts, ← collects.events]
    rfl

theorem Program.Collects.instruct {layouts : Layouts}
    (collects : program.Collects known declarations layouts) :
    (declarations.instructions.map instructionName).Nodup ∧
      List.Forall₂ (Instructs known (layouts.seedTable declarations) declarations
        program.discriminators) declarations.instructions program.instructions := by
  obtain ⟨fresh, instruct⟩ := instructionsFrom_eq_ok_iff.mp collects.instructions
  exact ⟨fresh_top_iff.mp fresh, instruct⟩

end ProgramIdl
