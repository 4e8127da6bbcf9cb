import ProgramIdl.Proofs.Pda.Extraction
import ProgramIdl.Proofs.Program.Assembly

/-!
# Warnings

What is taken for granted is warned of, and nothing else: an assembly warns of each seed that it keeps
as an expression, and then of each instruction whose accounts are not known
(`assemble_warnings`).
-/

set_option autoImplicit false

namespace ProgramIdl

/-! ## Warnings of a run -/

namespace Reporting

variable {α β : Type}

/-- The warnings among the notices of a run. -/
def warned (run : Reporting α) : List Notice :=
  run.notices.filter fun notice => notice.level = .warning

theorem warnings_eq_map_message (run : Reporting α) :
    run.warnings = run.warned.map Notice.message := rfl

@[simp] theorem warned_pure (value : α) : (pure value : Reporting α).warned = [] := rfl

@[simp] theorem warned_lift (outcome : Except Failure α) :
    (liftM outcome : Reporting α).warned = [] := rfl

theorem warned_report (notice : Notice) :
    (report notice).warned = [notice].filter fun notice => notice.level = .warning := rfl

theorem warned_bind {first : Reporting α} {next : α → Reporting β} {value : α}
    (succeeds : first.outcome = .ok value) :
    (first >>= next).warned = first.warned ++ (next value).warned := by
  change (first.andThen next).warned = _
  simp [andThen, succeeds, warned]

theorem warned_ensure {condition : Prop} [Decidable condition] {failure : Failure}
    {next : Unit → Reporting β} (passed : ¬ condition) :
    (if condition then (throw failure : Reporting Unit) >>= next else next ()).warned =
      (next ()).warned := by
  rw [if_neg passed]

theorem warned_mapM {step : α → Reporting β} {told : β → List Notice}
    (one : ∀ value result, (step value).outcome = .ok result → (step value).warned = told result)
    {values : List α} {results : List β} (mapped : (values.mapM step).outcome = .ok results) :
    (values.mapM step).warned = results.flatMap told := by
  induction values generalizing results with
  | nil =>
      obtain rfl := Except.ok.inj mapped
      rfl
  | cons value rest inductionHypothesis =>
      rw [List.mapM_cons] at mapped ⊢
      simp only [outcome_bind, bind_eq_ok_iff] at mapped
      obtain ⟨result, here, others, later, same⟩ := mapped
      obtain rfl := Except.ok.inj same
      rw [warned_bind here, warned_bind later, one value result here, inductionHypothesis later]
      simp

end Reporting

/-! ## Seeds -/

/-- The expression that a seed of no known shape is kept as. -/
def Seed.unrecognized? : Seed → Option String
  | .unrecognized expression => some expression
  | _ => none

/-- The warnings of the seeds of some addresses. -/
def Pda.seedWarnings (pdas : List Pda) : List Notice :=
  pdas.flatMap fun pda => (pda.seeds.filterMap Seed.unrecognized?).map Notice.unknownSeed

theorem Pda.seedWarnings_append (pdas others : List Pda) :
    seedWarnings (pdas ++ others) = seedWarnings pdas ++ seedWarnings others := by
  rw [seedWarnings, List.flatMap_append]
  rfl

/-- The warning of one seed. -/
def Seed.warning (seed : Seed) : List Notice :=
  (seed.unrecognized?.map Notice.unknownSeed).toList

theorem Seed.flatMap_warning (seeds : List Seed) :
    seeds.flatMap Seed.warning = (seeds.filterMap Seed.unrecognized?).map Notice.unknownSeed := by
  induction seeds with
  | nil => rfl
  | cons seed rest inductionHypothesis =>
      rw [List.flatMap_cons, inductionHypothesis, warning, List.filterMap_cons]
      cases seed.unrecognized? <;> rfl

namespace SeedTable

variable {table : SeedTable}

theorem literal?_unrecognized? {expression : String} {seed : Seed}
    (found : table.literal? expression = some seed) : seed.unrecognized? = none := by
  rw [literal?] at found
  split at found
  · obtain rfl := Option.some.inj found
    rfl
  · obtain ⟨_, _, rfl⟩ := Option.map_eq_some_iff.mp found
    rfl

theorem plainSeed?_unrecognized? {subject : List Char} {seed : Seed}
    (found : table.plainSeed? subject = some seed) : seed.unrecognized? = none := by
  rw [plainSeed?] at found
  split at found
  · obtain rfl := Option.some.inj found
    rfl
  · obtain ⟨_, _, rfl⟩ := Option.map_eq_some_iff.mp found
    rfl

theorem warned_classifyUnbound {expression : String} {seed : Seed}
    (classified : (table.classifyUnbound expression).outcome = .ok seed) :
    (table.classifyUnbound expression).warned = seed.warning := by
  rw [classifyUnbound] at classified ⊢
  cases literal : table.literal? expression with
  | some found =>
      rw [literal] at classified
      obtain rfl := Except.ok.inj classified
      simp [Seed.warning, literal?_unrecognized? literal]
  | none =>
      rw [literal] at classified
      dsimp only at classified ⊢
      cases param : Seed.param? (Seed.subject expression.toList) with
      | some name =>
          rw [param] at classified
          obtain rfl := Except.ok.inj classified
          rfl
      | none =>
          rw [param] at classified
          dsimp only at classified ⊢
          cases plain : table.plainSeed? (Seed.subject expression.toList) with
          | some found =>
              rw [plain] at classified
              obtain rfl := Except.ok.inj classified
              simp [Seed.warning, plainSeed?_unrecognized? plain]
          | none =>
              rw [plain] at classified
              obtain rfl := Except.ok.inj classified
              rfl

theorem warned_classify {bound : String → Option String} {expression : String} {seed : Seed}
    (classified : (table.classify bound expression).outcome = .ok seed) :
    (table.classify bound expression).warned = seed.warning := by
  rw [classify] at classified ⊢
  cases literal : table.literal? expression with
  | some found =>
      rw [literal] at classified
      obtain rfl := Except.ok.inj classified
      simp [Seed.warning, literal?_unrecognized? literal]
  | none =>
      rw [literal] at classified
      dsimp only at classified ⊢
      split at classified
      · exact warned_classifyUnbound classified
      · exact warned_classifyUnbound classified

end SeedTable

/-! ## Derived addresses -/

namespace Pda

variable {table : SeedTable} {macroCalls : List (Declared SeedCall)}

/-- A step that adds addresses warns of the seeds of those that it adds. -/
def WarnsOfAdded (run : Reporting (List Pda)) (pdas next : List Pda) : Prop :=
  seedWarnings next = seedWarnings pdas ++ run.warned

theorem warnsOfAdded_seeds {seeds : List Seed} {step : Reporting (List Seed)} {pdas : List Pda}
    {name : String} {docs : List String} {next : List Pda}
    (warned : step.warned = seeds.flatMap Seed.warning) (succeeds : step.outcome = .ok seeds)
    (added : (step >>= fun seeds => pure (pdas ++ [⟨name, seeds, docs⟩])).outcome = .ok next) :
    WarnsOfAdded (step >>= fun seeds => pure (pdas ++ [⟨name, seeds, docs⟩])) pdas next := by
  rw [Reporting.outcome_bind, succeeds] at added
  obtain rfl := Except.ok.inj added
  rw [WarnsOfAdded, Reporting.warned_bind succeeds, warned, Seed.flatMap_warning,
    seedWarnings_append]
  simp [seedWarnings]

theorem warnsOfAdded_self (pdas : List Pda) : WarnsOfAdded (pure pdas) pdas pdas := by
  simp [WarnsOfAdded]

theorem addMacro_warns {pdas next : List Pda} {definition : Declared SeedMacro}
    (added : (addMacro table macroCalls pdas definition).outcome = .ok next) :
    WarnsOfAdded (addMacro table macroCalls pdas definition) pdas next := by
  rw [addMacro] at added ⊢
  dsimp only at added ⊢
  by_cases present : taken pdas (nameOfMacro definition.name) = true
  · rw [if_pos present] at added ⊢
    obtain rfl := Except.ok.inj added
    exact warnsOfAdded_self pdas
  · rw [if_neg present] at added ⊢
    obtain ⟨seeds, classified, _⟩ := bind_eq_ok_iff.mp (Reporting.outcome_bind _ _ ▸ added)
    exact warnsOfAdded_seeds
      (Reporting.warned_mapM (fun _ _ => SeedTable.warned_classify) classified) classified added

theorem addCall_warns {pdas next : List Pda} {call : Declared PdaCall}
    (added : (addCall table pdas call).outcome = .ok next) :
    WarnsOfAdded (addCall table pdas call) pdas next := by
  rw [addCall] at added ⊢
  split at added
  · obtain rfl := Except.ok.inj added
    exact warnsOfAdded_self pdas
  · rename_i constant _ _
    dsimp only at added ⊢
    by_cases present : taken pdas (nameOfConstant constant) = true
    · rw [if_pos present] at added ⊢
      obtain rfl := Except.ok.inj added
      exact warnsOfAdded_self pdas
    · rw [if_neg present] at added ⊢
      obtain ⟨seeds, classified, _⟩ := bind_eq_ok_iff.mp (Reporting.outcome_bind _ _ ▸ added)
      exact warnsOfAdded_seeds
        (Reporting.warned_mapM (fun _ _ => SeedTable.warned_classifyUnbound) classified) classified
        added

theorem foldlM_warns {α : Type} {add : List Pda → α → Reporting (List Pda)}
    (step : ∀ pdas value next, (add pdas value).outcome = .ok next →
      WarnsOfAdded (add pdas value) pdas next)
    {values : List α} {pdas final : List Pda}
    (folded : (values.foldlM add pdas).outcome = .ok final) :
    WarnsOfAdded (values.foldlM add pdas) pdas final := by
  induction values generalizing pdas with
  | nil =>
      obtain rfl := Except.ok.inj folded
      exact warnsOfAdded_self pdas
  | cons value rest inductionHypothesis =>
      rw [List.foldlM_cons, Reporting.outcome_bind, bind_eq_ok_iff] at folded
      obtain ⟨next, here, later⟩ := folded
      have first := step pdas value next here
      have others := inductionHypothesis later
      rw [WarnsOfAdded] at first others ⊢
      rw [List.foldlM_cons, Reporting.warned_bind here, others, first, List.append_assoc]

/-- No seed is classified twice, and none of an address that is not kept. -/
theorem warned_extract {macros : List (Declared SeedMacro)} {calls : List (Declared PdaCall)}
    {pdas : List Pda} (extracted : (extract table macros macroCalls calls).outcome = .ok pdas) :
    (extract table macros macroCalls calls).warned = seedWarnings pdas := by
  rw [extract, Reporting.outcome_bind, bind_eq_ok_iff] at extracted
  obtain ⟨first, byMacros, byCalls⟩ := extracted
  have early := foldlM_warns (fun _ _ _ => addMacro_warns) byMacros
  have late := foldlM_warns (fun _ _ _ => addCall_warns) byCalls
  rw [WarnsOfAdded] at early late
  rw [extract, Reporting.warned_bind byMacros, late, early]
  rfl

end Pda

/-! ## Accounts of instructions -/

namespace Declarations

/-- The struct of accounts that is chosen for an instruction: that of the first choice for its
variant. -/
def chosenAccounts? (declarations : Declarations) (instruction : Instruction) : Option String :=
  ((declarations.dispatches.map (·.content)).find? fun dispatch =>
    dispatch.variant = instruction.layout.variant && dispatch.enum = instruction.layout.enum).map
      (·.accounts)

/-- The first struct of accounts with a name. -/
def accountsNamed? (declarations : Declarations) (name : String) :
    Option (Declared AccountsStruct) :=
  declarations.accountsStructs.find? fun struct => struct.name = name

/-- The name of the accounts that are chosen for an instruction, if no struct of accounts has it. -/
def unknownAccounts? (declarations : Declarations) (instruction : Instruction) : Option String :=
  (declarations.chosenAccounts? instruction).filter fun name =>
    (declarations.accountsNamed? name).isNone

def accountWarning? (declarations : Declarations) (instruction : Instruction) : Option Notice :=
  (declarations.unknownAccounts? instruction).map (.unknownAccounts instruction.layout.name)

/-- The warnings of some instructions. -/
def accountWarnings (declarations : Declarations) (instructions : List Instruction) :
    List Notice :=
  instructions.filterMap declarations.accountWarning?

end Declarations

section Instructions

variable {known : KnownAddresses} {seeds : SeedTable} {declarations : Declarations}

theorem chosenAccounts?_ofSelection (declared : Declared TaggedStruct)
    (selection : Discriminator.Selection) :
    declarations.chosenAccounts? (.ofSelection known seeds declarations declared selection) =
      (dispatchOf? declarations.dispatches selection).map (·.accounts) := rfl

theorem warned_accountSlots (declared : Declared TaggedStruct)
    (selection : Discriminator.Selection) :
    (accountSlots known seeds declarations (instructionName declared) selection).warned =
      (declarations.accountWarning?
        (.ofSelection known seeds declarations declared selection)).toList := by
  rw [accountSlots, Declarations.accountWarning?, Declarations.unknownAccounts?,
    chosenAccounts?_ofSelection]
  cases dispatchOf? declarations.dispatches selection with
  | none => rfl
  | some dispatch =>
      simp only [Option.map_some, Declarations.accountsNamed?]
      cases found : declarations.accountsStructs.find? fun struct =>
          struct.name = dispatch.accounts with
      | none =>
          rw [Option.filter_some, found]
          rfl
      | some struct =>
          rw [Option.filter_some, found]
          rfl

theorem slotsOf_eq_nil_iff (declared : Declared TaggedStruct)
    (selection : Discriminator.Selection) (instruction : Instruction)
    (built : instruction = .ofSelection known seeds declarations declared selection) :
    instruction.slots = [] ↔ declarations.chosenAccounts? instruction = none ∨
      (declarations.unknownAccounts? instruction).isSome ∨
        ∃ name struct, declarations.chosenAccounts? instruction = some name ∧
          declarations.accountsNamed? name = some struct ∧ struct.content.fields = [] := by
  have slots : instruction.slots = slotsOf known seeds declarations selection := by rw [built]; rfl
  rw [slots, slotsOf, Declarations.unknownAccounts?, built, chosenAccounts?_ofSelection]
  cases dispatchOf? declarations.dispatches selection with
  | none => simp
  | some dispatch =>
      simp only [Option.bind_some, Option.map_some, Declarations.accountsNamed?]
      cases found : declarations.accountsStructs.find? fun struct =>
          struct.name = dispatch.accounts with
      | none => simp [Option.filter, found]
      | some struct => simp [Option.filter, found, AccountSlot.all]

/-- Instructions warn in their order, each of its own accounts. -/
theorem warned_instructionsFrom {discriminators : List Discriminator} {seen : List String}
    {declared : List (Declared TaggedStruct)} {instructions : List Instruction}
    (built : (instructionsFrom known seeds declarations discriminators seen declared).outcome =
      .ok instructions) :
    (instructionsFrom known seeds declarations discriminators seen declared).warned =
      declarations.accountWarnings instructions := by
  induction declared generalizing seen instructions with
  | nil =>
      obtain rfl := Except.ok.inj built
      rfl
  | cons struct rest inductionHypothesis =>
      obtain ⟨fresh, instruct⟩ := instructionsFrom_eq_ok_iff.mp built
      rw [List.map_cons, fresh_cons_iff] at fresh
      cases instruct with
      | @cons _ first _ others here later =>
          obtain ⟨selection, selected, rfl⟩ := here
          have lifted : (liftM (Discriminator.select discriminators struct
              (Discriminator.namedVariant struct)) : Reporting _).outcome = .ok selection := by
            rw [Reporting.outcome_lift, selected]
          have builtLater := instructionsFrom_eq_ok_iff.mpr ⟨fresh.2, later⟩
          rw [instructionsFrom, Reporting.warned_bind lifted, Reporting.warned_lift,
            List.nil_append]
          dsimp only
          rw [snakeCase_of_select selected, Reporting.warned_ensure fresh.1,
            Reporting.warned_bind (accountSlots_outcome _ _ _ _ _), warned_accountSlots,
            Reporting.warned_bind builtLater, inductionHypothesis builtLater, Reporting.warned_pure,
            List.append_nil, Declarations.accountWarnings, Declarations.accountWarnings,
            List.filterMap_cons]
          cases declarations.accountWarning?
            (.ofSelection known seeds declarations struct selection) <;> rfl

end Instructions

/-! ## The whole assembly -/

theorem warned_programAddressFrom {before after : Option String}
    {declared : List (Declared ProgramId)}
    (agreed : (programAddressFrom before declared).outcome = .ok after) :
    (programAddressFrom before declared).warned = [] := by
  induction declared generalizing before with
  | nil => rfl
  | cons first rest inductionHypothesis =>
      rw [programAddressFrom] at agreed ⊢
      by_cases nested : first.content.depth > 0
      · rw [if_pos nested] at agreed ⊢
        rw [Reporting.warned_bind (Reporting.outcome_report _), Reporting.warned_report]
        exact inductionHypothesis agreed
      · rw [if_neg nested] at agreed ⊢
        by_cases differs : before.any (· ≠ first.content.address) = true
        · rw [if_pos differs] at agreed
          cases agreed
        · rw [if_neg differs] at agreed ⊢
          exact inductionHypothesis agreed

theorem warned_programAddress {declared : List (Declared ProgramId)} {address : Option String}
    (agreed : (programAddress declared).outcome = .ok address) :
    (programAddress declared).warned = [] := by
  rw [programAddress] at agreed ⊢
  rw [Reporting.outcome_bind, bind_eq_ok_iff] at agreed
  obtain ⟨found, from', valid⟩ := agreed
  rw [Reporting.warned_bind from', warned_programAddressFrom from', List.nil_append]
  cases found with
  | none => rfl
  | some text =>
      dsimp only at valid ⊢
      rw [Reporting.outcome_bind, bind_eq_ok_iff] at valid
      obtain ⟨_, checked, _⟩ := valid
      rw [Reporting.warned_bind checked]
      rfl

/-- The warnings of an assembly: one for each seed of no known shape, in order, and then one for each
instruction whose accounts are chosen but not known.  These instructions have no accounts; neither
have those for which nothing is chosen, or a struct without fields. -/
theorem assemble_warnings {known : KnownAddresses} {name : String} {files : List ScannedFile}
    {program : Program} (assembled : (assemble known name files).outcome = .ok program) :
    (assemble known name files).warnings = (Pda.seedWarnings program.pdas ++
        (Declarations.ofFiles files).accountWarnings program.instructions).map Notice.message ∧
      ∀ instruction ∈ program.instructions, instruction.slots = [] ↔
        (Declarations.ofFiles files).chosenAccounts? instruction = none ∨
          ((Declarations.ofFiles files).unknownAccounts? instruction).isSome ∨
            ∃ name struct,
              (Declarations.ofFiles files).chosenAccounts? instruction = some name ∧
                (Declarations.ofFiles files).accountsNamed? name = some struct ∧
                  struct.content.fields = [] := by
  obtain ⟨_, layouts, collects⟩ := assembleDeclarations_eq_ok_iff.mp assembled
  have laidOut : (liftM (layOut (Declarations.ofFiles files) program.discriminators).outcome :
      Reporting Layouts).outcome = .ok layouts := by
    rw [Reporting.outcome_lift, layOut_eq_ok_iff.mpr collects.follow]
  have numbered : (liftM (Discriminator.all (Declarations.ofFiles files).discriminators) :
      Reporting _).outcome = .ok program.discriminators := collects.discriminators
  have coded : (liftM (errorCodes (Declarations.ofFiles files).errors) :
      Reporting _).outcome = .ok program.errors := collects.errors
  have pdas := collects.pdas
  have instructions := collects.instructions
  rw [Layouts.seedTable] at pdas instructions
  refine ⟨?_, ?_⟩
  · rw [Reporting.warnings_eq_map_message, assemble, assembleDeclarations,
      Reporting.warned_bind collects.address, warned_programAddress collects.address,
      Reporting.warned_bind numbered, Reporting.warned_bind laidOut]
    dsimp only
    rw [Reporting.warned_bind pdas, Pda.warned_extract pdas, Reporting.warned_bind instructions,
      warned_instructionsFrom instructions, Reporting.warned_bind coded,
      Reporting.warned_bind (Reporting.outcome_report _), Reporting.warned_report]
    simp [Notice.level]
  · intro instruction listed
    obtain ⟨_, _, selection, _, built⟩ := exists_left_of_forall₂ collects.instruct.2 listed
    exact slotsOf_eq_nil_iff _ selection instruction built

/-- A file with two seeds of no known shape, one of them behind a parameter, and with an instruction
whose accounts are nowhere. -/
def claimFile : ScannedFile where
  path := "src/lib.rs"
  declarations :=
    [.discriminator {
      name := "Op"
      site := ⟨"src/lib.rs", 1⟩
      content := { variants := [{ name := "Go", value := 0 }, { name := "Stop", value := 1 }] } },
    .tagged .instruction {
      name := "Go"
      site := ⟨"src/lib.rs", 2⟩
      content := { enum := some "Op", variant := some "Go" } },
    .tagged .instruction {
      name := "Stop"
      site := ⟨"src/lib.rs", 3⟩
      content := { enum := some "Op", variant := some "Op::Stop" } },
    .seedMacro ⟨"claim_seeds", ⟨"src/lib.rs", 4⟩, [],
      ⟨["order"], ["b\"claim\"", "$order", "$owner", "keys::MARK"]⟩⟩,
    .seedCall ⟨"claim_seeds", ⟨"src/lib.rs", 5⟩, [], ⟨["order.number"]⟩⟩,
    .dispatch ⟨"Go", ⟨"src/lib.rs", 6⟩, [], ⟨"Op", "Go", "Slots"⟩⟩]

theorem assemble_warnings_claim : ∃ program,
    (assemble .standard "claim" [claimFile]).outcome = .ok program ∧
      (assemble .standard "claim" [claimFile]).warnings =
        ["Unrecognized PDA seed expression `order.number`, keeping it as an opaque literal",
          "Unrecognized PDA seed expression `keys::MARK`, keeping it as an opaque literal",
          "Instruction go dispatches to unknown accounts struct Slots"] ∧
      ∀ instruction ∈ program.instructions, instruction.slots = [] := by
  obtain ⟨program, assembled, expected⟩ : ∃ program,
      (assemble .standard "claim" [claimFile]).outcome = .ok program ∧
        decide ((Pda.seedWarnings program.pdas ++ (Declarations.ofFiles [claimFile]).accountWarnings
              program.instructions =
            [.unknownSeed "order.number", .unknownSeed "keys::MARK", .unknownAccounts "go" "Slots"]) ∧
          ∀ instruction ∈ program.instructions,
            (Declarations.ofFiles [claimFile]).chosenAccounts? instruction = none ∨
              ((Declarations.ofFiles [claimFile]).unknownAccounts? instruction).isSome) :=
    exists_ok_of_any (by decide +kernel)
  obtain ⟨told, unknown⟩ := of_decide_eq_true expected
  obtain ⟨warnings, slots⟩ := assemble_warnings assembled
  refine ⟨program, assembled, ?_, ?_⟩
  · rw [warnings, told]
    decide +kernel
  · intro instruction listed
    exact (slots instruction listed).mpr ((unknown instruction listed).imp_right .inl)

end ProgramIdl
