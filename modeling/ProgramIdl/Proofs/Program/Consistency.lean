import ProgramIdl.Proofs.Declaration.Names
import ProgramIdl.Proofs.Program.Assembly

/-!
# Consistent declarations

Assembling files that have been read succeeds exactly for consistent declarations
(`assemble_isOk_iff_consistent`): their own addresses agree, names that have to differ do, every
tagged struct selects a variant of a declared enum, and every field of one has a type.  Nothing else
in the files can make it fail.
-/

set_option autoImplicit false

namespace ProgramIdl

open ProgramIdl.Text

namespace Declarations

/-- A tagged struct names a declared enum that has a given variant. -/
def Selects (declarations : Declarations) (declared : Declared TaggedStruct) (variant : String) :
    Prop :=
  ∃ path, declared.content.enum = some path ∧
    ∃ enum ∈ declarations.discriminators, enum.name = lastSegment path ∧
      variant ∈ enum.content.variants.map (·.name)

/-- The structs of a program that have a discriminator. -/
def tagged (declarations : Declarations) : List (Declared TaggedStruct) :=
  declarations.accounts ++ declarations.events ++ declarations.instructions

/-- Declarations that make up a program. -/
structure Consistent (declarations : Declarations) : Prop where
  addresses_agree : ∀ address ∈ ownAddresses declarations.programIds,
    ∀ other ∈ ownAddresses declarations.programIds, address = other
  addresses_write : ∀ address ∈ ownAddresses declarations.programIds, Address.Writes address
  enums_nodup : (declarations.discriminators.map (·.name)).Nodup
  enums_numbered : ∀ enum ∈ declarations.discriminators, Discriminator.Numbered enum
  accounts_nodup : (declarations.accounts.map (·.name)).Nodup
  events_nodup : (declarations.events.map (·.name)).Nodup
  instructions_nodup : (declarations.instructions.map instructionName).Nodup
  errors_nodup : (declarations.errors.flatMap fun enum =>
    enum.content.variants.map (·.name)).Nodup
  accounts_select : ∀ declared ∈ declarations.accounts,
    declarations.Selects declared (selfNamedVariant declared)
  events_select : ∀ declared ∈ declarations.events,
    declarations.Selects declared (selfNamedVariant declared)
  instructions_select : ∀ declared ∈ declarations.instructions,
    ∃ text, declared.content.variant = some text ∧
      declarations.Selects declared (lastSegment text)
  fields_typed : ∀ declared ∈ declarations.tagged, ∀ field ∈ declared.content.fields,
    ∃ layout, declarations.typeTable.HasType field.type layout

/-! ## Passes over declarations that have names -/

section Passes

variable {declarations : Declarations} {discriminators : List Discriminator}

/-- In enums whose variants have names, a struct selects a variant if it names it. -/
theorem selects_iff (named : ∀ enum ∈ declarations.discriminators, enum.Named)
    (taken : Discriminator.all declarations.discriminators = .ok discriminators)
    (declared : Declared TaggedStruct) (variant : String) :
    (∃ selection, Discriminator.select discriminators declared variant = .ok selection) ↔
      declarations.Selects declared variant := by
  rw [Discriminator.select_isOk_iff taken, Selects]
  constructor
  · rintro ⟨path, found, _, _, enum, listed, same, selected⟩
    exact ⟨path, found, enum, listed, same, selected⟩
  · rintro ⟨path, found, enum, listed, same, selected⟩
    refine ⟨path, found, ?_, ?_, enum, listed, same, selected⟩
    · -- An empty path would name an enum without a name.
      rintro rfl
      exact (named enum listed).name_ne same
    · rintro rfl
      obtain ⟨variant, member, empty⟩ := List.mem_map.mp selected
      exact (named enum listed).variant_ne variant member empty

theorem instructs_iff (named : ∀ enum ∈ declarations.discriminators, enum.Named)
    (taken : Discriminator.all declarations.discriminators = .ok discriminators)
    (known : KnownAddresses) (seeds : SeedTable) (declared : Declared TaggedStruct) :
    (∃ instruction, Instructs known seeds declarations discriminators declared instruction) ↔
      ∃ text, declared.content.variant = some text ∧
        declarations.Selects declared (lastSegment text) := by
  have selected : (∃ instruction,
      Instructs known seeds declarations discriminators declared instruction) ↔
        declarations.Selects declared (Discriminator.namedVariant declared) := by
    rw [← selects_iff named taken]
    constructor
    · rintro ⟨_, selection, selected, rfl⟩
      exact ⟨selection, selected⟩
    · rintro ⟨selection, selected⟩
      exact ⟨_, selection, selected, rfl⟩
  rw [selected, Discriminator.namedVariant]
  cases declared.content.variant with
  | some text => simp
  | none =>
      -- The last segment of nothing is empty, and no variant is.
      simp only [Option.getD_none, reduceCtorEq, false_and, exists_false, iff_false]
      rintro ⟨path, _, enum, listed, _, chosen⟩
      obtain ⟨variant, member, empty⟩ := List.mem_map.mp chosen
      exact (named enum listed).variant_ne variant member empty

theorem standsFor_iff (named : ∀ enum ∈ declarations.discriminators, enum.Named)
    (taken : Discriminator.all declarations.discriminators = .ok discriminators)
    (declared : Declared TaggedStruct) :
    (∃ layout, StandsFor discriminators declarations.typeTable declared layout) ↔
      declarations.Selects declared (selfNamedVariant declared) ∧
        ∀ field ∈ declared.content.fields,
          ∃ layout, declarations.typeTable.HasType field.type layout := by
  rw [← selects_iff named taken, ← TypeTable.exists_fieldsHaveType_iff]
  constructor
  · rintro ⟨_, selection, fields, selected, typed, rfl⟩
    exact ⟨⟨selection, selected⟩, fields, typed⟩
  · rintro ⟨⟨selection, selected⟩, fields, typed⟩
    exact ⟨_, selection, fields, selected, typed, rfl⟩

end Passes

/-! ## The whole assembly -/

variable {known : KnownAddresses} {name : String} {declarations : Declarations}

theorem Consistent.outcome_programAddress (consistent : declarations.Consistent) :
    (programAddress declarations.programIds).outcome =
      .ok (ownAddresses declarations.programIds).head? := by
  refine programAddress_eq_ok_iff.mpr ⟨rfl, fun other listed =>
    ⟨?_, consistent.addresses_write other listed⟩⟩
  cases own : ownAddresses declarations.programIds with
  | nil =>
      rw [own] at listed
      cases listed
  | cons first rest =>
      have inside : first ∈ ownAddresses declarations.programIds := by
        rw [own]
        exact List.mem_cons_self
      rw [List.head?_cons, consistent.addresses_agree first inside other listed]

theorem Consistent.exists_layouts (consistent : declarations.Consistent)
    (named : ∀ enum ∈ declarations.discriminators, enum.Named)
    {discriminators : List Discriminator}
    (taken : Discriminator.all declarations.discriminators = .ok discriminators) :
    ∃ layouts, Layouts.Follow declarations discriminators layouts := by
  have typed := consistent.fields_typed
  simp only [tagged, List.mem_append] at typed
  obtain ⟨accounts, accountsStand⟩ := exists_forall₂_iff.mpr fun declared listed =>
    (standsFor_iff named taken declared).mpr
      ⟨consistent.accounts_select declared listed, typed declared (.inl (.inl listed))⟩
  obtain ⟨events, eventsStand⟩ := exists_forall₂_iff.mpr fun declared listed =>
    (standsFor_iff named taken declared).mpr
      ⟨consistent.events_select declared listed, typed declared (.inl (.inr listed))⟩
  have lists : ∀ declared ∈ declarations.instructions,
      ∃ entry, ListsArguments declarations.typeTable declared entry := by
    intro declared listed
    obtain ⟨members, laid⟩ :=
      TypeTable.exists_fieldsHaveType_iff.mpr (typed declared (.inr listed))
    exact ⟨(declared.name, members), rfl, laid⟩
  obtain ⟨arguments, argumentsListed⟩ := exists_forall₂_iff.mpr lists
  refine ⟨⟨accounts, events, arguments.reverse⟩, consistent.accounts_nodup, accountsStand,
    consistent.events_nodup, eventsStand, ?_⟩
  rw [List.reverse_reverse]
  exact argumentsListed

/-- A program whose passes come to an end has consistent declarations. -/
theorem consistent_of_collects {layouts : Layouts} {program : Program}
    (named : ∀ enum ∈ declarations.discriminators, enum.Named)
    (collects : program.Collects known declarations layouts) : declarations.Consistent := by
  obtain ⟨_, agree⟩ := programAddress_eq_ok_iff.mp collects.address
  obtain ⟨enumsDiffer, numbered⟩ := Discriminator.all_isOk_iff.mp ⟨_, collects.discriminators⟩
  obtain ⟨namesDiffer, instruct⟩ := collects.instruct
  have follow := collects.follow
  have accountsStand : ∀ declared ∈ declarations.accounts, _ := fun declared listed =>
    (standsFor_iff named collects.discriminators declared).mp
      (exists_forall₂_iff.mp ⟨_, follow.accounts⟩ declared listed)
  have eventsStand : ∀ declared ∈ declarations.events, _ := fun declared listed =>
    (standsFor_iff named collects.discriminators declared).mp
      (exists_forall₂_iff.mp ⟨_, follow.events⟩ declared listed)
  exact {
    addresses_agree := fun address listed other listedToo =>
      Option.some.inj ((agree address listed).1.symm.trans (agree other listedToo).1)
    addresses_write := fun address listed => (agree address listed).2
    enums_nodup := enumsDiffer
    enums_numbered := numbered
    accounts_nodup := follow.accounts_nodup
    events_nodup := follow.events_nodup
    instructions_nodup := namesDiffer
    errors_nodup := (errorCodes_eq_ok_iff.mp collects.errors).1
    accounts_select := fun declared listed => (accountsStand declared listed).1
    events_select := fun declared listed => (eventsStand declared listed).1
    instructions_select := fun declared listed =>
      (instructs_iff named collects.discriminators known _ declared).mp
        (exists_forall₂_iff.mp ⟨_, instruct⟩ declared listed)
    fields_typed := by
      intro declared listed
      rw [tagged, List.mem_append, List.mem_append] at listed
      rcases listed with (account | event) | instruction
      · exact (accountsStand declared account).2
      · exact (eventsStand declared event).2
      · obtain ⟨entry, _, typed⟩ :=
          exists_forall₂_iff.mp ⟨_, follow.arguments⟩ declared instruction
        exact TypeTable.exists_fieldsHaveType_iff.mp ⟨_, typed⟩ }

/-- Declarations whose enums have names are assembled exactly if they are consistent. -/
theorem assembleDeclarations_isOk_iff
    (named : ∀ enum ∈ declarations.discriminators, enum.Named) :
    (∃ program, (assembleDeclarations known name declarations).outcome = .ok program) ↔
      declarations.Consistent := by
  simp only [assembleDeclarations_eq_ok_iff]
  constructor
  · rintro ⟨program, _, layouts, collects⟩
    exact consistent_of_collects named collects
  · intro consistent
    obtain ⟨discriminators, taken⟩ := Discriminator.all_isOk_iff.mpr
      ⟨consistent.enums_nodup, consistent.enums_numbered⟩
    obtain ⟨layouts, follow⟩ := consistent.exists_layouts named taken
    obtain ⟨pdas, extracted⟩ := Pda.extract_succeeds (layouts.seedTable declarations)
      declarations.seedMacros declarations.seedCalls declarations.pdaCalls
    obtain ⟨instructions, instruct⟩ := exists_forall₂_iff.mpr fun declared listed =>
      (instructs_iff named taken known (layouts.seedTable declarations) declared).mpr
        (consistent.instructions_select declared listed)
    have built := instructionsFrom_eq_ok_iff.mpr
      ⟨fresh_top_iff.mpr consistent.instructions_nodup, instruct⟩
    obtain ⟨errors, listed⟩ : ∃ errors, errorCodes declarations.errors = .ok errors :=
      ⟨_, errorCodes_eq_ok_iff.mpr ⟨consistent.errors_nodup, rfl⟩⟩
    let program : Program := {
      name := name
      address := (ownAddresses declarations.programIds).head?
      discriminators := discriminators
      accounts := layouts.accounts
      instructions := instructions
      events := layouts.events
      errors := errors
      pdas := pdas }
    have collects : program.Collects known declarations layouts := {
      address := consistent.outcome_programAddress
      discriminators := taken
      follow := follow
      accounts := rfl
      events := rfl
      pdas := extracted
      instructions := built
      errors := listed }
    exact ⟨program, rfl, layouts, collects⟩

end Declarations

/-- What is among the declarations of some files is in one of them. -/
theorem mem_discriminators_ofFiles {files : List ScannedFile}
    {enum : Declared DiscriminatorEnum}
    (listed : enum ∈ (Declarations.ofFiles files).discriminators) :
    ∃ file ∈ files, Declaration.discriminator enum ∈ file.declarations := by
  obtain ⟨declaration, inside, found⟩ := List.mem_filterMap.mp listed
  obtain ⟨file, member, declares⟩ := List.mem_flatMap.mp inside
  refine ⟨file, List.mem_mergeSort.mp member, ?_⟩
  cases declaration with
  | discriminator other =>
      obtain rfl := Option.some.inj found
      exact declares
  | _ => cases found

/-- Files that have been read are assembled exactly if their declarations are consistent. -/
theorem assemble_isOk_iff_consistent (known : KnownAddresses) (name : String)
    {files : List ScannedFile} (scanned : ∀ file ∈ files, file.Scanned) :
    (∃ program, (assemble known name files).outcome = .ok program) ↔
      (Declarations.ofFiles files).Consistent := by
  refine Declarations.assembleDeclarations_isOk_iff ?_
  intro enum listed
  obtain ⟨file, member, declares⟩ := mem_discriminators_ofFiles listed
  exact (scanned file member).named declares

/-- The text of a program with one account. -/
def vaultSource : String :=
  "#[discriminator]\nenum Kind \x7b Vault = 1 \x7d\n"
    ++ "#[account(discriminator = Kind)]\nstruct Vault \x7b owner: Address \x7d\n"

/-- What is read from the text. -/
def vaultFile : ScannedFile where
  path := "src/lib.rs"
  declarations :=
    [.discriminator {
      name := "Kind"
      site := ⟨"src/lib.rs", 2⟩
      content := { variants := [{ name := "Vault", explicit := some 1, value := 1 }] } },
    .tagged .account {
      name := "Vault"
      site := ⟨"src/lib.rs", 4⟩
      content := { enum := some "Kind", fields := [{ name := "owner", type := "Address" }] } }]

theorem scanned_vaultFile : vaultFile.Scanned := by
  apply @ScannedFile.scanned_of_any "src/lib.rs" vaultSource
  unfold vaultSource
  rw [Syntax.itemsOf?, Syntax.trees?, String.toList_append, String.toList_ofList,
    String.toList_ofList]
  decide +kernel

theorem assemble_isOk_iff_consistent_vault :
    (∀ file ∈ [vaultFile], file.Scanned) ∧
      (∃ program, (assemble .standard "vault" [vaultFile]).outcome = .ok program) ∧
        (Declarations.ofFiles [vaultFile]).Consistent := by
  have scanned : ∀ file ∈ [vaultFile], file.Scanned :=
    List.forall_mem_singleton.mpr scanned_vaultFile
  obtain ⟨program, assembled, _⟩ : ∃ program,
      (assemble .standard "vault" [vaultFile]).outcome = .ok program ∧ true = true :=
    exists_ok_of_any (by decide +kernel)
  exact ⟨scanned, ⟨program, assembled⟩,
    (assemble_isOk_iff_consistent .standard "vault" scanned).mp ⟨program, assembled⟩⟩

end ProgramIdl
