import ProgramIdl.Proofs.Declaration.Leaves
import ProgramIdl.Proofs.Pda.FirstSeed
import ProgramIdl.Proofs.Program.Assembly

/-!
# Derived addresses of accounts

An account of an instruction names the derived address that a check asks for.  The name belongs to an
address of the program, or else the check calls a seed macro that no file declares
(`assemble_slotPdas`).
-/

set_option autoImplicit false

namespace ProgramIdl

open ProgramIdl.Text
open ProgramIdl.Syntax

/-! ## Checks in a body -/

/-- The methods by which a body checks that an account has a derived address. -/
def pdaChecks : List String :=
  ["assert_seeds", "assert_seeds_with_bump", "assert_canonical_bump"]

/-- What a body passes to such checks first, each with the place of the check. -/
def pdaArguments (body : List Fragment) : List (Nat × String) :=
  body.filterMap fun
    | .call (.method _ method) (argument :: _) start _ =>
        if method ∈ pdaChecks then some (start, resolve (bindings body) start (compact argument))
        else none
    | _ => none

/-- A body in which the square brackets of such arguments match, and no local hides a constant in
front of them. -/
structure ClearChecks (table : SeedTable) (body : List Fragment) : Prop where
  matched : ∀ passed ∈ pdaArguments body, passed.2.toList.count '[' = passed.2.toList.count ']'
  visible : ∀ passed ∈ pdaArguments body, ∀ constant ∈ Pda.frontConstant? table passed.2,
    boundAt? (bindings body) constant passed.1 = none

instance (table : SeedTable) (body : List Fragment) : Decidable (ClearChecks table body) :=
  decidable_of_iff
    ((∀ passed ∈ pdaArguments body, passed.2.toList.count '[' = passed.2.toList.count ']') ∧
      ∀ passed ∈ pdaArguments body, ∀ constant ∈ Pda.frontConstant? table passed.2,
        boundAt? (bindings body) constant passed.1 = none)
    ⟨fun ⟨matched, visible⟩ => ⟨matched, visible⟩, fun clear => ⟨clear.matched, clear.visible⟩⟩

/-- The constants that are scanned in some files. -/
def Declarations.constantTable (declarations : Declarations) : SeedTable where
  constants := declarations.constantTexts

theorem SeedTable.byteConstant?_congr {table other : SeedTable}
    (same : table.constants = other.constants) : table.byteConstant? = other.byteConstant? := by
  funext expression
  rw [byteConstant?, byteConstant?, same]

theorem Pda.frontConstant?_congr {table other : SeedTable}
    (same : table.constants = other.constants) : frontConstant? table = frontConstant? other := by
  funext text
  rw [frontConstant?, frontConstant?, SeedTable.byteConstant?_congr same]

theorem exists_of_mem_assertions {body : List Fragment} {check : Assertion}
    (listed : check ∈ assertions body) :
    ∃ receiver arguments start line,
      Fragment.call (.method receiver check.method) arguments start line ∈ body ∧
        check.arguments = arguments.map fun text => resolve (bindings body) start (compact text) := by
  obtain ⟨fragment, member, found⟩ := List.mem_filterMap.mp listed
  cases fragment with
  | call callee arguments start line =>
      cases callee with
      | method receiver method =>
          dsimp only at found
          split at found
          · obtain ⟨field, _, rfl⟩ := Option.map_eq_some_iff.mp found
            exact ⟨receiver, arguments, start, line, member, rfl⟩
          · cases found
      | path text => cases found
  | binding name value stop => cases found
  | macroCall path arguments start line => cases found
  | arm pattern value line => cases found

/-- A check that asks for the address of a constant is itself a call that derives that address. -/
theorem exists_pdaCall {table : SeedTable} {body : List Fragment} (clear : ClearChecks table body)
    (path : String) {check : Assertion} (listed : check ∈ assertions body)
    (asks : AccountSlot.asksPda check = true) {argument constant : String}
    (first : check.arguments.head? = some argument)
    (leads : Pda.frontConstant? table argument = some constant) :
    ∃ call ∈ pdaCalls path body, Pda.leadingConstant? table call.content.seeds = some constant := by
  obtain ⟨receiver, arguments, start, line, member, resolved⟩ := exists_of_mem_assertions listed
  have asked : check.method ∈ pdaChecks := by simpa [AccountSlot.asksPda, pdaChecks] using asks
  cases arguments with
  | nil =>
      rw [resolved] at first
      cases first
  | cons written others =>
      rw [resolved, List.map_cons, List.head?_cons] at first
      obtain rfl := Option.some.inj first
      have passed : (start, resolve (bindings body) start (compact written)) ∈
          pdaArguments body := by
        refine List.mem_filterMap.mpr ⟨_, member, ?_⟩
        dsimp only
        rw [if_pos asked]
      have matched := clear.matched _ passed
      have visible := clear.visible _ passed constant
      dsimp only at matched visible
      obtain ⟨seeds, read, leading⟩ :=
        Pda.pdaSeeds?_of_frontConstant leads matched (visible leads)
      have derives : check.method ∈ pdaFunctions := by
        have all : ∀ method ∈ pdaChecks, method ∈ pdaFunctions := by decide
        exact all check.method asked
      have called : calleeName (.method receiver check.method) ∈ pdaFunctions := derives
      refine ⟨⟨check.method, ⟨path, line⟩, [], ⟨seeds⟩⟩, ?_, leading⟩
      rw [pdaCalls, List.mem_filterMap]
      refine ⟨_, member, ?_⟩
      dsimp only
      rw [if_pos called, read]
      rfl

/-! ## Checks in a file -/

/-- The checks of a processor stand in bodies whose calls the file declares too. -/
theorem ScannedFile.ReadFrom.exists_body {file : ScannedFile} {items : List (Annotated Item)}
    (read : file.ReadFrom items) {processor : Declared Processor}
    (declared : Declaration.processor processor ∈ file.declarations) {check : Assertion}
    (listed : check ∈ processor.content.assertions) :
    ∃ body ∈ bodies items, check ∈ assertions body ∧
      ∀ call ∈ pdaCalls file.path body, Declaration.pdaCall call ∈ file.declarations := by
  obtain ⟨depth, annotations, line, item, leaf, found, declares⟩ := read.exists_item declared
  cases item with
  | implementation ofTrait target written =>
      have inside : check ∈ written.flatMap assertions := by
        rw [itemFindings] at found
        rcases List.mem_append.mp found with checks | calls
        · split at checks
          · have same := List.mem_singleton.mp checks
            injection same with same
            injection same with same
            rw [same] at listed
            exact listed
          · cases checks
        · obtain ⟨body, _, call⟩ := List.mem_flatMap.mp calls
          rcases List.mem_append.mp call with called | derived
          · obtain ⟨_, _, same⟩ := List.mem_map.mp called
            cases same
          · obtain ⟨_, _, same⟩ := List.mem_map.mp derived
            cases same
      obtain ⟨body, member, checked⟩ := List.mem_flatMap.mp inside
      refine ⟨body, List.mem_flatMap.mpr ⟨_, leaf, member⟩, checked, ?_⟩
      intro call derives
      refine read.mem_declarations_iff.mpr ⟨_, leaf, ?_⟩
      rw [annotatedFindings, itemFindings]
      refine List.mem_append_right _ (List.mem_flatMap.mpr ⟨body, member, ?_⟩)
      exact List.mem_append_right _ (List.mem_map.mpr ⟨call, derives, rfl⟩)
  | record _ _ => cases declares
  | enumeration _ _ => cases declares
  | constant _ _ _ => cases declares
  | macroCall _ _ => cases declares
  | macroRules _ _ => cases declares
  | module _ => cases declares
  | function _ _ => cases declares
  | other => cases declares

/-! ## Accounts of an instruction -/

/-- A check on the field of an account asks for the derived address that the account names. -/
def Declarations.AsksFor (declarations : Declarations) (seeds : SeedTable) (slot : AccountSlot)
    (check : Assertion) (pda : String) : Prop :=
  (∃ processor ∈ declarations.processors, check ∈ processor.content.assertions) ∧
    check.field = slot.name ∧ AccountSlot.askedPda? seeds check = some pda

theorem AccountSlot.exists_check {known : KnownAddresses} {seeds : SeedTable}
    {declarations : Declarations} {struct : Declared AccountsStruct} {slot : AccountSlot}
    {pda : String} (listed : slot ∈ AccountSlot.all known seeds struct declarations.processors)
    (named : slot.pda = some pda) : ∃ check, declarations.AsksFor seeds slot check pda := by
  obtain ⟨field, _, rfl⟩ := List.mem_map.mp listed
  obtain ⟨check, kept, asked⟩ := List.exists_of_findSome?_eq_some named
  obtain ⟨inside, sameField⟩ := List.mem_filter.mp kept
  obtain ⟨processor, chosen, member⟩ := List.mem_flatMap.mp inside
  exact ⟨check, ⟨processor, (List.mem_filter.mp chosen).1, member⟩, of_decide_eq_true sameField, asked⟩

theorem Program.Collects.exists_check {known : KnownAddresses} {declarations : Declarations}
    {layouts : Layouts} {program : Program}
    (collects : program.Collects known declarations layouts) {instruction : Instruction}
    (built : instruction ∈ program.instructions) {slot : AccountSlot}
    (listed : slot ∈ instruction.slots) {pda : String} (named : slot.pda = some pda) :
    ∃ check, declarations.AsksFor (layouts.seedTable declarations) slot check pda := by
  obtain ⟨_, _, selection, _, rfl⟩ := exists_left_of_forall₂ collects.instruct.2 built
  change slot ∈ slotsOf known (layouts.seedTable declarations) declarations selection at listed
  rw [slotsOf] at listed
  split at listed
  · exact AccountSlot.exists_check listed named
  · cases listed

/-- The name of a derived address comes from a check that calls a seed macro, and the macro is not
declared. -/
def Declarations.NamesUndeclaredMacro (declarations : Declarations) (slot : AccountSlot)
    (pda : String) : Prop :=
  ∃ processor ∈ declarations.processors, ∃ check ∈ processor.content.assertions,
    check.field = slot.name ∧ AccountSlot.asksPda check = true ∧
      ∃ argument called, check.arguments.head? = some argument ∧
        Pda.seedMacro? argument = some called ∧ pda = Pda.nameOfMacro called ∧
          ∀ definition ∈ declarations.seedMacros, definition.name ≠ called

/-- Every derived address that an account names is an address of the program, unless its name comes
from a seed macro that is not declared. -/
theorem assemble_slotPdas {known : KnownAddresses} {name : String} {files : List ScannedFile}
    {program : Program}
    (read : ∀ file ∈ files, ∃ items, file.ReadFrom items ∧
      ∀ body ∈ bodies items, ClearChecks (Declarations.ofFiles files).constantTable body)
    (assembled : (assemble known name files).outcome = .ok program) :
    ∀ instruction ∈ program.instructions, ∀ slot ∈ instruction.slots, ∀ pda,
      slot.pda = some pda → (∃ derived ∈ program.pdas, derived.name = pda) ∨
        (Declarations.ofFiles files).NamesUndeclaredMacro slot pda := by
  intro instruction built slot listed pda named
  obtain ⟨_, layouts, collects⟩ := assembleDeclarations_eq_ok_iff.mp assembled
  have extracts := Pda.extract_extracts collects.pdas
  obtain ⟨check, ⟨processor, declared, checked⟩, sameField, asked⟩ :=
    collects.exists_check built listed named
  rw [AccountSlot.askedPda?] at asked
  split at asked
  · rename_i asks
    obtain ⟨argument, first, nameFound⟩ := Option.bind_eq_some_iff.mp asked
    rw [Pda.nameOfSeeds?_eq] at nameFound
    cases calls : Pda.seedMacro? argument with
    | some called =>
        rw [calls] at nameFound
        obtain rfl := Option.some.inj nameFound
        by_cases known : ∃ definition ∈ (Declarations.ofFiles files).seedMacros,
            definition.name = called
        · obtain ⟨definition, member, rfl⟩ := known
          exact .inl (extracts.ofMacro definition member)
        · right
          refine ⟨processor, declared, check, checked, sameField, asks, argument, called, first,
            calls, rfl, ?_⟩
          intro definition member same
          exact known ⟨definition, member, same⟩
    | none =>
        left
        rw [calls] at nameFound
        obtain ⟨constant, leads, rfl⟩ := Option.map_eq_some_iff.mp nameFound
        obtain ⟨file, member, inFile⟩ := mem_processors_iff.mp declared
        obtain ⟨items, readFrom, clear⟩ := read file member
        obtain ⟨body, written, checkedIn, declares⟩ := readFrom.exists_body inFile checked
        have sameConstants : (layouts.seedTable (Declarations.ofFiles files)).constants =
            (Declarations.ofFiles files).constantTable.constants := rfl
        rw [Pda.frontConstant?_congr sameConstants] at leads
        obtain ⟨call, derives, leading⟩ := exists_pdaCall (clear body written) file.path checkedIn
          asks first leads
        have listedCall := mem_pdaCalls_iff.mpr ⟨file, member, declares call derives⟩
        refine extracts.ofCall call listedCall constant ?_
        rw [← leading, Pda.leadingConstant?, Pda.leadingConstant?,
          SeedTable.byteConstant?_congr sameConstants]
  · cases asked

/-- The text of a program with two checks: one on the address of a constant, and one that calls a seed
macro from elsewhere. -/
def fundLines : List String :=
  ["#[discriminator] enum Op \x7b Go \x7d",
    "#[instruction(discriminator = Op, variant = Go)] struct Go;",
    "#[derive(Accounts)] struct Slots \x7b vault: V, fund: F \x7d",
    "const VAULT: T = b\"v\";",
    "impl ProcessAccountInfos for Slots \x7b fn f() \x7b",
    "self.vault.assert_seeds(&[VAULT]);",
    "self.fund.assert_seeds(fund_seeds!())",
    "\x7d \x7d",
    "fn process_instruction() \x7b match x \x7b Op::Go => Slots::try_from(y) \x7d \x7d"]

/-- What is read from the text. -/
def fundFile : ScannedFile where
  path := "src/lib.rs"
  declarations :=
    [.discriminator {
      name := "Op"
      site := ⟨"src/lib.rs", 1⟩
      content := { variants := [{ name := "Go", value := 0 }] } },
    .tagged .instruction {
      name := "Go"
      site := ⟨"src/lib.rs", 2⟩
      content := { enum := some "Op", variant := some "Go" } },
    .accounts ⟨"Slots", ⟨"src/lib.rs", 3⟩, [],
      ⟨[{ name := "vault", type := "V" }, { name := "fund", type := "F" }]⟩⟩,
    .constant ⟨"VAULT", ⟨"src/lib.rs", 4⟩, [], ⟨"T", "b\"v\""⟩⟩,
    .processor ⟨"Slots", ⟨"src/lib.rs", 5⟩, [],
      ⟨[⟨"vault", "assert_seeds", ["&[VAULT]"]⟩, ⟨"fund", "assert_seeds", ["fund_seeds!()"]⟩]⟩⟩,
    .seedCall ⟨"fund_seeds", ⟨"src/lib.rs", 7⟩, [], ⟨[]⟩⟩,
    .pdaCall ⟨"assert_seeds", ⟨"src/lib.rs", 6⟩, [], ⟨["VAULT"]⟩⟩,
    .dispatch ⟨"Go", ⟨"src/lib.rs", 9⟩, [], ⟨"Op", "Go", "Slots"⟩⟩]

theorem fundFile_readFrom : ∃ items, fundFile.ReadFrom items ∧
    ∀ body ∈ bodies items, ClearChecks (Declarations.ofFiles [fundFile]).constantTable body := by
  obtain ⟨items, parsed, checked⟩ : ∃ items, itemsOf? ("\n".intercalate fundLines) = some items ∧
      decide ((gather (findings "src/lib.rs" 0 items)).outcome = .ok fundFile.declarations ∧
        ∀ body ∈ bodies items,
          ClearChecks (Declarations.ofFiles [fundFile]).constantTable body) := by
    refine (Option.any_eq_true _ _).mp ?_
    unfold fundLines
    rw [itemsOf?_lines]
    simp only [List.map_cons, List.map_nil]
    repeat rw [String.toList_ofList]
    decide +kernel
  obtain ⟨gathered, clear⟩ := of_decide_eq_true checked
  exact ⟨items, readFrom_of_gather parsed gathered, clear⟩

/-- The address that the second account names is no address of the program. -/
theorem not_slotPdas_fund : fundFile.Scanned ∧ ∃ program,
    (assemble .standard "fund" [fundFile]).outcome = .ok program ∧
      ∃ instruction ∈ program.instructions, ∃ slot ∈ instruction.slots, ∃ pda,
        slot.pda = some pda ∧ ∀ derived ∈ program.pdas, derived.name ≠ pda := by
  obtain ⟨items, read, _⟩ := fundFile_readFrom
  refine ⟨read.scanned, ?_⟩
  obtain ⟨program, assembled, dangling⟩ : ∃ program,
      (assemble .standard "fund" [fundFile]).outcome = .ok program ∧
        decide (∃ instruction ∈ program.instructions, ∃ slot ∈ instruction.slots,
          slot.pda = some "fund" ∧ ∀ derived ∈ program.pdas, derived.name ≠ "fund") :=
    exists_ok_of_any (by decide +kernel)
  obtain ⟨instruction, built, slot, listed, named, absent⟩ := of_decide_eq_true dangling
  exact ⟨program, assembled, instruction, built, slot, listed, "fund", named, absent⟩

theorem assemble_slotPdas_fund : ∃ program,
    (assemble .standard "fund" [fundFile]).outcome = .ok program ∧
      ∀ instruction ∈ program.instructions, ∀ slot ∈ instruction.slots, ∀ pda,
        slot.pda = some pda → (∃ derived ∈ program.pdas, derived.name = pda) ∨
          (Declarations.ofFiles [fundFile]).NamesUndeclaredMacro slot pda := by
  have read : ∀ file ∈ [fundFile], ∃ items, file.ReadFrom items ∧
      ∀ body ∈ bodies items, ClearChecks (Declarations.ofFiles [fundFile]).constantTable body :=
    List.forall_mem_singleton.mpr fundFile_readFrom
  obtain ⟨program, assembled, _⟩ : ∃ program,
      (assemble .standard "fund" [fundFile]).outcome = .ok program ∧ true = true :=
    exists_ok_of_any (by decide +kernel)
  exact ⟨program, assembled, assemble_slotPdas read assembled⟩

end ProgramIdl
