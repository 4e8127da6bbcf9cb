import ProgramIdl.Proofs.Declaration.Filling
import ProgramIdl.Proofs.Program.Elsewhere
import ProgramIdl.Scaffold

/-!
# What the program of a new project declares

The names of a project are filled into one template, so the program declares what the template does
with the names filled in, whatever the names are (`scan_programLines`).
-/

set_option autoImplicit false

namespace ProgramIdl

open ProgramIdl.Text
open ProgramIdl.Syntax

/-! ## The declarations -/

/-- Something declared nowhere in particular. -/
def Declared.somewhere {α : Type} (name : String) (docs : List String) (content : α) : Declared α :=
  ⟨name, ⟨"", 0⟩, docs, content⟩

namespace Scaffold.Counter

variable (names : Names)

def programIds : List (Declared ProgramId) :=
  [.somewhere "declare_id" [] { address := names.address }]

def instructionEnum : Declared DiscriminatorEnum :=
  .somewhere (names.pascal ++ "Instruction") ["Instruction discriminator."] {
    variants := [
      { name := "Initialize", explicit := some 0, value := 0 },
      { name := "Increment", explicit := some 1, value := 1 }] }

def accountEnum : Declared DiscriminatorEnum :=
  .somewhere (names.pascal ++ "AccountType") ["Account discriminator."] {
    variants := [{ name := "CounterState", explicit := some 1, value := 1 }] }

def errorEnum : Declared ErrorEnum :=
  .somewhere (names.pascal ++ "Error") ["Errors returned by " ++ names.snake ++ "."] {
    variants := [{
      name := "Overflow"
      explicit := some 0
      docs := ["The counter reached its maximum value."] }] }

def counterState : Declared TaggedStruct :=
  .somewhere "CounterState" ["On-chain counter state."] {
    enum := some (names.pascal ++ "AccountType")
    fields := [
      { name := "bump", type := "u8", docs := ["The PDA bump seed."] },
      { name := "count", type := "PodU64", docs := ["The current counter value."] }] }

def initializeInstruction : Declared TaggedStruct :=
  .somewhere "InitializeInstruction" ["Create a counter for the signing authority."] {
    enum := some (names.pascal ++ "Instruction")
    variant := some "Initialize"
    fields := [
      { name := "bump", type := "u8", docs := ["The PDA bump seed, computed off-chain."] }] }

def incrementInstruction : Declared TaggedStruct :=
  .somewhere "IncrementInstruction" ["Add one to the counter."] {
    enum := some (names.pascal ++ "Instruction")
    variant := some "Increment" }

def counterSeed : Declared Constant :=
  .somewhere "COUNTER_SEED" ["Seed prefix for counter PDAs."] ⟨"&[u8]", "b\"counter\""⟩

def counterSeeds : Declared SeedMacro :=
  .somewhere "counter_seeds" ["Seeds of the counter PDA: `[\"counter\", <authority>]`."] {
    params := ["authority"]
    seeds := ["COUNTER_SEED", "$authority"] }

/-- An account that a struct of accounts holds. -/
def account (name doc : String) : Field :=
  { name := name, type := "&'a AccountView", docs := [doc] }

def initializeAccounts : Declared AccountsStruct :=
  .somewhere "InitializeAccounts" [] ⟨[
    account "authority" "Pays for the counter and seeds its address.",
    account "counter" "The counter PDA.",
    account "system_program" "The system program."]⟩

def incrementAccounts : Declared AccountsStruct :=
  .somewhere "IncrementAccounts" [] ⟨[
    account "authority" "The counter's authority.",
    account "counter" "The counter PDA."]⟩

def initializeChecks : Declared Processor :=
  .somewhere "InitializeAccounts" [] ⟨[
    ⟨"authority", "assert_signer", []⟩,
    ⟨"counter", "assert_seeds_with_bump",
      ["counter_seeds!(authority_key.as_ref(), args.bump)", "&ID"]⟩,
    ⟨"counter", "assert_writable", []⟩,
    ⟨"counter", "assert_empty", []⟩,
    ⟨"system_program", "assert_address", ["&system::ID"]⟩]⟩

def incrementChecks : Declared Processor :=
  .somewhere "IncrementAccounts" [] ⟨[
    ⟨"authority", "assert_signer", []⟩,
    ⟨"counter", "assert_writable", []⟩]⟩

def seedCalls : List (Declared SeedCall) :=
  [.somewhere "counter_seeds" [] ⟨["self.authority.address().as_ref()"]⟩,
    .somewhere "counter_seeds" [] ⟨["self.authority.address().as_ref()",
      "InitializeInstruction::try_from_bytes(data)?.bump"]⟩]

/-- The choice of the accounts of an instruction. -/
def dispatch (variant accounts : String) : Declared Dispatch :=
  .somewhere variant [] ⟨names.pascal ++ "Instruction", variant, accounts⟩

/-- What the program of a new project declares. -/
def declarations : List Declaration :=
  (programIds names).map .programId ++
    [.discriminator (instructionEnum names), .discriminator (accountEnum names),
      .error (errorEnum names), .tagged .account (counterState names),
      .tagged .instruction (initializeInstruction names), .tagged .instruction (incrementInstruction names),
      .constant counterSeed, .seedMacro counterSeeds, .accounts initializeAccounts,
      .accounts incrementAccounts, .processor initializeChecks] ++
    seedCalls.map .seedCall ++
    [.processor incrementChecks, .dispatch (dispatch names "Initialize" "InitializeAccounts"),
      .dispatch (dispatch names "Increment" "IncrementAccounts")]

end Scaffold.Counter

namespace Scaffold

open Filling

/-! ## The template -/

/-- The names in the template. -/
def openNames : Names :=
  ⟨"σ", "Ω", placeholderAddress⟩

/-- The names of a project that is filled into the template. -/
def filledNames (ρ : Filling) : Names :=
  ⟨.ofList ρ.snake, .ofList ρ.pascal, placeholderAddress⟩

/-- The text of a program. -/
def programChars (names : Names) : List Char :=
  (programLines names).flatMap fun line => line.toList ++ ['\n']

theorem toList_textOfLines (lines : List String) :
    (textOfLines lines).toList = lines.flatMap fun line => line.toList ++ ['\n'] := by
  rw [textOfLines, String.toList_join, List.flatMap_map]
  apply List.flatMap_congr
  intro line _
  rw [String.toList_append]
  rfl

theorem fill_pascal (ρ : Filling) : ρ.fill ['Ω'] = ρ.pascal := by
  simp [Filling.char]

theorem fill_snake (ρ : Filling) : ρ.fill ['σ'] = ρ.snake := by
  simp [Filling.char]

set_option maxRecDepth 100000 in
/-- The program of a project is the template with the names of the project filled in. -/
theorem programChars_filledNames (ρ : Filling) :
    programChars (filledNames ρ) = ρ.fill (programChars openNames) := by
  rw [programChars, programChars, openNames, filledNames, programLines, programLines,
    placeholderAddress]
  simp only [List.flatMap_cons, List.flatMap_nil, String.toList_append]
  repeat rw [String.toList_ofList]
  simp only [List.append_assoc, Filling.fill_append, fill_pascal, fill_snake]
  rfl

/-- The names stand apart from everything around them in the template. -/
theorem exists_opens : ∃ run, Opens (programChars openNames) run := by
  have separate : (lexemes (programChars openNames)).any (fun run =>
      areSeparate run && run.all Lexeme.isFillable) = true := by
    rw [programChars, programLines, openNames, placeholderAddress]
    simp only [List.flatMap_cons, List.flatMap_nil, String.toList_append]
    repeat rw [String.toList_ofList]
    decide +kernel
  obtain ⟨run, read, apart⟩ := (Option.any_eq_true _ _).mp separate
  exact ⟨run, read, Bool.and_eq_true_iff.mp apart⟩

theorem findings_append (path : String) (depth : Nat) (front back : List (Annotated Item)) :
    findings path depth (front ++ back) = findings path depth front ++ findings path depth back := by
  induction front with
  | nil => rfl
  | cons item front inductionHypothesis =>
      rw [List.cons_append, findings, findings, inductionHypothesis, List.append_assoc]

/-- Whether some items declare something. -/
def declare (items : List (Annotated Item)) (declarations : List Declaration) : Bool :=
  (findings "" 0 items).map Finding.placeless = declarations.map .declaration

/-- The items of the template, if it has any. -/
def openItems? : Option (List (Annotated Item)) :=
  itemsOf? (.ofList (programChars openNames))

theorem openItems_fillable : openItems?.any areFillable = true := by
  rw [openItems?, itemsOf?, trees?_eq, tokens?, String.toList_ofList, programChars, programLines,
    openNames, placeholderAddress]
  simp only [List.flatMap_cons, List.flatMap_nil, String.toList_append]
  repeat rw [String.toList_ofList]
  decide +kernel

-- the types of the template are checked apart from its macros and functions: what has been computed
-- for a check is held until the check ends
theorem openItems_declare :
    openItems?.any (fun items =>
      declare (items.take 10) ((Counter.declarations openNames).take 9)) = true ∧
    openItems?.any (fun items =>
      declare (items.drop 10) ((Counter.declarations openNames).drop 9)) = true := by
  rw [openItems?, itemsOf?, trees?_eq, tokens?, String.toList_ofList, programChars, programLines,
    openNames, placeholderAddress]
  simp only [List.flatMap_cons, List.flatMap_nil, String.toList_append]
  repeat rw [String.toList_ofList]
  constructor <;> decide +kernel

/-- The items of the template: names stand in them only where they may be left open, and they declare
the counter. -/
structure OpenProgram where
  items : List (Annotated Item)
  read : itemsOf? (.ofList (programChars openNames)) = some items
  fillable : areFillable items = true
  declares : (findings "" 0 items).map Finding.placeless =
    (Counter.declarations openNames).map .declaration

theorem exists_openProgram : Nonempty OpenProgram := by
  obtain ⟨items, read, fillable⟩ := (Option.any_eq_true _ _).mp openItems_fillable
  obtain ⟨declares, declaresLater⟩ := openItems_declare
  rw [read, Option.any_some] at declares declaresLater
  refine ⟨⟨items, read, fillable, ?_⟩⟩
  rw [← List.take_append_drop 10 items, findings_append, List.map_append,
    of_decide_eq_true declares, of_decide_eq_true declaresLater, ← List.map_append,
    List.take_append_drop]

/-! ## The declarations of a project -/

section Filled

variable (ρ : Filling)

theorem string_append (front back : String) :
    ρ.string (front ++ back) = ρ.string front ++ ρ.string back := by
  rw [Filling.string, String.toList_append, Filling.fill_append, String.ofList_append]
  rfl

theorem string_openPascal : ρ.string openNames.pascal = (filledNames ρ).pascal := by
  rw [Filling.string, openNames, String.toList_ofList, fill_pascal, filledNames]

theorem string_openSnake : ρ.string openNames.snake = (filledNames ρ).snake := by
  rw [Filling.string, openNames, String.toList_ofList, fill_snake, filledNames]

/-- The declarations of the template name a project wherever they leave a name open. -/
theorem declarations_filledNames :
    (Counter.declarations openNames).map (Declaration.fill ρ) =
      Counter.declarations (filledNames ρ) := by
  have whole {text : String} (ascii : isAscii text = true) : ρ.string text = text :=
    ρ.string_of_isAscii ascii
  have instruction : ρ.string "Instruction" = "Instruction" := whole (by decide +kernel)
  have account : ρ.string "AccountType" = "AccountType" := whole (by decide +kernel)
  have error : ρ.string "Error" = "Error" := whole (by decide +kernel)
  have front : ρ.string "Errors returned by " = "Errors returned by " := whole (by decide +kernel)
  have stop : ρ.string "." = "." := whole (by decide +kernel)
  have instructionDoc : ρ.string "Instruction discriminator." = "Instruction discriminator." :=
    whole (by decide +kernel)
  have accountDoc : ρ.string "Account discriminator." = "Account discriminator." :=
    whole (by decide +kernel)
  simp [Counter.declarations, Counter.programIds, Counter.instructionEnum, Counter.accountEnum,
    Counter.errorEnum, Counter.counterState, Counter.initializeInstruction,
    Counter.incrementInstruction, Counter.dispatch, Counter.seedCalls, Declared.somewhere,
    Declaration.fill, string_append, string_openPascal, string_openSnake, instruction, account,
    error, front, stop, instructionDoc, accountDoc]
  rfl

end Filled

end Scaffold

section Placeless

variable (ρ : Filling)

theorem Declaration.placeless_fill (declaration : Declaration) :
    (declaration.fill ρ).placeless = declaration.placeless.fill ρ := by
  cases declaration <;> rfl

theorem Finding.placeless_fill (finding : Finding) :
    (finding.fill ρ).placeless = finding.placeless.fill ρ := by
  rcases finding with declared | _ | _
  · exact congrArg Finding.declaration (declared.placeless_fill ρ)
  · rfl
  · rfl

theorem Finding.placeless_lineless (finding : Finding) :
    finding.lineless.placeless = finding.placeless := by
  rcases finding with declared | _ | failure
  · exact congrArg Finding.declaration (ProgramIdl.placeless_lineless declared)
  · rfl
  · cases failure <;> rfl

end Placeless

/-- Nothing but declarations is gathered as it is. -/
theorem outcome_gather (declarations : List Declaration) :
    (gather (declarations.map .declaration)).outcome = .ok declarations := by
  induction declarations with
  | nil => rfl
  | cons first rest inductionHypothesis =>
      rw [List.map_cons, gather, Reporting.outcome_bind, inductionHypothesis]
      rfl

namespace Scaffold

variable (ρ : Filling)

/-- The program of a project declares what the template does with the names of the project filled in,
apart from the sites. -/
theorem findings_programChars (path : String) : ∃ items,
    itemsOf? (.ofList (programChars (filledNames ρ))) = some items ∧
      (findings path 0 items).map Finding.placeless =
        (Counter.declarations (filledNames ρ)).map .declaration := by
  obtain ⟨run, opens⟩ := exists_opens
  obtain ⟨items, read, fillable, declares⟩ := exists_openProgram
  have slash : (programChars openNames).head? = some '/' := by
    rw [programChars, programLines, List.flatMap_cons, String.toList_append, String.toList_append,
      String.toList_ofList]
    rfl
  obtain ⟨places, alike⟩ := itemsOf?_fill ρ opens slash
  rw [read, ← programChars_filledNames] at alike
  generalize itemsOf? (.ofList (programChars (filledNames ρ))) = filled at alike
  cases alike with
  | @some _ items' alike =>
      refine ⟨items', rfl, ?_⟩
      calc
        (findings path 0 items').map Finding.placeless
        _ = ((findings path 0 items').map Finding.lineless).map Finding.placeless := by
          simp only [List.map_map, Function.comp_def, Finding.placeless_lineless]
        _ = (((findings path 0 items).map (Finding.fill ρ)).map Finding.lineless).map
            Finding.placeless := by
          rw [findings_fill path 0 alike fillable]
        _ = ((findings path 0 items).map Finding.placeless).map (Finding.fill ρ) := by
          simp only [List.map_map, Function.comp_def, Finding.placeless_lineless,
            Finding.placeless_fill]
        _ = ((Counter.declarations openNames).map .declaration).map (Finding.fill ρ) := by
          rw [findings_elsewhere path "" 0 items, declares]
        _ = (Counter.declarations (filledNames ρ)).map .declaration := by
          rw [← declarations_filledNames, List.map_map, List.map_map]
          rfl

theorem placeless_declarations (names : Names) :
    (Counter.declarations names).map Declaration.placeless = Counter.declarations names :=
  rfl

/-- Wherever the program of a project stands, it is read and declares the counter. -/
theorem scan_programLines (path : String) : ∃ file,
    (scan path (textOfLines (programLines (filledNames ρ)))).outcome = .ok file ∧
      file.declarations.map Declaration.placeless = Counter.declarations (filledNames ρ) := by
  obtain ⟨items, read, found⟩ := findings_programChars ρ path
  have text : String.ofList (programChars (filledNames ρ)) =
      textOfLines (programLines (filledNames ρ)) := by
    rw [programChars, ← toList_textOfLines, String.ofList_toList]
  rw [text] at read
  have same : (findings path 0 items).map (Finding.forgetting Declaration.placeless) =
      ((Counter.declarations (filledNames ρ)).map Finding.declaration).map
        (Finding.forgetting Declaration.placeless) := by
    rw [found, List.map_map, ← placeless_declarations, List.map_map, List.map_map]
    rfl
  have outcome := (gather_forgetting same).outcome
  rw [outcome_gather] at outcome
  cases gathered : (gather (findings path 0 items)).outcome with
  | error =>
      rw [gathered] at outcome
      cases outcome
  | ok declared =>
      rw [gathered] at outcome
      cases outcome with
      | ok same => exact ⟨_, outcome_scan read gathered, same⟩

end Scaffold

end ProgramIdl
