import ProgramIdl.Address
import ProgramIdl.Declaration.Scan
import ProgramIdl.Layout.Resolve
import ProgramIdl.Program.AccountSlots
import ProgramIdl.Text.Words

/-!
# Assembling a program

The declarations of all files are put together, in the order of the files' paths, and everything
they refer to is looked up.  The first fault ends the assembly.
-/

set_option autoImplicit false

namespace ProgramIdl

open ProgramIdl.Text

/-! ## The declarations of each kind -/

namespace Declaration

def discriminator? : Declaration → Option (Declared DiscriminatorEnum)
  | .discriminator declared => some declared
  | _ => none

def tagged? (tag : Tag) : Declaration → Option (Declared TaggedStruct)
  | .tagged other declared => if other = tag then some declared else none
  | _ => none

def error? : Declaration → Option (Declared ErrorEnum)
  | .error declared => some declared
  | _ => none

def programId? : Declaration → Option (Declared ProgramId)
  | .programId declared => some declared
  | _ => none

def constant? : Declaration → Option (Declared Constant)
  | .constant declared => some declared
  | _ => none

def seedMacro? : Declaration → Option (Declared SeedMacro)
  | .seedMacro declared => some declared
  | _ => none

def seedCall? : Declaration → Option (Declared SeedCall)
  | .seedCall declared => some declared
  | _ => none

def pdaCall? : Declaration → Option (Declared PdaCall)
  | .pdaCall declared => some declared
  | _ => none

def record? : Declaration → Option (Declared PlainStruct)
  | .record declared => some declared
  | _ => none

def accounts? : Declaration → Option (Declared AccountsStruct)
  | .accounts declared => some declared
  | _ => none

def processor? : Declaration → Option (Declared Processor)
  | .processor declared => some declared
  | _ => none

def dispatch? : Declaration → Option (Declared Dispatch)
  | .dispatch declared => some declared
  | _ => none

end Declaration

/-- The declarations of a program by kind, each in order. -/
structure Declarations where
  discriminators : List (Declared DiscriminatorEnum) := []
  accounts : List (Declared TaggedStruct) := []
  instructions : List (Declared TaggedStruct) := []
  events : List (Declared TaggedStruct) := []
  errors : List (Declared ErrorEnum) := []
  programIds : List (Declared ProgramId) := []
  constants : List (Declared Constant) := []
  seedMacros : List (Declared SeedMacro) := []
  seedCalls : List (Declared SeedCall) := []
  pdaCalls : List (Declared PdaCall) := []
  records : List (Declared PlainStruct) := []
  accountsStructs : List (Declared AccountsStruct) := []
  processors : List (Declared Processor) := []
  dispatches : List (Declared Dispatch) := []
  deriving Repr

namespace Declarations

/-- Some declarations by kind. -/
def ofList (declarations : List Declaration) : Declarations where
  discriminators := declarations.filterMap Declaration.discriminator?
  accounts := declarations.filterMap (Declaration.tagged? .account)
  instructions := declarations.filterMap (Declaration.tagged? .instruction)
  events := declarations.filterMap (Declaration.tagged? .event)
  errors := declarations.filterMap Declaration.error?
  programIds := declarations.filterMap Declaration.programId?
  constants := declarations.filterMap Declaration.constant?
  seedMacros := declarations.filterMap Declaration.seedMacro?
  seedCalls := declarations.filterMap Declaration.seedCall?
  pdaCalls := declarations.filterMap Declaration.pdaCall?
  records := declarations.filterMap Declaration.record?
  accountsStructs := declarations.filterMap Declaration.accounts?
  processors := declarations.filterMap Declaration.processor?
  dispatches := declarations.filterMap Declaration.dispatch?

/-- The declarations of some files by kind, in the order of the files' paths. -/
def ofFiles (files : List ScannedFile) : Declarations :=
  let sorted := files.mergeSort fun file other => decide (file.path ≤ other.path)
  ofList (sorted.flatMap (·.declarations))

/-- The texts of the constants, by name. -/
def constantTexts (declarations : Declarations) : List (String × String) :=
  declarations.constants.map fun constant => (constant.name, constant.content.value)

/-- What the types of a program may refer to. -/
def typeTable (declarations : Declarations) : TypeTable where
  records := declarations.records.map fun record => (record.name, record.content.fields)
  constants := declarations.constantTexts
  sites := declarations.records.map fun record => (record.name, record.site.toString)

end Declarations

/-! ## The parts of a program -/

/-- The address of a program, given the one declared before.  An address inside a module belongs to
another program; any two others must agree. -/
def programAddressFrom (before : Option String) :
    List (Declared ProgramId) → Reporting (Option String)
  | [] => return before
  | declared :: rest =>
      if declared.content.depth > 0 then do
        report (.nestedProgramId declared.content.address declared.site)
        programAddressFrom before rest
      else if before.any (· ≠ declared.content.address) then
        throw (.duplicateName "program id" declared.content.address)
      else programAddressFrom (some declared.content.address) rest

/-- The address of a program. -/
def programAddress (declared : List (Declared ProgramId)) : Reporting (Option String) := do
  match ← programAddressFrom none declared with
  | none => return none
  | some address =>
      Address.validate address
      return some address

/-- The declaration that fields stand in. -/
def Declared.owner {α : Type} (declared : Declared α) : Owner :=
  ⟨declared.name, some declared.site.toString⟩

/-- The layout of a struct that selects a discriminator. -/
def TaggedLayout.ofSelection (name : String) (docs : List String)
    (selection : Discriminator.Selection) (fields : List (Member Layout)) : TaggedLayout where
  name := name
  enum := selection.enum.name
  variant := selection.variant
  value := selection.value
  width := selection.enum.width
  fields := fields
  docs := docs

/-- The variant that an account or an event selects: the one it names, or the one with its own
name. -/
def selfNamedVariant (declared : Declared TaggedStruct) : String :=
  if declared.content.variant.getD "" = "" then declared.name
  else Discriminator.namedVariant declared

/-- The layouts of accounts or events; `seen` holds the names of those before. -/
def taggedLayouts (category : String) (discriminators : List Discriminator) (types : TypeTable)
    (seen : List String) : List (Declared TaggedStruct) → Resolving (List TaggedLayout)
  | [] => return []
  | declared :: rest => do
      if declared.name ∈ seen then throw (.duplicateName category declared.name)
      let selection ← Discriminator.select discriminators declared (selfNamedVariant declared)
      let fields ← types.resolveFields declared.owner declared.content.fields
      let others ← taggedLayouts category discriminators types (declared.name :: seen) rest
      return TaggedLayout.ofSelection declared.name declared.docs selection fields :: others

/-- The arguments of instructions, by the names of their structs, in order. -/
def argumentLayouts (types : TypeTable) :
    List (Declared TaggedStruct) → Resolving (List (String × List (Member Layout)))
  | [] => return []
  | declared :: rest => do
      let fields ← types.resolveFields declared.owner declared.content.fields
      let others ← argumentLayouts types rest
      return (declared.name, fields) :: others

/-- Everything of a program that has fields. -/
structure Layouts where
  accounts : List TaggedLayout
  events : List TaggedLayout
  /-- The arguments of instructions, by the names of their structs; the first entry holds. -/
  arguments : List (String × List (Member Layout))

/-- Everything of a program that has fields.  Of two instruction structs with one name, the later
one's fields hold. -/
def layOut (declarations : Declarations) (discriminators : List Discriminator) :
    Resolving Layouts := do
  let types := declarations.typeTable
  let accounts ← taggedLayouts "account" discriminators types [] declarations.accounts
  let events ← taggedLayouts "event" discriminators types [] declarations.events
  let arguments ← argumentLayouts types declarations.instructions
  return ⟨accounts, events, arguments.reverse⟩

/-- The choice of accounts for what an instruction selects. -/
def dispatchOf? (dispatches : List (Declared Dispatch)) (selection : Discriminator.Selection) :
    Option Dispatch :=
  (dispatches.map (·.content)).find? fun dispatch =>
    dispatch.variant = selection.variant && dispatch.enum = selection.enum.name

/-- The accounts that an instruction takes. -/
def accountSlots (known : KnownAddresses) (seeds : SeedTable) (declarations : Declarations)
    (instruction : String) (selection : Discriminator.Selection) : Reporting (List AccountSlot) :=
  match dispatchOf? declarations.dispatches selection with
  | none => return []
  | some dispatch =>
      match declarations.accountsStructs.find? fun struct => struct.name = dispatch.accounts with
      | some struct => return AccountSlot.all known seeds struct declarations.processors
      | none => do
          report (.unknownAccounts instruction dispatch.accounts)
          return []

/-- The instructions of a program; `seen` holds the names of those before. -/
def instructionsFrom (known : KnownAddresses) (seeds : SeedTable) (declarations : Declarations)
    (discriminators : List Discriminator) (seen : List String) :
    List (Declared TaggedStruct) → Reporting (List Instruction)
  | [] => return []
  | declared :: rest => do
      let selection ←
        Discriminator.select discriminators declared (Discriminator.namedVariant declared)
      let name := snakeCase selection.variant
      if name ∈ seen then throw (.duplicateName "instruction" name)
      let slots ← accountSlots known seeds declarations name selection
      let others ← instructionsFrom known seeds declarations discriminators (name :: seen) rest
      let fields := (seeds.instructions.lookup declared.name).getD []
      let layout := TaggedLayout.ofSelection name declared.docs selection fields
      return { layout := layout, struct := declared.name, slots := slots } :: others

/-- The errors that some variants stand for; `seen` holds the names of those before.  A variant
without a value written behind it has the code zero. -/
def errorCodesFrom (seen : List String) : List Variant → Except Failure (List ErrorCode)
  | [] => .ok []
  | variant :: rest => do
      if variant.name ∈ seen then throw (.duplicateName "error" variant.name)
      let others ← errorCodesFrom (variant.name :: seen) rest
      return ⟨variant.name, variant.explicit.getD 0, variant.docs⟩ :: others

/-- The errors of a program. -/
def errorCodes (declared : List (Declared ErrorEnum)) : Except Failure (List ErrorCode) :=
  errorCodesFrom [] (declared.flatMap fun enum => enum.content.variants)

/-! ## The whole program -/

/-- The outcome of a step that starts without anything remembered. -/
def Resolving.outcome {α : Type} (step : Resolving α) : Except Failure α :=
  (step.run {}).1

/-- The program with a name that some declarations make up. -/
def assembleDeclarations (known : KnownAddresses) (name : String) (declarations : Declarations) :
    Reporting Program := do
  let address ← programAddress declarations.programIds
  let discriminators ← Discriminator.all declarations.discriminators
  let layouts ← (layOut declarations discriminators).outcome
  let seeds : SeedTable := ⟨declarations.constantTexts, layouts.arguments⟩
  let pdas ← Pda.extract seeds declarations.seedMacros declarations.seedCalls declarations.pdaCalls
  let instructions ←
    instructionsFrom known seeds declarations discriminators [] declarations.instructions
  let errors ← errorCodes declarations.errors
  report (.assembled name layouts.accounts.length instructions.length layouts.events.length
    errors.length pdas.length)
  return {
    name := name
    address := address
    discriminators := discriminators
    accounts := layouts.accounts
    instructions := instructions
    events := layouts.events
    errors := errors
    pdas := pdas }

/-- The program with a name that some files make up. -/
def assemble (known : KnownAddresses) (name : String) (files : List ScannedFile) :
    Reporting Program :=
  assembleDeclarations known name (.ofFiles files)

end ProgramIdl
