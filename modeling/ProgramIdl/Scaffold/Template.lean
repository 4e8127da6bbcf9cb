/-!
# Templates of a new project

A new project is a counter: one account at a derived address, and two instructions, one to create it
and one to add to it.
-/

set_option autoImplicit false

namespace ProgramIdl.Scaffold

/-- What the templates leave open. -/
structure Names where
  /-- The name of the program in snake case. -/
  snake : String
  /-- The name of the program in Pascal case. -/
  pascal : String
  address : String
  deriving DecidableEq, Repr

/-- The version of the library that new projects are built on. -/
def libraryVersion : String := "0.6"

/-- The lines of the manifest. -/
def manifestLines (names : Names) : List String :=
  [
    "[package]",
    "name = \"" ++ names.snake ++ "\"",
    "version = \"0.1.0\"",
    "edition = \"2021\"",
    "publish = false",
    "",
    "[lib]",
    "crate-type = [\"cdylib\", \"lib\"]",
    "",
    "[features]",
    "bpf-entrypoint = []",
    "",
    "[dependencies]",
    "pina = \"" ++ libraryVersion ++ "\""
  ]

/-- The lines of the list of files that are not kept under version control. -/
def ignoredLines : List String :=
  [
    "/target",
    "Cargo.lock",
    "*.so",
    "/idl.json"
  ]

/-- The lines of the program. -/
def programLines (names : Names) : List String :=
  [
    "//! " ++ names.snake ++ ": a pina program.",
    "",
    "#![no_std]",
    "",
    "use pina::*;",
    "",
    "declare_id!(\"" ++ names.address ++ "\");",
    "",
    "/// Instruction discriminator.",
    "#[discriminator]",
    "pub enum " ++ names.pascal ++ "Instruction \x7b",
    "\tInitialize = 0,",
    "\tIncrement = 1,",
    "\x7d",
    "",
    "/// Account discriminator.",
    "#[discriminator]",
    "pub enum " ++ names.pascal ++ "AccountType \x7b",
    "\tCounterState = 1,",
    "\x7d",
    "",
    "/// Errors returned by " ++ names.snake ++ ".",
    "#[error]",
    "pub enum " ++ names.pascal ++ "Error \x7b",
    "\t/// The counter reached its maximum value.",
    "\tOverflow = 0,",
    "\x7d",
    "",
    "/// On-chain counter state.",
    "#[account(discriminator = " ++ names.pascal ++ "AccountType)]",
    "pub struct CounterState \x7b",
    "\t/// The PDA bump seed.",
    "\tpub bump: u8,",
    "\t/// The current counter value.",
    "\tpub count: PodU64,",
    "\x7d",
    "",
    "/// Create a counter for the signing authority.",
    "#[instruction(discriminator = " ++ names.pascal ++ "Instruction, variant = Initialize)]",
    "pub struct InitializeInstruction \x7b",
    "\t/// The PDA bump seed, computed off-chain.",
    "\tpub bump: u8,",
    "\x7d",
    "",
    "/// Add one to the counter.",
    "#[instruction(discriminator = " ++ names.pascal ++ "Instruction, variant = Increment)]",
    "pub struct IncrementInstruction \x7b\x7d",
    "",
    "/// Seed prefix for counter PDAs.",
    "const COUNTER_SEED: &[u8] = b\"counter\";",
    "",
    "/// Seeds of the counter PDA: `[\"counter\", <authority>]`.",
    "#[macro_export]",
    "macro_rules! counter_seeds \x7b",
    "\t($authority:expr) => \x7b",
    "\t\t&[COUNTER_SEED, $authority]",
    "\t\x7d;",
    "\t($authority:expr, $bump:expr) => \x7b",
    "\t\t&[COUNTER_SEED, $authority, &[$bump]]",
    "\t\x7d;",
    "\x7d",
    "",
    "#[derive(Accounts, Debug)]",
    "pub struct InitializeAccounts<'a> \x7b",
    "\t/// Pays for the counter and seeds its address.",
    "\tpub authority: &'a AccountView,",
    "\t/// The counter PDA.",
    "\tpub counter: &'a AccountView,",
    "\t/// The system program.",
    "\tpub system_program: &'a AccountView,",
    "\x7d",
    "",
    "#[derive(Accounts, Debug)]",
    "pub struct IncrementAccounts<'a> \x7b",
    "\t/// The counter's authority.",
    "\tpub authority: &'a AccountView,",
    "\t/// The counter PDA.",
    "\tpub counter: &'a AccountView,",
    "\x7d",
    "",
    "impl<'a> ProcessAccountInfos<'a> for InitializeAccounts<'a> \x7b",
    "\tfn process(&self, data: &[u8]) -> ProgramResult \x7b",
    "\t\tlet args = InitializeInstruction::try_from_bytes(data)?;",
    "\t\tlet authority_key = self.authority.address();",
    "\t\tlet seeds = counter_seeds!(authority_key.as_ref());",
    "\t\tlet seeds_with_bump = counter_seeds!(authority_key.as_ref(), args.bump);",
    "",
    "\t\tself.authority.assert_signer()?;",
    "\t\tself.counter",
    "\t\t\t.assert_empty()?",
    "\t\t\t.assert_writable()?",
    "\t\t\t.assert_seeds_with_bump(seeds_with_bump, &ID)?;",
    "\t\tself.system_program.assert_address(&system::ID)?;",
    "",
    "\t\tcreate_program_account_with_bump::<CounterState>(",
    "\t\t\tself.counter,",
    "\t\t\tself.authority,",
    "\t\t\t&ID,",
    "\t\t\tseeds,",
    "\t\t\targs.bump,",
    "\t\t)?;",
    "",
    "\t\tlet counter = self.counter.as_account_mut::<CounterState>(&ID)?;",
    "\t\t*counter = CounterState::builder()",
    "\t\t\t.bump(args.bump)",
    "\t\t\t.count(PodU64::from_primitive(0))",
    "\t\t\t.build();",
    "",
    "\t\tOk(())",
    "\t\x7d",
    "\x7d",
    "",
    "impl<'a> ProcessAccountInfos<'a> for IncrementAccounts<'a> \x7b",
    "\tfn process(&self, data: &[u8]) -> ProgramResult \x7b",
    "\t\tlet _ = IncrementInstruction::try_from_bytes(data)?;",
    "\t\tself.authority.assert_signer()?;",
    "\t\tself.counter.assert_writable()?.assert_type::<CounterState>(&ID)?;",
    "",
    "\t\tlet counter = self.counter.as_account_mut::<CounterState>(&ID)?;",
    "\t\tlet current: u64 = counter.count.into();",
    "\t\tcounter.count = PodU64::from_primitive(",
    "\t\t\tcurrent.checked_add(1).ok_or(" ++ names.pascal ++ "Error::Overflow)?,",
    "\t\t);",
    "",
    "\t\tOk(())",
    "\t\x7d",
    "\x7d",
    "",
    "#[cfg(feature = \"bpf-entrypoint\")]",
    "pub mod entrypoint \x7b",
    "\tuse super::*;",
    "",
    "\tnostd_entrypoint!(process_instruction);",
    "",
    "\tpub fn process_instruction(",
    "\t\tprogram_id: &Address,",
    "\t\taccounts: &[AccountView],",
    "\t\tdata: &[u8],",
    "\t) -> ProgramResult \x7b",
    "\t\tlet instruction: " ++ names.pascal
      ++ "Instruction = parse_instruction(program_id, &ID, data)?;",
    "",
    "\t\tmatch instruction \x7b",
    "\t\t\t" ++ names.pascal
      ++ "Instruction::Initialize => InitializeAccounts::try_from(accounts)?.process(data),",
    "\t\t\t" ++ names.pascal
      ++ "Instruction::Increment => IncrementAccounts::try_from(accounts)?.process(data),",
    "\t\t\x7d",
    "\t\x7d",
    "\x7d"
  ]

/-- The text of some lines, each with a line break at its end. -/
def textOfLines (lines : List String) : String :=
  String.join (lines.map fun line => line ++ "\n")

end ProgramIdl.Scaffold
