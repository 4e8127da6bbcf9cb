import ProgramIdl.Program.Basic

/-!
# Accounts of an instruction

What an instruction expects of its accounts is read off the checks that are made on them: who signs,
what is written, which addresses are derived and which are fixed.
-/

set_option autoImplicit false

namespace ProgramIdl

open ProgramIdl.Text

/-- Addresses that are known by the paths of their constants, in the order they are tried. -/
abbrev KnownAddresses := List (String × String)

namespace KnownAddresses

/-- The addresses known if no others are given. -/
def standard : KnownAddresses :=
  [("system::ID", "11111111111111111111111111111111"),
    ("token::ID", "TokenkegQfeZyiNwAJbNbGKPFXCWuBvf9Ss623VQ5DA"),
    ("token_2022::ID", "TokenzQdBNbLqP5VEhdkAS6EPFLC1PHnBqCXEpPxuEb"),
    ("associated_token_account::ID", "ATokenGPvbdGVxr1b2hvZbsiqW5xWH25efTNsLJA8knL")]

/-- Whether a path is, or ends in, the path of a known address. -/
def names (known path : String) : Bool :=
  path = known || ("::" ++ known).toList.isSuffixOf path.toList

/-- The address that a path names. -/
def addressOf? (known : KnownAddresses) (path : String) : Option String :=
  (known.find? fun entry => names entry.1 path).map (·.2)

end KnownAddresses

namespace AccountSlot

/-- The paths by which a program names its own address. -/
def ownPaths : List String :=
  ["ID", "crate::ID", "self::ID", "super::ID", "program_id"]

/-- The default that the address in a check means. -/
def defaultOf? (known : KnownAddresses) (argument : String) : Option DefaultAddress :=
  let path := String.ofList (dereference argument.toList)
  if path ∈ ownPaths then some .program
  else (known.addressOf? path).map .known

/-- Whether a check asks for a signature. -/
def asksSigner (check : Assertion) : Bool :=
  check.method = "assert_signer"

/-- Whether a check asks for write access. -/
def asksWritable (check : Assertion) : Bool :=
  check.method = "assert_writable"

/-- Whether a check asks for a derived address. -/
def asksPda (check : Assertion) : Bool :=
  check.method ∈ ["assert_seeds", "assert_seeds_with_bump", "assert_canonical_bump"]

/-- The argument of a check that asks for a fixed address. -/
def askedAddress? (check : Assertion) : Option String :=
  if check.method = "assert_address" then check.arguments.head? else none

/-- The name of the derived address that a check asks for. -/
def askedPda? (seeds : SeedTable) (check : Assertion) : Option String :=
  if asksPda check then check.arguments.head?.bind (Pda.nameOfSeeds? seeds) else none

/-- The account that a field stands for, by the checks made on it.  The first name of a derived
address counts, and the last fixed address. -/
def ofChecks (known : KnownAddresses) (seeds : SeedTable) (field : Field)
    (checks : List Assertion) : AccountSlot where
  name := field.name
  isSigner := checks.any asksSigner
  isWritable := checks.any asksWritable
  isOptional := "Option<".toList.isPrefixOf field.type.toList
  isPda := checks.any asksPda
  pda := checks.findSome? (askedPda? seeds)
  default := (checks.filterMap askedAddress?).getLast?.bind (defaultOf? known)
  docs := field.docs

/-- The accounts that the fields of a struct stand for. -/
def all (known : KnownAddresses) (seeds : SeedTable) (struct : Declared AccountsStruct)
    (processors : List (Declared Processor)) : List AccountSlot :=
  let checks := (processors.filter fun processor => processor.name = struct.name).flatMap
    fun processor => processor.content.assertions
  struct.content.fields.map fun field =>
    ofChecks known seeds field (checks.filter fun check => check.field = field.name)

end AccountSlot

end ProgramIdl
