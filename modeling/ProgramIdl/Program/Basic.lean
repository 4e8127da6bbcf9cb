import ProgramIdl.Discriminator
import ProgramIdl.Pda

/-!
# Programs

A program as its files describe it together: everything is looked up, and every field has a layout.
-/

set_option autoImplicit false

namespace ProgramIdl

/-- A struct behind its discriminator. -/
structure TaggedLayout where
  name : String := ""
  /-- The enum of its discriminator. -/
  enum : String := ""
  variant : String := ""
  /-- The number of its discriminator, and the bytes that the number takes. -/
  value : Int := 0
  width : Nat := 1
  fields : List (Member Layout) := []
  docs : List String := []
  deriving Repr, Inhabited

/-- The address that an account has when none is given. -/
inductive DefaultAddress where
  /-- The address of the program itself. -/
  | program
  | known (address : String)
  deriving DecidableEq, Repr, Inhabited

/-- An account that an instruction takes. -/
structure AccountSlot where
  name : String := ""
  isSigner : Bool := false
  isWritable : Bool := false
  isOptional : Bool := false
  isPda : Bool := false
  /-- The name of the derived address that the account has. -/
  pda : Option String := none
  default : Option DefaultAddress := none
  docs : List String := []
  deriving DecidableEq, Repr, Inhabited

/-- An instruction; the fields of its struct are its arguments. -/
structure Instruction where
  layout : TaggedLayout := {}
  /-- The name of its struct. -/
  struct : String := ""
  slots : List AccountSlot := []
  deriving Repr, Inhabited

/-- An error with its code. -/
structure ErrorCode where
  name : String := ""
  code : Int := 0
  docs : List String := []
  deriving DecidableEq, Repr, Inhabited

/-- The message of an error: the first line of its documentation. -/
def ErrorCode.message (error : ErrorCode) : String :=
  error.docs.head?.getD ""

/-- A program. -/
structure Program where
  name : String := ""
  address : Option String := none
  discriminators : List Discriminator := []
  accounts : List TaggedLayout := []
  instructions : List Instruction := []
  events : List TaggedLayout := []
  errors : List ErrorCode := []
  pdas : List Pda := []
  deriving Repr, Inhabited

end ProgramIdl
