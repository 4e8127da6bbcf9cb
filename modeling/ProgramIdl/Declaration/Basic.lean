import ProgramIdl.Literal.Integer

/-!
# Declarations

What the files of a program declare, before anything is looked up across files: enums of
discriminators and of errors, the structs laid out behind them, the program's address, constants,
seeds of derived addresses, and the lists of accounts that instructions take.  Types and values are
kept as compact text.
-/

set_option autoImplicit false

namespace ProgramIdl

/-- A place in a source file. -/
structure Site where
  path : String
  line : Nat
  deriving DecidableEq, Repr, Inhabited

/-- The text of a place. -/
def Site.toString (site : Site) : String :=
  s!"{site.path}:{site.line}"

instance : ToString Site := ⟨Site.toString⟩

/-- A named field with the text of its type. -/
structure Field where
  name : String := ""
  type : String := ""
  docs : List String := []
  deriving DecidableEq, Repr, Inhabited

/-- A variant of an enum with its value, and the value written behind it, if it has one. -/
structure Variant where
  name : String := ""
  explicit : Option Int := none
  value : Int := 0
  docs : List String := []
  deriving DecidableEq, Repr, Inhabited

/-- The values of variants: each has the value written behind it, or the one after the variant
before it; the first one starts at `next`. -/
def variantValuesFrom (next : Int) : List (Option Int) → List Int
  | [] => []
  | explicit :: rest =>
      let value := explicit.getD next
      value :: variantValuesFrom (value + 1) rest

/-- The values of variants; without a value written behind it the first one has zero. -/
def variantValues (explicit : List (Option Int)) : List Int :=
  variantValuesFrom 0 explicit

/-- Variants with the values that follow from those written. -/
def Variant.number (variants : List Variant) : List Variant :=
  (variants.zip (variantValues (variants.map (·.explicit)))).map fun (variant, value) =>
    { variant with value := value }

/-- What a discriminated struct is. -/
inductive Tag where
  | account
  | instruction
  | event
  deriving DecidableEq, Repr

/-- The word for a tag, which is also the name of its attribute. -/
def Tag.word : Tag → String
  | .account => "account"
  | .instruction => "instruction"
  | .event => "event"

/-- An enum whose values tell structs apart. -/
structure DiscriminatorEnum where
  /-- The integer type given to its attribute. -/
  primitive : Option String := none
  /-- The arguments of its first `repr` attribute. -/
  repr : Option String := none
  isFinal : Bool := false
  variants : List Variant := []
  deriving DecidableEq, Repr, Inhabited

/-- A struct that starts with a discriminator: its tag names the enum and the variant. -/
structure TaggedStruct where
  enum : Option String := none
  variant : Option String := none
  fields : List Field := []
  deriving DecidableEq, Repr, Inhabited

/-- An enum of error codes. -/
structure ErrorEnum where
  isFinal : Bool := false
  variants : List Variant := []
  deriving DecidableEq, Repr, Inhabited

/-- The address of a program. -/
structure ProgramId where
  /-- The address; empty if none is written. -/
  address : String := ""
  /-- How many modules of the file stand around it. -/
  depth : Nat := 0
  deriving DecidableEq, Repr, Inhabited

/-- A constant. -/
structure Constant where
  type : String := ""
  value : String := ""
  deriving DecidableEq, Repr, Inhabited

/-- A macro that yields an array of seeds, by the rule of it that takes the fewest parameters. -/
structure SeedMacro where
  params : List String := []
  seeds : List String := []
  deriving DecidableEq, Repr, Inhabited

/-- A call of a macro that yields seeds. -/
structure SeedCall where
  arguments : List String := []
  deriving DecidableEq, Repr, Inhabited

/-- A call that derives an address from an array of seeds. -/
structure PdaCall where
  seeds : List String := []
  deriving DecidableEq, Repr, Inhabited

/-- A struct with named fields and without a tag. -/
structure PlainStruct where
  fields : List Field := []
  deriving DecidableEq, Repr, Inhabited

/-- A struct whose fields are the accounts that an instruction takes. -/
structure AccountsStruct where
  fields : List Field := []
  deriving DecidableEq, Repr, Inhabited

/-- A check made on an account. -/
structure Assertion where
  /-- The field that holds the account. -/
  field : String
  method : String
  arguments : List String := []
  deriving DecidableEq, Repr, Inhabited

/-- The checks made on the accounts of an instruction. -/
structure Processor where
  assertions : List Assertion := []
  deriving DecidableEq, Repr, Inhabited

/-- The choice of the accounts of an instruction by its discriminator. -/
structure Dispatch where
  enum : String
  variant : String
  accounts : String
  deriving DecidableEq, Repr, Inhabited

/-- Something declared: its name, its place, its documentation, and what it is. -/
structure Declared (α : Type) where
  name : String
  site : Site
  docs : List String := []
  content : α
  deriving DecidableEq, Repr

/-- A declaration. -/
inductive Declaration where
  | discriminator (declared : Declared DiscriminatorEnum)
  | tagged (tag : Tag) (declared : Declared TaggedStruct)
  | error (declared : Declared ErrorEnum)
  | programId (declared : Declared ProgramId)
  | constant (declared : Declared Constant)
  | seedMacro (declared : Declared SeedMacro)
  | seedCall (declared : Declared SeedCall)
  | pdaCall (declared : Declared PdaCall)
  | record (declared : Declared PlainStruct)
  | accounts (declared : Declared AccountsStruct)
  | processor (declared : Declared Processor)
  | dispatch (declared : Declared Dispatch)
  deriving DecidableEq, Repr

namespace Declaration

/-- The word for a kind of declaration. -/
def kind : Declaration → String
  | .discriminator _ => "discriminator"
  | .tagged tag _ => tag.word
  | .error _ => "error"
  | .programId _ => "program_id"
  | .constant _ => "constant"
  | .seedMacro _ => "seed_macro"
  | .seedCall _ => "seed_invocation"
  | .pdaCall _ => "pda_call"
  | .record _ => "struct"
  | .accounts _ => "accounts_struct"
  | .processor _ => "processor"
  | .dispatch _ => "dispatch"

end Declaration

end ProgramIdl
