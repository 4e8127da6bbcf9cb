import ProgramIdl.Declaration.Basic
import ProgramIdl.Failure
import ProgramIdl.LittleEndian
import ProgramIdl.Text.QualifiedName

/-!
# Discriminators

A discriminator is a number in front of a struct that tells which struct it is.  The numbers come
from the variants of an enum, which fixes how many bytes they take; no two variants share a number.
-/

set_option autoImplicit false

namespace ProgramIdl

open ProgramIdl.Text

/-- An enum of discriminators: the bytes that each takes, and the variants with their numbers. -/
structure Discriminator where
  name : String := ""
  width : Nat := 1
  values : List (String × Int) := []
  isFinal : Bool := false
  docs : List String := []
  deriving DecidableEq, Repr, Inhabited

namespace Discriminator

/-- The bytes that an integer type takes, for those that discriminators may have. -/
def primitiveWidth? (type : String) : Option Nat :=
  [("u8", 1), ("u16", 2), ("u32", 4), ("u64", 8)].lookup type

/-- The bytes that the discriminators of an enum take: those of the type given to its attribute, or
of the first integer type among its representations, or one. -/
def declaredWidth (declared : Declared DiscriminatorEnum) : Except Failure Nat :=
  match declared.content.primitive with
  | some type =>
      match primitiveWidth? type with
      | some width => .ok width
      | none => .error (.unsupportedType declared.name type (some declared.site.toString))
  | none =>
      .ok (((splitTopLevel (declared.content.repr.getD "")).findSome? primitiveWidth?).getD 1)

/-- Checks that numbers fit a width and differ from each other; `seen` holds those before, the
latest first. -/
def checkValues (enum : String) (width : Nat) (seen : List (Int × String)) :
    List (String × Int) → Except Failure Unit
  | [] => .ok ()
  | (variant, value) :: rest =>
      match seen.lookup value with
      | some earlier => .error (.duplicateValue enum value earlier variant)
      | none =>
          if LittleEndian.limit width ≤ value then .error (.outOfRange enum variant value width)
          else checkValues enum width ((value, variant) :: seen) rest

/-- The discriminators that an enum declares. -/
def ofDeclared (declared : Declared DiscriminatorEnum) : Except Failure Discriminator := do
  let width ← declaredWidth declared
  let values := declared.content.variants.map fun variant => (variant.name, variant.value)
  checkValues declared.name width [] values
  return ⟨declared.name, width, values, declared.content.isFinal, declared.docs⟩

/-- The discriminators that some enums declare; `seen` holds the names of those before. -/
def allFrom (seen : List String) :
    List (Declared DiscriminatorEnum) → Except Failure (List Discriminator)
  | [] => .ok []
  | declared :: rest => do
      if declared.name ∈ seen then throw (.duplicateName "discriminator" declared.name)
      let discriminator ← ofDeclared declared
      let others ← allFrom (declared.name :: seen) rest
      return discriminator :: others

/-- The discriminators that some enums declare. -/
def all (declared : List (Declared DiscriminatorEnum)) : Except Failure (List Discriminator) :=
  allFrom [] declared

/-- The number of a variant. -/
def valueOf? (discriminator : Discriminator) (variant : String) : Option Int :=
  discriminator.values.lookup variant

/-- The enum that the last segment of a path names. -/
def find? (discriminators : List Discriminator) (path : String) : Option Discriminator :=
  discriminators.find? fun discriminator => discriminator.name = lastSegment path

/-- What a tagged struct selects: a variant of an enum, with its number. -/
structure Selection where
  enum : Discriminator
  variant : String
  value : Int
  deriving DecidableEq, Repr

/-- What a tagged struct selects, given the variant it is to select. -/
def select (discriminators : List Discriminator) (declared : Declared TaggedStruct)
    (variant : String) : Except Failure Selection :=
  let unresolved (name : String) : Except Failure Selection :=
    .error (.unresolvedDiscriminator name declared.name (some declared.site.toString))
  match declared.content.enum.getD "" with
  | "" => unresolved "<missing discriminator>"
  | path =>
      match find? discriminators path with
      | none => unresolved path
      | some enum =>
          if variant = "" then unresolved (enum.name ++ "::<missing variant>")
          else
            match enum.valueOf? variant with
            | some value => .ok ⟨enum, variant, value⟩
            | none => unresolved (enum.name ++ "::" ++ variant)

/-- The variant that a tagged struct names itself, by the last segment of its path; empty if it
names none. -/
def namedVariant (declared : Declared TaggedStruct) : String :=
  lastSegment (declared.content.variant.getD "")

end Discriminator

end ProgramIdl
