/-!
# Layouts

How the values of a type lie in memory: little-endian integers, truth values, arrays of bytes,
addresses, and structs, whose fields lie one behind the other.  Every layout has a width in bytes.
-/

set_option autoImplicit false

namespace ProgramIdl

/-- A field with its type, and the type as it is written. -/
structure Member (τ : Type) where
  name : String := ""
  token : String := ""
  type : τ
  docs : List String := []
  deriving DecidableEq, Repr

/-- How a value lies in memory. -/
inductive Layout where
  | integer (width : Int) (signed : Bool)
  | boolean (width : Int)
  | array (width length : Int)
  | address (width : Int)
  | record (width : Int) (name : String) (fields : List (Member Layout))
  deriving Repr, Inhabited

namespace Layout

/-- The width in bytes. -/
def width : Layout → Int
  | integer width _ | boolean width | array width _ | address width | record width _ _ => width

/-- The layout of an address. -/
def plainAddress : Layout :=
  address 32

/-- The layout of an array of bytes. -/
def bytes (length : Int) : Layout :=
  array length length

/-- The layout of a struct with given fields. -/
def ofFields (name : String) (fields : List (Member Layout)) : Layout :=
  record (fields.foldr (fun field total => field.type.width + total) 0) name fields

/-- The layouts of the integer types, by name. -/
def integers : List (String × Layout) :=
  [("u8", integer 1 false), ("i8", integer 1 true),
    ("u16", integer 2 false), ("i16", integer 2 true),
    ("u32", integer 4 false), ("i32", integer 4 true),
    ("u64", integer 8 false), ("i64", integer 8 true),
    ("PodU16", integer 2 false), ("PodI16", integer 2 true),
    ("PodU32", integer 4 false), ("PodI32", integer 4 true),
    ("PodU64", integer 8 false), ("PodI64", integer 8 true)]

/-- The layouts of the types that are known by name. -/
def builtin? (name : String) : Option Layout :=
  match integers.lookup name with
  | some layout => some layout
  | none =>
      if name ∈ ["bool", "PodBool"] then some (boolean 1)
      else if name ∈ ["Address", "Pubkey"] then some plainAddress
      else none

end Layout

end ProgramIdl
