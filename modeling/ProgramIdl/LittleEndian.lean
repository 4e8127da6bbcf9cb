/-!
# Little-endian numbers

Numbers on a fixed count of bytes, the least significant byte first.
-/

set_option autoImplicit false

namespace ProgramIdl.LittleEndian

/-- The first number that does not fit a given count of bytes. -/
def limit : Nat → Nat
  | 0 => 1
  | width + 1 => 256 * limit width

/-- The bytes of a number, least significant first, on a given count of bytes. -/
def encode : Nat → Nat → List UInt8
  | 0, _ => []
  | width + 1, value => UInt8.ofNat (value % 256) :: encode width (value / 256)

/-- The bytes of an integer, if it fits a given count of them and is not negative. -/
def encode? (width : Nat) (value : Int) : Option (List UInt8) :=
  if 0 ≤ value ∧ value.toNat < limit width then some (encode width value.toNat) else none

end ProgramIdl.LittleEndian
