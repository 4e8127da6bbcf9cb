import Mathlib.Algebra.Order.Ring.Int
import ProgramIdl.LittleEndian

/-!
# Little-endian numbers and their bytes

Reading back the bytes of a number gives the number (`decode_encode`), so that numbers that fit a
count of bytes differ if and only if their bytes do.
-/

set_option autoImplicit false

namespace ProgramIdl.LittleEndian

/-- The number that some bytes stand for, the least significant byte first. -/
def decode : List UInt8 → Nat
  | [] => 0
  | byte :: rest => byte.toNat + 256 * decode rest

theorem limit_eq_two_pow (width : Nat) : limit width = 2 ^ (8 * width) := by
  induction width with
  | zero => rfl
  | succ width inductionHypothesis =>
      rw [limit, inductionHypothesis, Nat.mul_succ, Nat.pow_add]
      omega

theorem length_encode (width value : Nat) : (encode width value).length = width := by
  induction width generalizing value with
  | zero => rfl
  | succ width inductionHypothesis => rw [encode, List.length_cons, inductionHypothesis]

/-- A number that fits is read back from its bytes. -/
theorem decode_encode {width value : Nat} (fits : value < limit width) :
    decode (encode width value) = value := by
  induction width generalizing value with
  | zero =>
      rw [limit] at fits
      rw [encode, decode]
      omega
  | succ width inductionHypothesis =>
      rw [limit] at fits
      have rest : value / 256 < limit width := by omega
      rw [encode, decode, inductionHypothesis rest, UInt8.toNat_ofNat']
      omega

theorem encode?_eq_some_iff {width : Nat} {value : Int} {bytes : List UInt8} :
    encode? width value = some bytes ↔
      0 ≤ value ∧ value < limit width ∧ encode width value.toNat = bytes := by
  rw [encode?]
  split
  · rename_i fits
    have bound : value < limit width := by omega
    simp [fits.1, bound]
  · rename_i fits
    constructor
    · rintro ⟨⟩
    · rintro ⟨natural, bound, _⟩
      exact absurd ⟨natural, by omega⟩ fits

end ProgramIdl.LittleEndian
