import ProgramIdl.Failure
import ProgramIdl.Text.Trim

/-!
# Addresses

An address is written in base fifty-eight: the digits leave out what looks alike, each leading `1`
is a zero byte, and the other digits are one big-endian number.  A program's address has
thirty-two bytes.
-/

set_option autoImplicit false

namespace ProgramIdl.Address

open ProgramIdl.Text

/-- The digits of base fifty-eight, in order. -/
def alphabet : List Char :=
  "123456789ABCDEFGHJKLMNPQRSTUVWXYZabcdefghijkmnopqrstuvwxyz".toList

/-- The value of a digit. -/
def digit? (c : Char) : Option Nat :=
  alphabet.idxOf? c

/-- Why a text is no address. -/
inductive Fault where
  | empty
  /-- A run of characters outside ASCII, and where it starts. -/
  | notAscii (position : Nat) (run : List Char)
  | badDigit (c : Char)
  | badLength (bytes : Nat)
  deriving DecidableEq, Repr

/-- The number of bytes of an address. -/
def size : Nat := 32

/-- Why a text is no address, in words. -/
def Fault.message : Fault → String
  | .empty => "declare_id! has no address literal"
  | .notAscii position run =>
      let place :=
        match run with
        | [c] => s!"character '{String.ofList (codeEscape c)}' in position {position}"
        | run => s!"characters in position {position}-{position + run.length - 1}"
      s!"'ascii' codec can't encode {place}: ordinal not in range(128)"
  | .badDigit c => s!"Invalid character {quoted (String.singleton c)}"
  | .badLength bytes => s!"decodes to {bytes} bytes, expected {size}"

/-- Whether a character is ASCII. -/
def isAscii (c : Char) : Bool :=
  c.toNat < 0x80

/-- Checks that a text is ASCII. -/
def checkAscii (text : List Char) : Except Fault Unit :=
  match text.dropWhile isAscii with
  | [] => .ok ()
  | rest =>
      .error (.notAscii (text.length - rest.length) (rest.takeWhile fun c => !isAscii c))

/-- The number that some digits write, given the one before them. -/
def number (value : Nat) : List Char → Except Fault Nat
  | [] => .ok value
  | c :: rest =>
      match digit? c with
      | some digit => number (value * 58 + digit) rest
      | none => .error (.badDigit c)

/-- The bytes of a number, least significant first, on at most `count` bytes. -/
def littleEndian : Nat → Nat → List UInt8
  | 0, _ => []
  | count + 1, value =>
      if value = 0 then [] else UInt8.ofNat (value % 256) :: littleEndian count (value / 256)

/-- The bytes of a number, most significant first, without leading zeros. -/
def bigEndian (value : Nat) : List UInt8 :=
  (littleEndian (value.log2 / 8 + 1) value).reverse

/-- The bytes that a text writes in base fifty-eight; blanks behind it do not count. -/
def decode (text : String) : Except Fault (List UInt8) := do
  let digits := trimEnd text.toList
  checkAscii digits
  let zeros := digits.takeWhile (· = '1')
  let value ← number 0 (digits.drop zeros.length)
  return List.replicate zeros.length 0 ++ bigEndian value

/-- The bytes of the address that a text writes. -/
def parse (text : String) : Except Fault (List UInt8) := do
  if text = "" then throw .empty
  let bytes ← decode text
  if bytes.length ≠ size then throw (.badLength bytes.length)
  return bytes

/-- Checks that a text writes an address. -/
def validate (text : String) : Except Failure Unit :=
  match parse text with
  | .ok _ => .ok ()
  | .error fault => .error (.invalidAddress text fault.message)

end ProgramIdl.Address
