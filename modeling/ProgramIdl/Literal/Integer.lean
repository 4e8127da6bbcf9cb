import ProgramIdl.Text.DecimalDigit
import ProgramIdl.Text.Trim

/-!
# Integer literals

An integer literal is a decimal, hexadecimal, octal or binary number, with underscores anywhere and
perhaps the name of an integer type behind it.  The reader is more lenient than the language: behind
the base mark it takes blanks, a sign, a second base mark and digits of any script.  Decimal
literals of more than `maxDecimalDigits` digits are not read.
-/

set_option autoImplicit false

namespace ProgramIdl.Literal

open ProgramIdl.Text

/-- The bases of integer literals. -/
inductive Base where
  | binary
  | octal
  | decimal
  | hexadecimal
  deriving DecidableEq, Repr

/-- The number of digits of a base. -/
def Base.radix : Base → Nat
  | .binary => 2
  | .octal => 8
  | .decimal => 10
  | .hexadecimal => 16

/-- The small letter that marks a base behind a zero. -/
def Base.letter? : Base → Option Char
  | .binary => some 'b'
  | .octal => some 'o'
  | .decimal => none
  | .hexadecimal => some 'x'

/-- The value of a digit: a decimal digit of any script, or a letter from `a`. -/
def digit? (c : Char) : Option Nat :=
  if 'a' ≤ c ∧ c ≤ 'z' then some (c.toNat - 'a'.toNat + 10)
  else if 'A' ≤ c ∧ c ≤ 'Z' then some (c.toNat - 'A'.toNat + 10)
  else decimalDigit? c

/-- The value of some digits in a base, most significant first, given what stands before them. -/
def digitsValue? (radix : Nat) (value : Nat) : List Char → Option Nat
  | [] => some value
  | c :: rest =>
      match digit? c with
      | some digit =>
          if digit < radix then digitsValue? radix (value * radix + digit) rest else none
      | none => none

/-- Decimal numbers of more digits are not read. -/
def maxDecimalDigits : Nat := 4300

/-- The value of at least one digit in a base. -/
def natural? (base : Base) (digits : List Char) : Option Nat :=
  if digits.isEmpty then none
  else if base = .decimal ∧ digits.length > maxDecimalDigits then none
  else digitsValue? base.radix 0 digits

/-- The text behind the base mark, if it has one. -/
def dropBaseMark (base : Base) (text : List Char) : List Char :=
  match text, base.letter? with
  | '0' :: mark :: rest, some letter => if mark.toLower = letter then rest else text
  | _, _ => text

/-- The separators U+001C to U+001F are blank, but they may not stand around a number. -/
def isNumberBlank (c : Char) : Bool :=
  isBlank c && !(0x1C ≤ c.toNat && c.toNat ≤ 0x1F)

/-- A number in a base, with blanks around it, a sign and a base mark allowed. -/
def number? (base : Base) (text : List Char) : Option Int :=
  let text := ((text.dropWhile isNumberBlank).reverse.dropWhile isNumberBlank).reverse
  match text with
  | '-' :: rest => (natural? base (dropBaseMark base rest)).map fun value => -(value : Int)
  | '+' :: rest => (natural? base (dropBaseMark base rest)).map Int.ofNat
  | _ => (natural? base (dropBaseMark base text)).map Int.ofNat

/-- The names of integer types that may follow a literal. -/
def integerSuffixes : List (List Char) :=
  ["u8", "u16", "u32", "u64", "u128", "usize", "i8", "i16", "i32", "i64", "i128", "isize"].map
    String.toList

/-- The text without the type name that ends it, or that stands before its last line break. -/
def dropSuffix (text : List Char) : List Char :=
  let (body, lineBreak) :=
    match text.reverse with
    | '\n' :: reversed => (reversed.reverse, ['\n'])
    | _ => (text, [])
  let cut (subject : List Char) : Option (List Char) :=
    integerSuffixes.findSome? fun suffix => suffix.isSuffixOf? subject
  match cut text with
  | some rest => rest
  | none => ((cut body).getD body) ++ lineBreak

/-- The base that a literal's mark announces, and the text behind the mark. -/
def splitBase : List Char → Base × List Char
  | '0' :: 'x' :: rest => (.hexadecimal, rest)
  | '0' :: 'o' :: rest => (.octal, rest)
  | '0' :: 'b' :: rest => (.binary, rest)
  | text => (.decimal, text)

/-- The value of an integer literal. -/
def integerChars? (text : List Char) : Option Int :=
  let literal := ((trim text).filter (· ≠ '_')).map Char.toLower
  match literal with
  | [] => none
  | '-' :: _ => none
  | _ =>
      let (base, digits) := splitBase literal
      number? base (dropSuffix digits)

/-- The value of an integer literal. -/
def integer? (text : String) : Option Int :=
  integerChars? text.toList

end ProgramIdl.Literal
