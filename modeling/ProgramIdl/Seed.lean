import ProgramIdl.Layout.Basic
import ProgramIdl.Literal.Quoted
import ProgramIdl.Notice
import ProgramIdl.Text.Lowercase
import ProgramIdl.Text.QualifiedName

/-!
# Seeds

The seeds that an address is derived from are literal bytes, accounts of the instruction, or
arguments of it.  Seeds are recognized by the shape of their expressions; an expression of any
other shape is kept as it is, with a warning.
-/

set_option autoImplicit false

namespace ProgramIdl

open ProgramIdl.Text

/-- A seed. -/
inductive Seed where
  | literal (bytes : List UInt8)
  | account (name : String) (type : Option Layout)
  | argument (name : String) (type : Option Layout)
  /-- An expression of no known shape. -/
  | unrecognized (expression : String)
  deriving Repr, Inhabited

/-- What seeds may refer to. -/
structure SeedTable where
  /-- The texts of constants, by name; the first entry of a name holds. -/
  constants : List (String × String) := []
  /-- The arguments of instructions, by the name of their struct; the first entry holds. -/
  instructions : List (String × List (Member Layout)) := []
  deriving Repr, Inhabited

namespace Seed

/-- The conversions that do not change what a seed refers to. -/
def conversions : List (List Char) :=
  [".as_ref()", ".as_slice()", ".as_bytes()", ".address()", ".key()", ".to_le_bytes()",
    ".to_bytes()"].map String.toList

/-- A text without the conversions at its end, of which there are at most `limit`. -/
def dropConversions : Nat → List Char → List Char
  | 0, text => text
  | limit + 1, text =>
      match conversions.findSome? fun conversion => conversion.isSuffixOf? text with
      | some rest => dropConversions limit rest
      | none => text

/-- What an expression refers to, without references to it and conversions of it. -/
def subject (expression : List Char) : List Char :=
  let text := dereference expression
  dropConversions text.length text

/-- What stands behind `name` in a text that starts with it, up to the end of the name. -/
def afterWord? (text : List Char) : Option (String × List Char) :=
  let word := text.takeWhile isWordChar
  if word.isEmpty then none else some (.ofList word, text.dropWhile isWordChar)

/-- The name that fills a text, save perhaps a line break at its end. -/
def onlyWord? (text : List Char) : Option String := do
  let (word, rest) ← afterWord? text
  if isFinished rest then some word else none

/-- The macro parameter that a text is. -/
def param? : List Char → Option String
  | '$' :: rest => onlyWord? rest
  | _ => none

/-- The field of `self` that a text is. -/
def selfField? (text : List Char) : Option String :=
  ("self.".toList.isPrefixOf? text).bind onlyWord?

/-- The field that is read off a call: a question mark may stand before it, and `.0` behind it. -/
def readField? (text : List Char) : Option String :=
  match if text.head? = some '?' then text.drop 1 else text with
  | '.' :: rest => do
      let (field, rest) ← afterWord? rest
      let rest := (['.', '0'].isPrefixOf? rest).getD rest
      if isFinished rest then some field else none
  | _ => none

/-- The struct and its field that a text reads from the bytes of an instruction. -/
def instructionField? (text : List Char) : Option (String × String) := do
  let (struct, rest) ← afterWord? text
  let inner ← "::try_from_bytes(".toList.isPrefixOf? (dropTypeArguments rest)
  let (behind, arguments) ← cutAt ')' inner.reverse
  if '\n' ∈ arguments then none
  else
    let field ← readField? behind.reverse
    some (struct, field)

end Seed

namespace SeedTable

/-- The name and the bytes of the constant that an expression refers to. -/
def byteConstant? (table : SeedTable) (expression : String) :
    Option (String × List UInt8) := do
  let name ← qualifiedName? (Seed.subject expression.toList)
  let value ← table.constants.lookup (.ofList name)
  let bytes ← Literal.byteString? value
  some (.ofList name, bytes)

/-- The layout of an argument of an instruction. -/
def argument? (table : SeedTable) (struct field : String) : Option Layout := do
  let members ← table.instructions.lookup struct
  let member ← members.find? fun member => member.name = field
  some member.type

/-- The seed that an expression without macro parameters is. -/
def plainSeed? (table : SeedTable) (subject : List Char) : Option Seed :=
  match Seed.selfField? subject with
  | some field => some (.account field (some .plainAddress))
  | none =>
      (Seed.instructionField? subject).map fun (struct, field) =>
        .argument field (table.argument? struct field)

/-- The literal seed that an expression is. -/
def literal? (table : SeedTable) (expression : String) : Option Seed :=
  match Literal.byteString? expression with
  | some bytes => some (.literal bytes)
  | none => (table.byteConstant? expression).map fun (_, bytes) => .literal bytes

/-- The seed for an expression of no known shape. -/
def unrecognized (expression : String) : Reporting Seed := do
  report (.unknownSeed expression)
  return .unrecognized expression

/-- The seed that an expression is; a macro parameter in it is an account of that name. -/
def classifyUnbound (table : SeedTable) (expression : String) : Reporting Seed :=
  match table.literal? expression with
  | some seed => return seed
  | none =>
      let subject := Seed.subject expression.toList
      match Seed.param? subject with
      | some param => return .account param (some .plainAddress)
      | none =>
          match table.plainSeed? subject with
          | some seed => return seed
          | none => unrecognized expression

/-- The seed that an expression is, given what macro parameters are bound to. -/
def classify (table : SeedTable) (bound : String → Option String) (expression : String) :
    Reporting Seed :=
  match table.literal? expression with
  | some seed => return seed
  | none =>
      match (Seed.param? (Seed.subject expression.toList)).bind bound with
      | some argument => table.classifyUnbound argument
      | none => table.classifyUnbound expression

end SeedTable

end ProgramIdl
