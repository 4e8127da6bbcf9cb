import ProgramIdl.Text.Printable

/-!
# Quoted texts in messages

Messages show paths and characters between quotes: single quotes, or double ones when the text holds
a single quote and no double one.  Characters that do not print are shown by their code.
-/

set_option autoImplicit false

namespace ProgramIdl.Text

/-- A number in base sixteen with small letters, on at least `width` digits. -/
def hexDigits (width value : Nat) : List Char :=
  let digits := Nat.toDigits 16 value
  List.replicate (width - digits.length) '0' ++ digits

/-- A character by its code, in the shortest of the three forms that can hold it. -/
def codeEscape (c : Char) : List Char :=
  if c.toNat ≤ 0xFF then '\\' :: 'x' :: hexDigits 2 c.toNat
  else if c.toNat ≤ 0xFFFF then '\\' :: 'u' :: hexDigits 4 c.toNat
  else '\\' :: 'U' :: hexDigits 8 c.toNat

/-- A character as it stands between quotes of a kind. -/
def quotedChar (quote c : Char) : List Char :=
  if c = quote || c = '\\' then ['\\', c]
  else if c = '\t' then ['\\', 't']
  else if c = '\n' then ['\\', 'n']
  else if c = '\x0d' then ['\\', 'r']
  else if isPrintable c then [c]
  else codeEscape c

/-- A text between quotes. -/
def quoted (text : String) : String :=
  let quote := if text.contains '\'' && !text.contains '"' then '"' else '\''
  .ofList (quote :: text.toList.flatMap (quotedChar quote) ++ [quote])

end ProgramIdl.Text
