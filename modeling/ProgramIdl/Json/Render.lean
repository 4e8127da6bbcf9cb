import ProgramIdl.Json.Value
import ProgramIdl.Text.Display

/-!
# Writing JSON

A value is written on one line without any blanks, or with every item on a line of its own, indented
by two spaces a level.  Only quotes, backslashes and control characters are escaped.  Numbers of
more digits than a limit are not written.
-/

set_option autoImplicit false

namespace ProgramIdl.Json

open ProgramIdl.Text

/-- How values are laid out. -/
inductive Style where
  | compact
  | pretty
  deriving DecidableEq, Repr

/-- A character as it stands between quotes. -/
def escapedChar (c : Char) : List Char :=
  if c = '"' then ['\\', '"']
  else if c = '\\' then ['\\', '\\']
  else if c = '\n' then ['\\', 'n']
  else if c = '\x0d' then ['\\', 'r']
  else if c = '\t' then ['\\', 't']
  else if c = '\x08' then ['\\', 'b']
  else if c = '\x0c' then ['\\', 'f']
  else if c.toNat < 0x20 then '\\' :: 'u' :: hexDigits 4 c.toNat
  else [c]

/-- A text between quotes. -/
def quotedText (text : String) : List Char :=
  '"' :: text.toList.flatMap escapedChar ++ ['"']

/-- The digits of a whole number, with its sign. -/
def integerText (value : Int) : List Char :=
  if value < 0 then '-' :: Nat.toDigits 10 value.natAbs else Nat.toDigits 10 value.natAbs

/-- The break in front of an item at a level. -/
def lineBreak (style : Style) (level : Nat) : List Char :=
  match style with
  | .compact => []
  | .pretty => '\n' :: List.replicate (2 * level) ' '

/-- What separates the name of a field from its value. -/
def colon : Style → List Char
  | .compact => [':']
  | .pretty => [':', ' ']

/-- Items between brackets, given as their texts; no items leave nothing between the brackets. -/
def bracketed (style : Style) (level : Nat) (opening closing : Char) (items : List (List Char)) :
    List Char :=
  match items with
  | [] => [opening, closing]
  | items =>
      let separator := ',' :: lineBreak style (level + 1)
      opening :: lineBreak style (level + 1) ++ separator.intercalate items
        ++ lineBreak style level ++ [closing]

mutual

/-- The text of a value at a level; there is none if a number in it has too many digits. -/
def renderAt (style : Style) (level : Nat) : Value → Option (List Char)
  | .null => some "null".toList
  | .boolean value => some (if value then "true".toList else "false".toList)
  | .integer value => if exceedsLimit value then none else some (integerText value)
  | .number text => some text.toList
  | .text value => some (quotedText value)
  | .array items => (renderItems style (level + 1) items).map (bracketed style level '[' ']')
  | .object fields =>
      (renderFields style (level + 1) fields).map (bracketed style level '\x7b' '\x7d')

/-- The texts of the items of an array. -/
def renderItems (style : Style) (level : Nat) : List Value → Option (List (List Char))
  | [] => some []
  | item :: rest => do return (← renderAt style level item) :: (← renderItems style level rest)

/-- The text of a field of an object. -/
def renderField (style : Style) (level : Nat) : String × Value → Option (List Char)
  | (name, value) => do return quotedText name ++ colon style ++ (← renderAt style level value)

/-- The texts of the fields of an object. -/
def renderFields (style : Style) (level : Nat) : List (String × Value) → Option (List (List Char))
  | [] => some []
  | field :: rest => do
      return (← renderField style level field) :: (← renderFields style level rest)

end

/-- The text of a value, if no number in it has too many digits. -/
def render? (style : Style) (value : Value) : Option String :=
  (renderAt style 0 value).map .ofList

end ProgramIdl.Json
