/-!
# TOML numbers and times

The readers of numbers, dates and times in TOML.  Their values are of no account here: a reader
yields what follows the number or the time.
-/

set_option autoImplicit false

namespace ProgramIdl.Toml

/-- What follows a number or a time, if a text starts with one. -/
abbrev Skip := List Char → Option (List Char)

/-- What follows the rest of some digits; single underscores may stand between them. -/
def moreDigits (isDigit : Char → Bool) : List Char → List Char
  | '_' :: c :: rest => if isDigit c then moreDigits isDigit rest else '_' :: c :: rest
  | [] => []
  | c :: rest => if isDigit c then moreDigits isDigit rest else c :: rest

/-- What follows at least one digit. -/
def skipDigits (isDigit : Char → Bool) : Skip
  | c :: rest => if isDigit c then some (moreDigits isDigit rest) else none
  | [] => none

/-- Whether a character is a binary digit. -/
def isBinaryDigit (c : Char) : Bool :=
  c = '0' || c = '1'

/-- Whether a character is an octal digit. -/
def isOctalDigit (c : Char) : Bool :=
  '0' ≤ c && c ≤ '7'

/-- Whether a character is a hexadecimal digit. -/
def isHexDigit (c : Char) : Bool :=
  c.isDigit || ('a' ≤ c && c ≤ 'f') || ('A' ≤ c && c ≤ 'F')

/-- What follows a number in another base than ten. -/
def skipBased : Skip
  | '0' :: 'x' :: rest => skipDigits isHexDigit rest
  | '0' :: 'o' :: rest => skipDigits isOctalDigit rest
  | '0' :: 'b' :: rest => skipDigits isBinaryDigit rest
  | _ => none

/-- A text without the sign at its start. -/
def dropSign : List Char → List Char
  | '+' :: rest => rest
  | '-' :: rest => rest
  | text => text

/-- What follows the whole part of a decimal number. -/
def skipWhole : Skip
  | '0' :: rest => some rest
  | text => skipDigits Char.isDigit text

/-- What follows a fraction; nothing is skipped if there is none. -/
def skipFraction : List Char → List Char
  | '.' :: rest => (skipDigits Char.isDigit rest).getD ('.' :: rest)
  | text => text

/-- What follows an exponent; nothing is skipped if there is none. -/
def skipExponent : List Char → List Char
  | [] => []
  | c :: rest =>
      if c = 'e' || c = 'E' then (skipDigits Char.isDigit (dropSign rest)).getD (c :: rest)
      else c :: rest

/-- What follows a number that is finite. -/
def skipNumber : Skip := fun text =>
  match skipBased text with
  | some rest => some rest
  | none => (skipWhole (dropSign text)).map fun rest => skipExponent (skipFraction rest)

/-- What follows a number that is not finite. -/
def skipSpecial : Skip := fun text =>
  let text := dropSign text
  match "inf".toList.isPrefixOf? text with
  | some rest => some rest
  | none => "nan".toList.isPrefixOf? text

/-! ## Times -/

/-- The number that a count of decimal digits write, and what follows them. -/
def fixedDigits? (value : Nat) : Nat → List Char → Option (Nat × List Char)
  | 0, text => some (value, text)
  | count + 1, c :: rest =>
      if c.isDigit then fixedDigits? (value * 10 + (c.toNat - '0'.toNat)) count rest else none
  | _ + 1, [] => none

/-- The number of two digits, if it lies in a range, and what follows it. -/
def twoDigits? (low high : Nat) (text : List Char) : Option (Nat × List Char) :=
  match fixedDigits? 0 2 text with
  | some (value, rest) => if low ≤ value ∧ value ≤ high then some (value, rest) else none
  | none => none

/-- What follows a character that a text starts with. -/
def skipChar (c : Char) : Skip
  | d :: rest => if d = c then some rest else none
  | [] => none

/-- What follows the fraction of a second; nothing is skipped if there is none. -/
def skipSubsecond : List Char → List Char
  | '.' :: c :: rest => if c.isDigit then rest.dropWhile Char.isDigit else '.' :: c :: rest
  | text => text

/-- What follows a time of day. -/
def skipTime : Skip := fun text => do
  let (_, rest) ← twoDigits? 0 23 text
  let (_, rest) ← twoDigits? 0 59 (← skipChar ':' rest)
  let (_, rest) ← twoDigits? 0 59 (← skipChar ':' rest)
  return skipSubsecond rest

/-- What follows an offset with a sign. -/
def skipSignedOffset : Skip := fun text => do
  let (_, rest) ← twoDigits? 0 23 text
  let (_, rest) ← twoDigits? 0 59 (← skipChar ':' rest)
  return rest

/-- What follows the offset of a time; nothing is skipped if there is none. -/
def skipOffset : List Char → List Char
  | [] => []
  | c :: rest =>
      if c = 'Z' || c = 'z' then rest
      else if c = '+' || c = '-' then (skipSignedOffset rest).getD (c :: rest)
      else c :: rest

/-- What follows the time behind a date; nothing is skipped if there is none. -/
def skipTimeOfDate : List Char → List Char
  | [] => []
  | c :: rest =>
      if c = 'T' || c = 't' || c = ' ' then ((skipTime rest).map skipOffset).getD (c :: rest)
      else c :: rest

/-- The days of a month. -/
def daysIn (year month : Nat) : Nat :=
  if month = 2 then
    if year % 4 = 0 ∧ (year % 100 ≠ 0 ∨ year % 400 = 0) then 29 else 28
  else if month ∈ [4, 6, 9, 11] then 30
  else 31

/-- A date at the start of a text, given as whether it exists, and what follows it with its time. -/
def date? (text : List Char) : Option (Bool × List Char) := do
  let (year, rest) ← fixedDigits? 0 4 text
  let (month, rest) ← twoDigits? 1 12 (← skipChar '-' rest)
  let (day, rest) ← twoDigits? 1 31 (← skipChar '-' rest)
  return (0 < year && decide (day ≤ daysIn year month), skipTimeOfDate rest)

/-- What follows a number or a time; a date that does not exist is neither. -/
def skipScalar : Skip := fun text =>
  match date? text with
  | some (isReal, rest) => if isReal then some rest else none
  | none =>
      match skipTime text with
      | some rest => some rest
      | none =>
          match skipNumber text with
          | some rest => some rest
          | none => skipSpecial text

end ProgramIdl.Toml
