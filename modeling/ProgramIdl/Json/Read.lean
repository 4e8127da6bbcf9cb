import ProgramIdl.Json.Value

/-!
# Reading JSON

The reader of JSON texts.  It takes `NaN`, `Infinity` and `-Infinity` for numbers, takes objects with
repeated fields, and takes escaped surrogates that stand alone, each for U+FFFD; otherwise it holds
to the standard.  It stops at the first fault: where the text is not JSON, or behind a whole number
of too many digits.
-/

set_option autoImplicit false

namespace ProgramIdl.Json

/-- Whether a character may stand between tokens. -/
def isBlank (c : Char) : Bool :=
  c = ' ' || c = '\t' || c = '\n' || c = '\x0d'

/-- A text without the blanks at its start. -/
def skipBlanks (text : List Char) : List Char :=
  text.dropWhile isBlank

/-! ## Texts -/

/-- The value of a hexadecimal digit. -/
def hexDigit? (c : Char) : Option Nat :=
  if '0' ≤ c ∧ c ≤ '9' then some (c.toNat - '0'.toNat)
  else if 'a' ≤ c ∧ c ≤ 'f' then some (c.toNat - 'a'.toNat + 10)
  else if 'A' ≤ c ∧ c ≤ 'F' then some (c.toNat - 'A'.toNat + 10)
  else none

/-- The number that four hexadecimal digits write, and what follows them. -/
def hexUnit? : List Char → Option (Nat × List Char)
  | a :: b :: c :: d :: rest => do
      let value := (((← hexDigit? a) * 16 + (← hexDigit? b)) * 16 + (← hexDigit? c)) * 16
        + (← hexDigit? d)
      some (value, rest)
  | _ => none

/-- The character that a letter behind a backslash stands for. -/
def letterEscape? : Char → Option Char
  | '"' => some '"'
  | '\\' => some '\\'
  | '/' => some '/'
  | 'b' => some '\x08'
  | 'f' => some '\x0c'
  | 'n' => some '\n'
  | 'r' => some '\x0d'
  | 't' => some '\t'
  | _ => none

/-- The low surrogate that is escaped at the start of a text, and what follows it. -/
def lowSurrogate? : List Char → Option (Nat × List Char)
  | '\\' :: 'u' :: rest =>
      match hexUnit? rest with
      | some (unit, rest) =>
          if 0xDC00 ≤ unit ∧ unit ≤ 0xDFFF then some (unit, rest) else none
      | none => none
  | _ => none

/-- The character of a UTF-16 unit, with the low surrogate behind it if it is a high one, and what
follows. -/
def unitChar (unit : Nat) (rest : List Char) : Char × List Char :=
  if 0xD800 ≤ unit ∧ unit ≤ 0xDBFF then
    match lowSurrogate? rest with
    | some (low, rest) =>
        (Char.ofNat (0x10000 + (unit - 0xD800) * 0x400 + (low - 0xDC00)), rest)
    | none => ('\uFFFD', rest)
  else if 0xDC00 ≤ unit ∧ unit ≤ 0xDFFF then ('\uFFFD', rest)
  else (Char.ofNat unit, rest)

/-- One character inside a text, and what follows it. -/
def textChar? : List Char → Option (Char × List Char)
  | [] => none
  | '\\' :: 'u' :: rest => (hexUnit? rest).map fun (unit, rest) => unitChar unit rest
  | '\\' :: letter :: rest => (letterEscape? letter).map fun c => (c, rest)
  | c :: rest => if c.toNat < 0x20 || c = '\\' then none else some (c, rest)

/-- The characters of a text up to the quote that ends it, of which there are less than `limit`, and
what follows the quote. -/
def textBody : Nat → List Char → Option (List Char × List Char)
  | 0, _ => none
  | limit + 1, text =>
      match text with
      | '"' :: rest => some ([], rest)
      | text =>
          match textChar? text with
          | some (c, rest) =>
              (textBody limit rest).map fun (body, rest) => (c :: body, rest)
          | none => none

/-- The text behind a quote, up to the one that ends it. -/
def textRest (text : List Char) : Option (String × List Char) :=
  (textBody (text.length + 1) text).map fun (body, rest) => (.ofList body, rest)

/-! ## Numbers -/

/-- The digits at the start of a text, and what follows them. -/
def digits (text : List Char) : List Char × List Char :=
  (text.takeWhile Char.isDigit, text.dropWhile Char.isDigit)

/-- The whole part of a number: a zero, or digits that start with another one. -/
def wholePart? : List Char → Option (List Char × List Char)
  | '0' :: rest => some (['0'], rest)
  | text =>
      match digits text with
      | ([], _) => none
      | found => some found

/-- The fraction of a number; nothing if there is none. -/
def fraction : List Char → List Char × List Char
  | '.' :: rest =>
      match digits rest with
      | ([], _) => ([], '.' :: rest)
      | (found, rest) => ('.' :: found, rest)
  | text => ([], text)

/-- The sign at the start of an exponent. -/
def exponentSign : List Char → List Char × List Char
  | '+' :: rest => (['+'], rest)
  | '-' :: rest => (['-'], rest)
  | text => ([], text)

/-- The exponent of a number; nothing if there is none. -/
def exponent : List Char → List Char × List Char
  | [] => ([], [])
  | c :: rest =>
      if c = 'e' || c = 'E' then
        let (sign, behind) := exponentSign rest
        match digits behind with
        | ([], _) => ([], c :: rest)
        | (found, behind) => (c :: sign ++ found, behind)
      else ([], c :: rest)

/-- The number that decimal digits write. -/
def decimalValue (digits : List Char) : Nat :=
  digits.foldl (fun value c => value * 10 + (c.toNat - '0'.toNat)) 0

/-- A number without its sign, and what follows it. -/
def number? (negative : Bool) (text : List Char) : Option (Value × List Char) := do
  let (whole, rest) ← wholePart? text
  let (fraction, rest) := fraction rest
  let (exponent, rest) := exponent rest
  if fraction.isEmpty && exponent.isEmpty then
    let value : Int := decimalValue whole
    some (.integer (if negative then -value else value), rest)
  else
    let sign := if negative then ['-'] else []
    some (.number (.ofList (sign ++ whole ++ fraction ++ exponent)), rest)

/-! ## Values -/

/-- The words that are values. -/
def words : List (List Char × Value) :=
  [("null".toList, .null), ("true".toList, .boolean true), ("false".toList, .boolean false),
    ("NaN".toList, .number "NaN"), ("Infinity".toList, .number "Infinity"),
    ("-Infinity".toList, .number "-Infinity")]

/-- The word at the start of a text, and what follows it. -/
def word? (text : List Char) : Option (Value × List Char) :=
  words.findSome? fun (word, value) => (word.isPrefixOf? text).map fun rest => (value, rest)

/-- A value that holds no others, and what follows it. -/
def scalar? (text : List Char) : Option (Value × List Char) :=
  match word? text with
  | some found => some found
  | none =>
      match text with
      | '"' :: rest => (textRest rest).map fun (value, rest) => (.text value, rest)
      | '-' :: rest => number? true rest
      | text => number? false text

/-- Why a text is not read. -/
inductive ReadFault where
  | notJson
  /-- A whole number has too many digits. -/
  | tooManyDigits (digits : Nat)
  deriving DecidableEq, Repr

/-- A value that holds no others, and what follows it; a whole number must not be too long. -/
def scalar (text : List Char) : Except ReadFault (Value × List Char) :=
  match scalar? text with
  | none => .error .notJson
  | some (.integer value, rest) =>
      if exceedsLimit value then .error (.tooManyDigits (Nat.toDigits 10 value.natAbs).length)
      else .ok (.integer value, rest)
  | some found => .ok found

/-- The text behind a quote, up to the one that ends it, as the name of a field. -/
def fieldName : List Char → Except ReadFault (String × List Char)
  | '"' :: rest =>
      match textRest rest with
      | some found => .ok found
      | none => .error .notJson
  | _ => .error .notJson

mutual

/-- A value at the start of a text, and what follows it; `limit` bounds the steps taken. -/
def valueAt : Nat → List Char → Except ReadFault (Value × List Char)
  | 0, _ => .error .notJson
  | limit + 1, text =>
      match text with
      | '[' :: rest =>
          match skipBlanks rest with
          | ']' :: rest => .ok (.array [], rest)
          | rest => do
              let (items, rest) ← itemsAt limit rest
              .ok (.array items, rest)
      | '\x7b' :: rest =>
          match skipBlanks rest with
          | '\x7d' :: rest => .ok (.object [], rest)
          | rest => do
              let (fields, rest) ← fieldsAt limit rest
              .ok (.object fields, rest)
      | text => scalar text

/-- The items of an array up to the bracket that ends it, and what follows the bracket. -/
def itemsAt : Nat → List Char → Except ReadFault (List Value × List Char)
  | 0, _ => .error .notJson
  | limit + 1, text => do
      let (item, rest) ← valueAt limit text
      match skipBlanks rest with
      | ']' :: rest => .ok ([item], rest)
      | ',' :: rest =>
          let (items, rest) ← itemsAt limit (skipBlanks rest)
          .ok (item :: items, rest)
      | _ => .error .notJson

/-- The fields of an object up to the brace that ends it, and what follows the brace. -/
def fieldsAt : Nat → List Char → Except ReadFault (List (String × Value) × List Char)
  | 0, _ => .error .notJson
  | limit + 1, text => do
      let (name, rest) ← fieldName text
      match skipBlanks rest with
      | ':' :: rest =>
          let (value, rest) ← valueAt limit (skipBlanks rest)
          match skipBlanks rest with
          | '\x7d' :: rest => .ok ([(name, value)], rest)
          | ',' :: rest =>
              let (fields, rest) ← fieldsAt limit (skipBlanks rest)
              .ok ((name, value) :: fields, rest)
          | _ => .error .notJson
      | _ => .error .notJson

end

/-- The value that a text writes.  Every step but the last ones takes a character, so twice as many
steps as characters are enough. -/
def read (text : String) : Except ReadFault Value := do
  let (value, rest) ← valueAt (2 * text.length + 2) (skipBlanks text.toList)
  if (skipBlanks rest).isEmpty then .ok value else .error .notJson

/-- The value that a text writes, if it can be read. -/
def read? (text : String) : Option Value :=
  (read text).toOption

end ProgramIdl.Json
