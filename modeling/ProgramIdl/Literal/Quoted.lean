import ProgramIdl.Literal.Integer
import ProgramIdl.Text.Utf8

/-!
# String and byte-string literals

The readers of quoted literals.  A cooked literal stands between double quotes and holds escapes; a
raw one stands between `r`, hash marks and quotes and holds its text as it is.  Both readers yield
the bytes of a literal; text is read from them as UTF-8.
-/

set_option autoImplicit false

namespace ProgramIdl.Literal

open ProgramIdl.Text

/-- The character that a one-letter escape stands for. -/
def simpleEscape? : Char → Option Char
  | 'n' => some '\n'
  | 'r' => some '\x0d'
  | 't' => some '\t'
  | '\\' => some '\\'
  | '0' => some '\x00'
  | '\'' => some '\''
  | '"' => some '"'
  | _ => none

/-- The blanks that a line continuation skips. -/
def isContinuationBlank (c : Char) : Bool :=
  c = ' ' || c = '\t' || c = '\x0d' || c = '\n'

/-- The byte that the text of at most two hexadecimal digits stands for. -/
def byteEscape? (digits : List Char) : Option UInt8 :=
  match number? .hexadecimal digits with
  | some (.ofNat value) => some (UInt8.ofNat value)
  | _ => none

/-- How far a reader of escapes is through the text: it skips a number of characters that have been
read, or the blanks behind a line continuation. -/
inductive Unread where
  | characters (skipped : Nat)
  | continuation
  deriving DecidableEq, Repr

/-- The bytes of the text between the quotes of a cooked literal. -/
def unescapeFrom : Unread → List Char → Option (List UInt8)
  | _, [] => some []
  | .characters (skipped + 1), _ :: rest => unescapeFrom (.characters skipped) rest
  | state, c :: rest =>
      if state = .continuation && isContinuationBlank c then unescapeFrom .continuation rest
      else if c ≠ '\\' then (unescapeFrom (.characters 0) rest).map (utf8Bytes [c] ++ ·)
      else
        match rest with
        | [] => none
        | escape :: digits =>
            match simpleEscape? escape with
            | some plain => (unescapeFrom (.characters 1) rest).map (utf8Bytes [plain] ++ ·)
            | none =>
                if escape = 'x' then
                  match byteEscape? (digits.take 2) with
                  | some byte => (unescapeFrom (.characters 3) rest).map (byte :: ·)
                  | none => none
                else if escape = '\n' then unescapeFrom .continuation rest
                else none

/-- The bytes of the text between the quotes of a cooked literal. -/
def unescape (body : List Char) : Option (List UInt8) :=
  unescapeFrom (.characters 0) body

/-- The text up to the quote that ends a cooked literal, and what follows the quote. -/
def cookedBody : List Char → Option (List Char × List Char)
  | [] => none
  | '"' :: rest => some ([], rest)
  | '\\' :: c :: rest => (cookedBody rest).map fun (body, after) => ('\\' :: c :: body, after)
  | c :: rest =>
      if c = '\\' then none
      else (cookedBody rest).map fun (body, after) => (c :: body, after)

/-- The text between the quotes of a cooked literal that fills a text. -/
def cooked? : List Char → Option (List Char)
  | '"' :: rest =>
      match cookedBody rest with
      | some (body, after) => if isFinished after then some body else none
      | none => none
  | _ => none

/-- The text between the quotes of a raw literal that fills a text, given what follows its `r`: as
many hash marks as it opens with must close it. -/
def raw? (text : List Char) : Option (List Char) :=
  let hashes := text.takeWhile (· = '#')
  match text.dropWhile (· = '#') with
  | '"' :: rest => ('"' :: hashes).isSuffixOf? rest
  | _ => none

/-- The text of a string literal, cooked or raw; bytes that are no UTF-8 are replaced. -/
def string? (text : String) : Option String :=
  let text := trim text.toList
  let raw :=
    match text with
    | 'r' :: rest => raw? rest
    | _ => none
  match raw with
  | some body => some (.ofList body)
  | none => ((cooked? text).bind unescape).map fun bytes => .ofList (utf8Lenient bytes)

/-- The bytes of a byte-string literal, cooked or raw, perhaps behind references. -/
def byteString? (text : String) : Option (List UInt8) :=
  match dereference text.toList with
  | 'b' :: 'r' :: rest =>
      match raw? rest with
      | some body => some (utf8Bytes body)
      | none => none
  | 'b' :: rest => (cooked? rest).bind unescape
  | _ => none

/-- The text between the first quotes that open and close in a text, from some quote in it on. -/
def firstCooked : List Char → Option (List Char)
  | [] => none
  | '"' :: rest =>
      match cookedBody rest with
      | some (body, _) => some body
      | none => firstCooked rest
  | _ :: rest => firstCooked rest

end ProgramIdl.Literal
