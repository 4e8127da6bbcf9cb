/-!
# UTF-8

Bytes are read as UTF-8 piece by piece.  A piece is one character, or the longest run of bytes that
could still have begun one, with the reason why it does not.  Strict reading stops at the first bad
piece and reports where it lies; lenient reading puts U+FFFD in its place.
-/

set_option autoImplicit false

namespace ProgramIdl.Text

/-- The bytes of a text. -/
def utf8Bytes (text : List Char) : List UInt8 :=
  text.flatMap String.utf8EncodeChar

/-- Why some bytes are no character. -/
inductive Utf8Fault where
  | invalidStart
  | invalidContinuation
  | unexpectedEnd
  deriving DecidableEq, Repr

/-- One step through a sequence of bytes: how many bytes it takes, and what they are. -/
structure Utf8Piece where
  size : Nat
  content : Except Utf8Fault Char

/-- The six payload bits of a continuation byte. -/
def continuationBits (byte : UInt8) : Nat :=
  byte.toNat % 0x40

/-- Whether a byte may continue a character. -/
def isContinuation (byte : UInt8) : Bool :=
  0x80 ≤ byte.toNat && byte.toNat ≤ 0xBF

/-- Whether a byte may come second, behind a given first byte: overlong forms, surrogates and code
points beyond U+10FFFF are ruled out here. -/
def isSecondByte (first second : UInt8) : Bool :=
  let low := if first = 0xE0 then 0xA0 else if first = 0xF0 then 0x90 else 0x80
  let high := if first = 0xED then 0x9F else if first = 0xF4 then 0x8F else 0xBF
  low ≤ second.toNat && second.toNat ≤ high

/-- How many bytes a character takes that starts with a given byte; zero if none does. -/
def utf8Width (first : UInt8) : Nat :=
  if first.toNat < 0x80 then 1
  else if first.toNat < 0xC2 then 0
  else if first.toNat < 0xE0 then 2
  else if first.toNat < 0xF0 then 3
  else if first.toNat < 0xF5 then 4
  else 0

/-- The piece at the start of some bytes, given the first of them. -/
def utf8Piece (first : UInt8) (rest : List UInt8) : Utf8Piece :=
  let fault (size : Nat) (left : List UInt8) : Utf8Piece :=
    ⟨size, .error (if left.isEmpty then .unexpectedEnd else .invalidContinuation)⟩
  match utf8Width first with
  | 0 => ⟨1, .error .invalidStart⟩
  | 1 => ⟨1, .ok (Char.ofNat first.toNat)⟩
  | width =>
      match rest with
      | [] => fault 1 []
      | second :: rest =>
          if !isSecondByte first second then fault 1 [second]
          else if width = 2 then
            ⟨2, .ok (Char.ofNat (first.toNat % 0x20 * 0x40 + continuationBits second))⟩
          else
            match rest with
            | [] => fault 2 []
            | third :: rest =>
                if !isContinuation third then fault 2 [third]
                else if width = 3 then
                  ⟨3, .ok (Char.ofNat ((first.toNat % 0x10 * 0x40 + continuationBits second) * 0x40
                    + continuationBits third))⟩
                else
                  match rest with
                  | [] => fault 3 []
                  | fourth :: _ =>
                      if !isContinuation fourth then fault 3 [fourth]
                      else
                        ⟨4, .ok (Char.ofNat (((first.toNat % 0x08 * 0x40 + continuationBits second)
                          * 0x40 + continuationBits third) * 0x40 + continuationBits fourth))⟩

/-- The pieces of some bytes; the first `taken` bytes belong to a piece already read. -/
def utf8PiecesAfter : Nat → List UInt8 → List Utf8Piece
  | _, [] => []
  | taken + 1, _ :: rest => utf8PiecesAfter taken rest
  | 0, first :: rest =>
      let piece := utf8Piece first rest
      piece :: utf8PiecesAfter (piece.size - 1) rest

/-- The pieces of some bytes. -/
def utf8Pieces (bytes : List UInt8) : List Utf8Piece :=
  utf8PiecesAfter 0 bytes

/-- The text of some bytes, with U+FFFD for every bad piece. -/
def utf8Lenient (bytes : List UInt8) : List Char :=
  (utf8Pieces bytes).map fun piece => piece.content.toOption.getD '\uFFFD'

/-- Where and why bytes are not UTF-8. -/
structure Utf8Error where
  position : Nat
  /-- The offending bytes. -/
  bytes : List UInt8
  fault : Utf8Fault
  deriving DecidableEq, Repr

/-- The text of pieces that start at a position of some bytes. -/
def utf8Text (bytes : List UInt8) (position : Nat) :
    List Utf8Piece → Except Utf8Error (List Char)
  | [] => .ok []
  | piece :: rest =>
      match piece.content with
      | .error fault => .error ⟨position, (bytes.drop position).take piece.size, fault⟩
      | .ok c => (utf8Text bytes (position + piece.size) rest).map (c :: ·)

/-- The text of some bytes, or the first place where they are not UTF-8. -/
def utf8Decode (bytes : List UInt8) : Except Utf8Error (List Char) :=
  utf8Text bytes 0 (utf8Pieces bytes)

end ProgramIdl.Text
