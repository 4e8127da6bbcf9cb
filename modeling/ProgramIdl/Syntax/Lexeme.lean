import ProgramIdl.Literal.Quoted
import ProgramIdl.Text.Identifier

/-!
# Lexemes

Source text falls into lexemes: blanks, comments, words, lifetimes, literals, delimiters and single
punctuation marks.  A reader looks only at how far the next lexeme reaches, so the lexemes of a text
always put together the text again (`flatten_lexemes`).
-/

set_option autoImplicit false

namespace ProgramIdl.Syntax

open ProgramIdl.Text

/-- The three kinds of delimiters that come in pairs. -/
inductive Delimiter where
  | parenthesis
  | bracket
  | brace
  deriving DecidableEq, Repr

/-- What a lexeme is. -/
inductive LexemeKind where
  | blank
  | comment
  /-- An identifier, raw or not, or a keyword. -/
  | word
  | lifetime
  /-- A number, a character, or a string of any sort. -/
  | literal
  | opening (delimiter : Delimiter)
  | closing (delimiter : Delimiter)
  | mark (c : Char)
  deriving DecidableEq, Repr

/-- A lexeme: what it is, and its characters. -/
structure Lexeme where
  kind : LexemeKind
  text : List Char
  text_ne : text ≠ []
  deriving DecidableEq, Repr

/-- The characters that separate tokens and mean nothing else. -/
def isSourceBlank (c : Char) : Bool :=
  c.toNat ∈ [0x09, 0x0A, 0x0B, 0x0C, 0x0D, 0x20, 0x85, 0x200E, 0x200F, 0x2028, 0x2029]

/-- The punctuation marks. -/
def isMark (c : Char) : Bool :=
  c ∈ ['~', '!', '@', '#', '$', '%', '^', '&', '*', '-', '=', '+', '|', ':', ';', ',', '.', '<',
    '>', '/', '?']

/-- How far a block comment reaches beyond the point where `depth + 1` comments are open. -/
def blockCommentSize (depth : Nat) : List Char → Option Nat
  | '*' :: '/' :: rest =>
      match depth with
      | 0 => some 2
      | depth + 1 => (blockCommentSize depth rest).map (· + 2)
  | '/' :: '*' :: rest => (blockCommentSize (depth + 1) rest).map (· + 2)
  | _ :: rest => (blockCommentSize depth rest).map (· + 1)
  | [] => none

/-- How far a cooked literal reaches beyond its opening quote. -/
def cookedSize (quote : Char) : List Char → Option Nat
  | [] => none
  | '\\' :: _ :: rest => (cookedSize quote rest).map (· + 2)
  | c :: rest =>
      if c = quote then some 1
      else if c = '\\' then none
      else (cookedSize quote rest).map (· + 1)

/-- How far a text reaches up to the end of the first occurrence of a closing text. -/
def closedSize (closing : List Char) : List Char → Option Nat
  | [] => none
  | c :: rest =>
      if closing.isPrefixOf (c :: rest) then some closing.length
      else (closedSize closing rest).map (· + 1)

/-- How far a raw string reaches beyond its letters: hash marks, a quote, and as far as the quote
with as many hash marks behind it. -/
def rawSize (text : List Char) : Option Nat :=
  let hashes := text.takeWhile (· = '#')
  match text.dropWhile (· = '#') with
  | '"' :: rest => (closedSize ('"' :: hashes) rest).map (· + hashes.length + 1)
  | _ => none

/-- How far an identifier reaches. -/
def identifierSize (text : List Char) : Nat :=
  (text.takeWhile isIdentifierPart).length

/-- How far digits, letters and underscores reach, with the sign of an exponent that ends them. -/
def digitsSize (text : List Char) : Nat :=
  let run := text.takeWhile isIdentifierPart
  match run.getLast?, text.drop run.length with
  | some last, sign :: digit :: rest =>
      if (last = 'e' || last = 'E') && (sign = '+' || sign = '-') && digit.isDigit
          && run.all (fun c => c.isDigit || c = '_' || c = 'e' || c = 'E') then
        run.length + 2 + identifierSize rest
      else run.length
  | _, _ => run.length

/-- How far a number reaches.  A point belongs to it if a digit follows, or if neither a further
point nor a name follows. -/
def numberSize (text : List Char) : Nat :=
  let whole := digitsSize text
  match text.drop whole with
  | '.' :: c :: rest =>
      if c.isDigit then whole + 1 + digitsSize (c :: rest)
      else if c = '.' || isIdentifierStart c then whole
      else whole + 1
  | ['.'] => whole + 1
  | _ => whole

/-- A lifetime or a character, given what follows the quote that opens it. -/
def quoteLexeme (rest : List Char) : Option (LexemeKind × Nat) :=
  match rest with
  | '\\' :: _ => (cookedSize '\'' rest).map fun size => (.literal, size + 1)
  | c :: '\'' :: _ => if c = '\'' then none else some (.literal, 3)
  | c :: _ => if isIdentifierStart c then some (.lifetime, identifierSize rest + 1) else none
  | [] => none

/-- A string with letters in front of it, if the text starts with one. -/
def letteredLiteral (text : List Char) : Option (LexemeKind × Nat) :=
  match text with
  | 'b' :: 'r' :: rest | 'c' :: 'r' :: rest =>
      (rawSize rest).map fun size => (.literal, size + 2)
  | 'b' :: '"' :: rest | 'c' :: '"' :: rest =>
      (cookedSize '"' rest).map fun size => (.literal, size + 2)
  | 'b' :: '\'' :: rest => (cookedSize '\'' rest).map fun size => (.literal, size + 2)
  | 'r' :: rest => (rawSize rest).map fun size => (.literal, size + 1)
  | _ => none

/-- A word: an identifier, perhaps with the marker that makes it raw. -/
def wordLexeme (text : List Char) : LexemeKind × Nat :=
  match text with
  | 'r' :: '#' :: c :: rest =>
      if isIdentifierStart c then (.word, identifierSize (c :: rest) + 2) else (.word, 1)
  | _ => (.word, identifierSize text)

/-- The kind of the lexeme at the start of a text, and how far it reaches. -/
def nextLexeme (c : Char) (rest : List Char) : Option (LexemeKind × Nat) :=
  if isSourceBlank c then some (.blank, (rest.takeWhile isSourceBlank).length + 1)
  else
    match c, rest with
    | '/', '/' :: _ => some (.comment, (rest.takeWhile (· ≠ '\n')).length + 1)
    | '/', '*' :: body => (blockCommentSize 0 body).map fun size => (.comment, size + 2)
    | '"', _ => (cookedSize '"' rest).map fun size => (.literal, size + 1)
    | '\'', _ => quoteLexeme rest
    | '(', _ => some (.opening .parenthesis, 1)
    | ')', _ => some (.closing .parenthesis, 1)
    | '[', _ => some (.opening .bracket, 1)
    | ']', _ => some (.closing .bracket, 1)
    | '\x7b', _ => some (.opening .brace, 1)
    | '\x7d', _ => some (.closing .brace, 1)
    | _, _ =>
        if c.isDigit then some (.literal, numberSize (c :: rest))
        else if isIdentifierStart c then
          some ((letteredLiteral (c :: rest)).getD (wordLexeme (c :: rest)))
        else if isMark c then some (.mark c, 1)
        else none

/-- The lexemes of a text, of which the first `taken` characters belong to a lexeme already read. -/
def lexemesAfter : Nat → List Char → Option (List Lexeme)
  | _, [] => some []
  | taken + 1, _ :: rest => lexemesAfter taken rest
  | 0, c :: rest =>
      match nextLexeme c rest with
      | some (kind, size) =>
          (lexemesAfter (size - 1) rest).map (⟨kind, c :: rest.take (size - 1), by simp⟩ :: ·)
      | none => none

/-- The lexemes of a text; none if it holds a character that starts no lexeme, or a literal or
comment that does not end. -/
def lexemes (text : List Char) : Option (List Lexeme) :=
  lexemesAfter 0 text

theorem flatten_lexemesAfter (taken : Nat) (text : List Char) {read : List Lexeme}
    (reads : lexemesAfter taken text = some read) :
    (read.map Lexeme.text).flatten = text.drop taken := by
  induction text generalizing taken read with
  | nil =>
      cases taken <;> simp only [lexemesAfter, Option.some.injEq] at reads <;> subst reads <;> simp
  | cons c rest inductionHypothesis =>
      cases taken with
      | succ taken =>
          simp only [lexemesAfter] at reads
          simpa using inductionHypothesis taken reads
      | zero =>
          simp only [lexemesAfter] at reads
          split at reads
          · rename_i kind size found
            simp only [Option.map_eq_some_iff] at reads
            obtain ⟨later, laterReads, rfl⟩ := reads
            have := inductionHypothesis (size - 1) laterReads
            simp [this, List.take_append_drop]
          · cases reads

/-- The lexemes of a text put together the text. -/
theorem flatten_lexemes {text : List Char} {read : List Lexeme}
    (reads : lexemes text = some read) : (read.map Lexeme.text).flatten = text := by
  simpa using flatten_lexemesAfter 0 text reads

end ProgramIdl.Syntax
