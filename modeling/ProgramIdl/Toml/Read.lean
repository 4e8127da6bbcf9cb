import ProgramIdl.Toml.Scalar
import ProgramIdl.Toml.Value

/-!
# Reading TOML

The reader of TOML documents.  It holds to version 1.0 of the format: what is declared twice, or
opened again after it was closed, is refused.
-/

set_option autoImplicit false

namespace ProgramIdl.Toml

/-- A reader takes a value off the start of a text, or fails. -/
abbrev Reader := StateT (List Char) Option

namespace Reader

/-- The next character, which is not taken. -/
def peek? : Reader (Option Char) := fun text => some (text.head?, text)

/-- Takes the text as far as its characters have a property. -/
def takeWhile (p : Char → Bool) : Reader (List Char) := fun text =>
  some (text.takeWhile p, text.dropWhile p)

/-- Takes a mark, if the text starts with it, and says whether it does. -/
def take? (mark : List Char) : Reader Bool := fun text =>
  match mark.isPrefixOf? text with
  | some rest => some (true, rest)
  | none => some (false, text)

/-- Takes a mark. -/
def expect (mark : List Char) : Reader Unit := fun text =>
  (mark.isPrefixOf? text).map fun rest => ((), rest)

end Reader

open Reader

/-! ## Blanks and comments -/

/-- Whether a character is a blank inside a line. -/
def isBlank (c : Char) : Bool :=
  c = ' ' || c = '\t'

/-- Whether a character may not stand in texts and comments. -/
def isControl (c : Char) : Bool :=
  (c.toNat < 0x20 && c ≠ '\t') || c.toNat = 0x7F

/-- Skips blanks inside a line. -/
def skipBlanks : Reader Unit := do
  let _ ← takeWhile isBlank

/-- Skips a comment, as far as the end of the line. -/
def skipComment : Reader Unit := do
  if (← peek?) = some '#' then
    let comment ← takeWhile (· ≠ '\n')
    if comment.any isControl then failure

/-- Skips blanks, line breaks and comments, at most `limit` comments. -/
def skipSpace : Nat → Reader Unit
  | 0 => return
  | limit + 1 => do
      let _ ← takeWhile fun c => isBlank c || c = '\n'
      if (← peek?) = some '#' then
        skipComment
        skipSpace limit

/-! ## Texts -/

/-- The number that some hexadecimal digits write. -/
def hexValue (digits : List Char) : Nat :=
  digits.foldl (fun value c =>
    value * 16 + if c.isDigit then c.toNat - '0'.toNat else c.toLower.toNat - 'a'.toNat + 10) 0

/-- The character whose code point a count of hexadecimal digits write. -/
def codePoint (count : Nat) : Reader Char := fun text =>
  let digits := text.take count
  let value := hexValue digits
  if digits.length = count && digits.all isHexDigit then
    if value < 0xD800 || (0xDFFF < value && value < 0x110000) then
      some (Char.ofNat value, text.drop count)
    else none
  else none

/-- The character that a letter behind a backslash stands for. -/
def letterEscape? : Char → Option Char
  | 'b' => some '\x08'
  | 't' => some '\t'
  | 'n' => some '\n'
  | 'f' => some '\x0c'
  | 'r' => some '\x0d'
  | '"' => some '"'
  | '\\' => some '\\'
  | _ => none

/-- The characters that an escape behind its backslash stands for.  In a text of several lines a line
may be continued: the blanks and line breaks behind the backslash leave nothing. -/
def escape (multiline : Bool) : Reader (List Char) := do
  match ← peek? with
  | none => failure
  | some c =>
      if multiline && (isBlank c || c = '\n') then
        skipBlanks
        match ← peek? with
        | none => return []
        | some '\n' =>
            let _ ← takeWhile fun c => isBlank c || c = '\n'
            return []
        | some _ => failure
      else
        let _ ← take? [c]
        if c = 'u' then return [← codePoint 4]
        else if c = 'U' then return [← codePoint 8]
        else
          match letterEscape? c with
          | some plain => return [plain]
          | none => failure

/-- The quotes that end a text. -/
def closing (quote : Char) (multiline : Bool) : List Char :=
  if multiline then [quote, quote, quote] else [quote]

/-- The text up to the quotes that end it, of less than `limit` characters; `escapes` says whether
backslashes mean something. -/
def textBody (quote : Char) (escapes multiline : Bool) : Nat → Reader (List Char)
  | 0 => failure
  | limit + 1 => do
      if ← take? (closing quote multiline) then return []
      match ← peek? with
      | none => failure
      | some c =>
          let _ ← take? [c]
          if escapes && c = '\\' then
            let plain ← escape multiline
            return plain ++ (← textBody quote escapes multiline limit)
          else if isControl c && !(multiline && c = '\n') then failure
          else return c :: (← textBody quote escapes multiline limit)

/-- At most two quotes more than end a text of several lines belong to it. -/
def extraQuotes (quote : Char) : Reader (List Char) := do
  if ← take? [quote, quote] then return [quote, quote]
  else if ← take? [quote] then return [quote]
  else return []

/-- A text on one line. -/
def lineText (quote : Char) (escapes : Bool) : Reader String := do
  expect [quote]
  let text ← get
  return .ofList (← textBody quote escapes false (text.length + 1))

/-- A text, on one line or on several. -/
def text (quote : Char) (escapes : Bool) : Reader String := do
  if ← take? [quote, quote, quote] then
    let _ ← take? ['\n']
    let text ← get
    let body ← textBody quote escapes true (text.length + 1)
    return .ofList (body ++ (← extraQuotes quote))
  else lineText quote escapes

/-! ## Keys -/

/-- Whether a character may stand in a key without quotes. -/
def isKeyChar (c : Char) : Bool :=
  c.isAlphanum || c = '-' || c = '_'

/-- One name of a key. -/
def keyPart : Reader String := do
  match ← peek? with
  | some '"' => lineText '"' true
  | some '\'' => lineText '\'' false
  | _ =>
      let name ← takeWhile isKeyChar
      if name.isEmpty then failure
      return .ofList name

/-- The names of a key behind its first one, at most `limit`. -/
def keyRest : Nat → Reader Key
  | 0 => failure
  | limit + 1 => do
      skipBlanks
      if ← take? ['.'] then
        skipBlanks
        let name ← keyPart
        return name :: (← keyRest limit)
      else return []

/-- A key; the blanks behind it belong to it. -/
def key : Reader (String × Key) := do
  let name ← keyPart
  let text ← get
  return (name, ← keyRest (text.length + 1))

/-- A key and the equals sign behind it. -/
def assignedKey : Reader (String × Key) := do
  let key ← key
  expect ['=']
  skipBlanks
  return key

/-! ## Values -/

/-- Whether a value is closed as a whole: nothing can be added to arrays and tables in it later. -/
def Value.isNest : Value → Bool
  | .array _ | .table _ => true
  | _ => false

/-- Whether a key leads into one of some closed values. -/
def isClosed (closed : List Key) (key : Key) : Bool :=
  closed.any fun nest => nest.isPrefixOf key

/-- All the names of a key. -/
def names (key : String × Key) : Key :=
  key.1 :: key.2

/-- The name of the value that a key leads to, and the tables before it. -/
def splitLast (key : String × Key) : Key × String :=
  ((names key).dropLast, (names key).getLast (by simp [names]))

/-- A table with one more value, in a table whose entries so far close some keys. -/
def addInline (closed : List Key) (key : String × Key) (value : Value) (table : Table) :
    Option Table :=
  if isClosed closed (names key) then none
  else Table.alter false (Table.add (splitLast key).2 value) (splitLast key).1 table

/-- A value that holds no others. -/
def plainValue : Reader Value := do
  match ← peek? with
  | some '"' => return .text (← text '"' true)
  | some '\'' => return .text (← text '\'' false)
  | _ =>
      if ← take? "true".toList then return .scalar
      else if ← take? "false".toList then return .scalar
      else
        match skipScalar (← get) with
        | some rest =>
            set rest
            return .scalar
        | none => failure

/-- Skips blanks, line breaks and comments. -/
def skipAllSpace : Reader Unit := do
  let text ← get
  skipSpace (text.length + 1)

mutual

/-- A value; `limit` bounds the steps taken. -/
def value : Nat → Reader Value
  | 0 => failure
  | limit + 1 => do
      if ← take? ['['] then
        skipAllSpace
        return .array (← items limit)
      else if ← take? ['\x7b'] then
        skipBlanks
        if ← take? ['\x7d'] then return .table []
        return .table (← entries limit [] [])
      else plainValue

/-- The items of an array up to the bracket that ends it. -/
def items : Nat → Reader (List Value)
  | 0 => failure
  | limit + 1 => do
      if ← take? [']'] then return []
      let item ← value limit
      skipAllSpace
      if ← take? [','] then
        skipAllSpace
        return item :: (← items limit)
      expect [']']
      return [item]

/-- The entries of a table on one line up to the brace that ends it, given those before. -/
def entries : Nat → List Key → Table → Reader Table
  | 0, _, _ => failure
  | limit + 1, closed, table => do
      let key ← assignedKey
      let value ← value limit
      match addInline closed key value table with
      | none => failure
      | some table =>
          skipBlanks
          if ← take? ['\x7d'] then return table
          expect [',']
          skipBlanks
          entries limit (if value.isNest then names key :: closed else closed) table

end

/-! ## Statements -/

/-- A document as far as it has been read. -/
structure Document where
  root : Table := []
  /-- The table that entries are added to. -/
  header : Key := []
  /-- The arrays and tables that were written as values. -/
  closed : List Key := []
  /-- The tables that were opened and cannot be opened again. -/
  opened : List Key := []
  /-- The tables that dotted keys have named since the last header. -/
  dotted : List Key := []
  deriving Repr, Inhabited

namespace Document

/-- The document with the tables named by dotted keys counted as opened. -/
def settle (document : Document) : Document :=
  { document with opened := document.dotted ++ document.opened, dotted := [] }

/-- The document after a header in single brackets. -/
def openTable (document : Document) (key : Key) : Option Document :=
  if key ∈ document.opened || isClosed document.closed key then none
  else
    (Table.alter true some key document.root).map fun root =>
      { document with root := root, header := key, opened := key :: document.opened }

/-- The document after a header in double brackets; what was said of the last item is forgotten. -/
def openItem (document : Document) (key : String × Key) : Option Document :=
  if isClosed document.closed (names key) then none
  else
    let kept := fun other => !(names key).isPrefixOf other
    let (outer, name) := splitLast key
    (Table.alter true (Table.append name) outer document.root).map fun root =>
      { document with
        root := root
        header := names key
        closed := document.closed.filter kept
        opened := names key :: document.opened.filter kept }

/-- The keys of the tables that a dotted key names on its way. -/
def tablesOnTheWay (header : Key) (key : String × Key) : List Key :=
  (List.range key.2.length).map fun count => header ++ (names key).take (count + 1)

/-- The document with one more entry. -/
def addEntry (document : Document) (key : String × Key) (value : Value) : Option Document :=
  let tables := tablesOnTheWay document.header key
  let (outer, name) := splitLast key
  let outer := document.header ++ outer
  if tables.any fun table => table ∈ document.opened then none
  else if isClosed document.closed outer then none
  else
    (Table.alter true (Table.add name value) outer document.root).map fun root =>
      { document with
        root := root
        dotted := tables ++ document.dotted
        closed :=
          if value.isNest then (document.header ++ names key) :: document.closed
          else document.closed }

end Document

/-- The document after one statement, if the text starts with one. -/
def statement (document : Document) : Reader Document := do
  match ← peek? with
  | none | some '\n' | some '#' => return document
  | some '[' =>
      let double ← take? ['[', '[']
      if !double then expect ['[']
      skipBlanks
      let key ← key
      let document := document.settle
      let next := if double then document.openItem key else document.openTable (names key)
      expect (if double then [']', ']'] else [']'])
      match next with
      | some document => return document
      | none => failure
  | some _ =>
      let key ← assignedKey
      let text ← get
      match document.addEntry key (← value (2 * text.length + 2)) with
      | some document => return document
      | none => failure

/-- The document after the rest of a text, of at most `limit` lines. -/
def statements : Nat → Document → Reader Document
  | 0, _ => failure
  | limit + 1, document => do
      skipBlanks
      let document ← statement document
      skipBlanks
      skipComment
      if ← take? ['\n'] then statements limit document
      else if (← peek?).isNone then return document
      else failure

/-- The document that a text writes. -/
def read? (text : String) : Option Table :=
  ((statements (text.length + 1) {}).run text.toList).map fun (document, _) => document.root

end ProgramIdl.Toml
