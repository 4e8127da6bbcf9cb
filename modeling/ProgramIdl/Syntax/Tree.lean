import ProgramIdl.Syntax.Lexeme

/-!
# Token trees

Blanks and comments only stand between tokens: each token carries the ones in front of it.  Tokens
are gathered into trees by their delimiters, so that a group stands for everything between an
opening delimiter and the one that closes it.
-/

set_option autoImplicit false

namespace ProgramIdl.Syntax

/-- A token with the blanks and comments in front of it, its place in the text and its line. -/
structure Token where
  kind : LexemeKind
  text : List Char
  text_ne : text ≠ []
  lead : List Lexeme
  /-- How many characters of the text stand before the token. -/
  start : Nat
  /-- The line of the token, counted from one. -/
  line : Nat
  deriving Repr

namespace Token

/-- The place behind the token. -/
def stop (token : Token) : Nat :=
  token.start + token.text.length

/-- The token's word, literal or mark as a text. -/
def name (token : Token) : String :=
  .ofList token.text

/-- The token with what stands in front of it. -/
def spelling (token : Token) : List Char :=
  (token.lead.map Lexeme.text).flatten ++ token.text

/-- The comments in front of the token. -/
def comments (token : Token) : List String :=
  (token.lead.filter (·.kind = .comment)).map fun lexeme => .ofList lexeme.text

/-- Whether the token follows the one before it without a gap. -/
def isJoint (token : Token) : Bool :=
  token.lead.isEmpty

/-- Whether the token can be the position of a member of a tuple: it starts with a digit and does not
end with a point. -/
def isPosition (token : Token) : Bool :=
  token.text.head?.any Char.isDigit && token.text.getLast? ≠ some '.'

end Token

/-- The tokens of some lexemes, given the blanks and comments just read (last one first) and the
place and line that have been reached. -/
def tokensFrom (lead : List Lexeme) (start line : Nat) : List Lexeme → List Token
  | [] => []
  | lexeme :: rest =>
      let next := start + lexeme.text.length
      let nextLine := line + lexeme.text.count '\n'
      match lexeme.kind with
      | .blank | .comment => tokensFrom (lexeme :: lead) next nextLine rest
      | kind =>
          ⟨kind, lexeme.text, lexeme.text_ne, lead.reverse, start, line⟩
            :: tokensFrom [] next nextLine rest

/-- A token, or a group of trees between two delimiters. -/
inductive Tree where
  | leaf (token : Token)
  | group (delimiter : Delimiter) (opening : Token) (inner : List Tree) (closing : Token)
  deriving Repr

namespace Tree

/-- The first token of a tree. -/
def first : Tree → Token
  | .leaf token => token
  | .group _ opening _ _ => opening

/-- The last token of a tree. -/
def last : Tree → Token
  | .leaf token => token
  | .group _ _ _ closing => closing

mutual

/-- The tokens of a tree, in order. -/
def tokens : Tree → List Token
  | .leaf token => [token]
  | .group _ opening inner closing => opening :: allTokens inner ++ [closing]

/-- The tokens of some trees, in order. -/
def allTokens : List Tree → List Token
  | [] => []
  | tree :: rest => tokens tree ++ allTokens rest

end

end Tree

/-- The text of some trees, from their first token to their last. -/
def sourceText (trees : List Tree) : String :=
  match Tree.allTokens trees with
  | [] => ""
  | token :: rest => .ofList (token.text ++ (rest.map Token.spelling).flatten)

/-- A group that has been opened and not closed yet, with the trees in front of it, last one
first. -/
structure OpenGroup where
  delimiter : Delimiter
  opening : Token
  before : List Tree

/-- The trees of some tokens, given the groups that are open (innermost first) and the trees of the
innermost one (last one first). -/
def gather (pending : List OpenGroup) (current : List Tree) : List Token → Option (List Tree)
  | [] => if pending.isEmpty then some current.reverse else none
  | token :: rest =>
      match token.kind with
      | .opening delimiter => gather (⟨delimiter, token, current⟩ :: pending) [] rest
      | .closing delimiter =>
          match pending with
          | [] => none
          | group :: outer =>
              if group.delimiter = delimiter then
                gather outer (.group delimiter group.opening current.reverse token :: group.before)
                  rest
              else none
      | _ => gather pending (.leaf token :: current) rest

/-- Whether a text starts with a line that names an interpreter; `#![` starts an attribute. -/
def startsWithInterpreter : List Char → Bool
  | '#' :: '!' :: rest => (rest.dropWhile isSourceBlank).head? ≠ some '['
  | _ => false

/-- The part of a source text that is read: a byte-order mark and a line that names an interpreter
are passed over. -/
def readable (text : List Char) : List Char :=
  let text := if text.head? = some '\uFEFF' then text.drop 1 else text
  if startsWithInterpreter text then text.dropWhile (· ≠ '\n') else text

/-- The token trees of a source text. -/
def trees? (text : String) : Option (List Tree) :=
  (lexemes (readable text.toList)).bind fun read => gather [] [] (tokensFrom [] 0 1 read)

end ProgramIdl.Syntax
