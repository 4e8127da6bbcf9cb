import ProgramIdl.Syntax.Tree

/-!
# Parsers of token trees

A parser takes some trees off the front of a list or fails.  A repetition is bounded by the number
of trees that are left, so every parser is a total function; a parser that has to read a group reads
all of it (`Parser.inside`).
-/

set_option autoImplicit false

namespace ProgramIdl.Syntax

/-- A reader of the trees at the front of a list. -/
abbrev Parser (α : Type) := StateT (List Tree) Option α

/-! ## Looking ahead -/

/-- Whether a tree is a certain mark. -/
def Tree.isMark (c : Char) : Tree → Bool
  | .leaf token => token.kind = .mark c
  | .group .. => false

/-- Whether a tree is a certain word. -/
def Tree.isWord (name : String) : Tree → Bool
  | .leaf token => token.kind = .word && token.text = name.toList
  | .group .. => false

/-- Whether a tree is a token of a kind. -/
def Tree.isKind (kind : LexemeKind) : Tree → Bool
  | .leaf token => token.kind = kind
  | .group .. => false

/-- Whether a tree is a group with certain delimiters. -/
def Tree.isGroup (delimiter : Delimiter) : Tree → Bool
  | .leaf _ => false
  | .group other .. => other = delimiter

/-- Whether the first of some trees satisfies a condition. -/
def headIs (condition : Tree → Bool) : List Tree → Bool
  | [] => false
  | tree :: _ => condition tree

/-- Whether the first tree is one of some words. -/
def headIsWord (names : List String) (trees : List Tree) : Bool :=
  headIs (fun tree => names.any tree.isWord) trees

/-- Whether trees start with the marks of a symbol, without gaps between them. -/
def startsWithSymbol : List Char → List Tree → Bool
  | [], _ => true
  | _, [] => false
  | c :: symbol, tree :: rest =>
      tree.isMark c &&
        match symbol, rest with
        | [], _ => true
        | _, next :: _ => next.first.isJoint && startsWithSymbol symbol rest
        | _, [] => false

/-- The words that name nothing unless they are written raw. -/
def reservedWords : List String :=
  ["as", "async", "await", "become", "box", "break", "const", "continue", "do", "dyn", "else",
   "enum", "extern", "final", "fn", "for", "if", "impl", "in", "let", "loop", "match", "mod",
   "move", "mut", "priv", "pub", "ref", "return", "static", "struct", "trait", "type", "typeof",
   "unsafe", "unsized", "use", "virtual", "where", "while", "yield"]

/-- The reserved words that may stand in a path. -/
def Tree.isSegment (tree : Tree) : Bool :=
  tree.isKind .word && !reservedWords.any tree.isWord

namespace Parser

variable {α β : Type}

/-- The next tree, if it satisfies a condition. -/
def tree (condition : Tree → Bool) : Parser Tree
  | [] => none
  | tree :: rest => if condition tree then some (tree, rest) else none

/-- The next token, if it satisfies a condition; groups are no tokens. -/
def token (condition : Tree → Bool) : Parser Token
  | .leaf token :: rest => if condition (.leaf token) then some (token, rest) else none
  | _ => none

def word (name : String) : Parser Token :=
  token (Tree.isWord name)

def mark (c : Char) : Parser Token :=
  token (Tree.isMark c)

def lifetime : Parser Token :=
  token (Tree.isKind .lifetime)

def literal : Parser Token :=
  token (Tree.isKind .literal)

/-- A name that is given to something. -/
def name : Parser Token :=
  token fun tree => tree.isSegment && !(["self", "Self", "super", "crate"].any tree.isWord)

/-- Any word, reserved or not. -/
def anyWord : Parser Token :=
  token (Tree.isKind .word)

/-- A word that may stand in a path. -/
def segment : Parser Token :=
  token Tree.isSegment

/-- A group with any delimiters. -/
def anyGroup : Parser Tree
  | .group delimiter opening inner closing :: rest =>
      some (.group delimiter opening inner closing, rest)
  | _ => none

/-- Marks that stand together. -/
def symbol (spelling : String) : Parser Unit := fun trees =>
  if startsWithSymbol spelling.toList trees then some ((), trees.drop spelling.length) else none

/-- A parser that may fail, leaving everything in place. -/
def maybe (parser : Parser α) : Parser (Option α) := fun trees =>
  match parser trees with
  | some (value, rest) => some (some value, rest)
  | none => some (none, trees)

/-- As many repetitions as succeed, at most a number of them. -/
def upTo (parser : Parser α) : Nat → Parser (List α)
  | 0 => pure []
  | count + 1 => do
      match ← maybe parser with
      | some value => return value :: (← upTo parser count)
      | none => return []

/-- As many repetitions as succeed. -/
def many (parser : Parser α) : Parser (List α) := fun trees =>
  upTo parser trees.length trees

/-- Repetitions between commas, with or without a comma behind the last one. -/
def commaSeparated (parser : Parser α) : Parser (List α) := do
  match ← maybe parser with
  | none => return []
  | some first =>
      let more ← many (mark ',' *> parser)
      let _ ← maybe (mark ',')
      return first :: more

/-- A parser of which only the progress counts. -/
def skip (parser : Parser α) : Parser Unit := do
  let _ ← parser

/-- What a parser makes of some trees if it takes all of them. -/
def all (parser : Parser α) (trees : List Tree) : Option α :=
  match parser trees with
  | some (value, []) => some value
  | _ => none

/-- A group whose content is read by a parser. -/
def inside (delimiter : Delimiter) (parser : Parser α) : Parser α := fun trees =>
  match trees with
  | .group other _ inner _ :: rest =>
      if other = delimiter then (all parser inner).map (·, rest) else none
  | _ => none

/-- A parser together with the text of the trees that it takes. -/
def withText (parser : Parser α) : Parser (α × String) := fun trees =>
  (parser trees).map fun (value, rest) =>
    ((value, sourceText (trees.take (trees.length - rest.length))), rest)

/-- Whether the trees that are left satisfy a condition. -/
def ahead (condition : List Tree → Bool) : Parser Bool := fun trees =>
  some (condition trees, trees)

/-- A mark that separates, or the end of the trees. -/
def separator (c : Char) : Parser Unit := fun trees =>
  match trees with
  | [] => some ((), [])
  | tree :: rest => if tree.isMark c then some ((), rest) else none

/-- As many trees as satisfy a condition. -/
def skipWhile (condition : Tree → Bool) : Parser Unit := fun trees =>
  some ((), trees.dropWhile condition)

/-- The trees behind the angle bracket that closes the innermost of `depth + 1` open ones; the
bracket of an arrow closes nothing. -/
def closeAngles (depth : Nat) (behindDash : Bool) : List Tree → Option (List Tree)
  | [] => none
  | tree :: rest =>
      if tree.isMark '<' then closeAngles (depth + 1) false rest
      else if tree.isMark '>' && !(behindDash && tree.first.isJoint) then
        match depth with
        | 0 => some rest
        | depth + 1 => closeAngles depth false rest
      else if tree.isMark ';' then none
      else closeAngles depth (tree.isMark '-') rest

/-- Generic parameters or arguments between angle brackets. -/
def angles : Parser Unit := fun trees =>
  match trees with
  | tree :: rest => if tree.isMark '<' then (closeAngles 0 false rest).map ((), ·) else none
  | [] => none

end Parser

end ProgramIdl.Syntax
