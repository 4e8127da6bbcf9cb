import ProgramIdl.Syntax.Item
import ProgramIdl.Syntax.Parser

/-!
# Grammar

The rules of the grammar call each other.  Each rule is written over a `Grammar`, the parsers that it
may use for the constructs nested in its own; the rules themselves are not recursive.  Iterating them
gives the grammar for constructs of any depth.
-/

set_option autoImplicit false

namespace ProgramIdl.Syntax

/-- What is kept of a pattern: its name if it is a plain identifier, and the fragments in it. -/
structure Pattern where
  binding : Option String := none
  fragments : List Fragment := []

/-- What is kept of an expression: receiver and field if it is a field access, and its fragments. -/
structure Expression where
  field : Option (String × String) := none
  fragments : List Fragment := []

/-- An item with the fragments in it, wherever they stand. -/
structure ParsedItem where
  item : Item
  fragments : List Fragment := []

/-- The parsers that a rule may use for what is nested in it. -/
structure Grammar where
  type : Parser (List Fragment)
  /-- A pattern without alternatives. -/
  pattern : Parser Pattern
  /-- An expression; the flag says whether a brace behind a path opens a struct literal. -/
  expression : Bool → Parser Expression
  /-- An expression that ends with a block. -/
  blockLike : Parser (List Fragment)
  /-- The content of a block. -/
  statements : Parser (List Fragment)
  /-- The content of a file, a module or an implementation. -/
  items : Parser (List (Annotated ParsedItem))

namespace Grammar

/-- The grammar in which nothing can be read. -/
def empty : Grammar where
  type := failure
  pattern := failure
  expression _ := failure
  blockLike := failure
  statements := failure
  items := failure

end Grammar

/-- The fragments of some expressions, in order. -/
def Expression.allFragments (expressions : List Expression) : List Fragment :=
  expressions.flatMap Expression.fragments

/-- The fragments of some patterns, in order. -/
def Pattern.allFragments (patterns : List Pattern) : List Fragment :=
  patterns.flatMap Pattern.fragments

namespace Grammar

open ProgramIdl.Syntax.Parser

/-! ## Attributes -/

/-- An attribute: a path, then nothing, an equals sign and a value, or a group of arguments. -/
def attributeBody (g : Grammar) : Parser Unit := do
  let _ ← maybe (symbol "::")
  let _ ← anyWord
  let _ ← many (symbol "::" *> anyWord)
  let _ ← maybe (skip (mark '=' *> g.expression true) <|> skip anyGroup)

/-- An outer attribute, with the comments in front of it. -/
def outerAttribute (g : Grammar) : Parser (List String) := fun trees =>
  match trees with
  | hash :: body :: rest =>
      if hash.isMark '#' then
        (inside .bracket (attributeBody g) [body]).map fun _ =>
          (hash.first.comments ++ [sourceText [hash, body]], rest)
      else none
  | _ => none

/-- An inner attribute; only the comments in front of it are kept. -/
def innerAttribute (g : Grammar) : Parser (List String) := fun trees =>
  match trees with
  | hash :: bang :: body :: rest =>
      if hash.isMark '#' && bang.isMark '!' then
        (inside .bracket (attributeBody g) [body]).map fun _ => (hash.first.comments, rest)
      else none
  | _ => none

/-- The attributes in front of something, with their comments. -/
def attributes (g : Grammar) : Parser Annotations := do
  return (← many (outerAttribute g <|> innerAttribute g)).flatten

/-- Something with the annotations in front of it, of which some come before a comma. -/
def annotated {α : Type} (g : Grammar) (earlier : Annotations) (parser : Parser α) :
    Parser (Annotated α) := do
  let attributes ← attributes g
  match ← get with
  | [] => failure
  | tree :: _ =>
      let value ← parser
      return ⟨earlier ++ attributes ++ tree.first.comments, tree.first.line, value⟩

/-- Annotated things between commas; comments in front of a comma belong to what follows it. -/
def annotatedList {α : Type} (g : Grammar) (parser : Parser α) : Parser (List (Annotated α)) := do
  match ← maybe (annotated g [] parser) with
  | none => return []
  | some first =>
      let more ← many do
        let comma ← mark ','
        annotated g comma.comments parser
      let _ ← maybe (mark ',')
      return first :: more

/-! ## Paths and macro calls -/

/-- The segments of a path behind its first one. -/
def furtherSegments : Parser Unit :=
  skip (many (symbol "::" *> (skip segment <|> angles)))

/-- A path that starts with a name. -/
def plainPath : Parser Unit := do
  let _ ← maybe (symbol "::")
  let _ ← segment
  furtherSegments

/-- The type that a path starts from, perhaps taken for a trait, between angle brackets. -/
def startingType (g : Grammar) : Parser Unit := do
  let _ ← mark '<'
  let _ ← g.type
  let _ ← maybe (word "as" *> g.type)
  let _ ← mark '>'

/-- A path in an expression or a pattern. -/
def path (g : Grammar) : Parser Unit := do
  if ← ahead (headIs (Tree.isMark '<')) then
    startingType g
    symbol "::"
    let _ ← segment
    furtherSegments
  else plainPath

/-- The arguments of a macro call behind its path, with their delimiters. -/
def macroArguments : Parser String := do
  let _ ← mark '!'
  return sourceText [← anyGroup]

/-- A macro call as a fragment; what follows `macro_rules` is a definition instead. -/
def macroCall : Parser Fragment := do
  match ← get with
  | [] => failure
  | tree :: _ =>
      if tree.isWord "macro_rules" then failure
      let (_, path) ← withText plainPath
      return .macroCall path (← macroArguments) tree.first.start tree.first.line

end Grammar

end ProgramIdl.Syntax
