import ProgramIdl.Syntax.Grammar

/-!
# Types and patterns

The rules for types and for patterns.  Only their extent matters, the name that a plain pattern
binds, and the fragments inside array lengths and macro calls.
-/

set_option autoImplicit false

namespace ProgramIdl.Syntax.Grammar

open ProgramIdl.Syntax.Parser

/-! ## Types -/

/-- The content of an array or slice type. -/
def arrayType (g : Grammar) : Parser (List Fragment) := do
  let element ← g.type
  match ← maybe (mark ';' *> g.expression true) with
  | some length => return element ++ length.fragments
  | none => return element

/-- The arrow and type of a result, if there is one. -/
def resultType (g : Grammar) : Parser (List Fragment) := do
  if ← ahead (startsWithSymbol ['-', '>']) then
    symbol "->"
    g.type
  else return []

/-- One segment of a path type behind its name: generic arguments, or argument types in
parentheses. -/
def typeArguments (g : Grammar) : Parser (List Fragment) := do
  if ← ahead (headIs (Tree.isMark '<')) then
    angles
    return []
  else
    let types ← inside .parenthesis (commaSeparated g.type)
    return types.flatten ++ (← resultType g)

/-- A path type, or a macro call in the place of one. -/
def pathType (g : Grammar) : Parser (List Fragment) := do
  match ← maybe macroCall with
  | some fragment => return [fragment]
  | none =>
      if ← ahead (headIs (Tree.isMark '<')) then
        startingType g
        symbol "::"
      else
        let _ ← maybe (symbol "::")
      let _ ← segment
      let first ← maybe (typeArguments g)
      let more ← many do
        symbol "::"
        let _ ← maybe segment
        return (← maybe (typeArguments g)).getD []
      return first.getD [] ++ more.flatten

/-- A bound of a trait object: a trait or a lifetime, with its modifiers. -/
def bound (g : Grammar) : Parser (List Fragment) := do
  if ← ahead (headIs (Tree.isKind .lifetime)) then
    let _ ← lifetime
    return []
  else
    let _ ← many (skip (mark '?') <|> skip (mark '~') <|> skip (word "const") <|>
      skip (word "async") <|> (word "for" *> angles) <|> (word "use" *> angles))
    if ← ahead (headIs (Tree.isGroup .parenthesis)) then
      inside .parenthesis g.type
    else pathType g

/-- Bounds with plus signs between them. -/
def bounds (g : Grammar) : Parser (List Fragment) := do
  let first ← bound g
  let more ← many (mark '+' *> bound g)
  let _ ← maybe (mark '+')
  return first ++ more.flatten

/-- A parameter of a function pointer. -/
def pointerParameter (g : Grammar) : Parser (List Fragment) := do
  let _ ← attributes g
  if ← ahead (startsWithSymbol ['.', '.', '.']) then
    symbol "..."
    return []
  else
    let _ ← maybe do
      let _ ← anyWord
      if ← ahead (startsWithSymbol [':', ':']) then failure
      mark ':'
    g.type

/-- A function pointer. -/
def pointerType (g : Grammar) : Parser (List Fragment) := do
  let _ ← many (skip (word "unsafe") <|> (word "extern" *> skip (maybe literal)))
  let _ ← word "fn"
  let parameters ← inside .parenthesis (commaSeparated (pointerParameter g))
  return parameters.flatten ++ (← resultType g)

/-- A type. -/
def typeRule (g : Grammar) : Parser (List Fragment) := do
  let trees ← get
  if headIs (Tree.isMark '&') trees then
    let _ ← mark '&'
    let _ ← maybe lifetime
    let _ ← maybe (word "mut")
    g.type
  else if headIs (Tree.isMark '*') trees then
    let _ ← mark '*'
    skip (word "const") <|> skip (word "mut")
    g.type
  else if headIs (Tree.isMark '!') trees then
    let _ ← mark '!'
    return []
  else if headIs (Tree.isGroup .parenthesis) trees then
    return (← inside .parenthesis (commaSeparated g.type)).flatten
  else if headIs (Tree.isGroup .bracket) trees then
    inside .bracket (arrayType g)
  else if headIsWord ["impl", "dyn"] trees then
    let _ ← anyWord
    bounds g
  else if headIsWord ["for"] trees then
    let _ ← word "for"
    angles
    g.type
  else if headIsWord ["unsafe", "extern", "fn"] trees then
    pointerType g
  else if headIsWord ["_"] trees then
    let _ ← anyWord
    return []
  else pathType g

/-! ## Patterns -/

/-- Alternatives of a pattern; a single one keeps what it binds. -/
def alternatives (g : Grammar) (single : Parser Pattern) : Parser Pattern := do
  let leading ← maybe (mark '|')
  let first ← single
  let more ← many (mark '|' *> g.pattern)
  if more.isEmpty && leading.isNone then return first
  else return { fragments := Pattern.allFragments (first :: more) }

/-- A pattern behind at least one tree of its surroundings. -/
def nestedPattern (g : Grammar) : Parser Pattern :=
  alternatives g g.pattern

/-- The end of a range in a pattern. -/
def rangeEnd (g : Grammar) : Parser Unit := do
  let _ ← maybe (mark '-')
  skip literal <|> path g

/-- What follows the start of a range: an end that belongs to it, or perhaps one that does not. -/
def rangeTail (g : Grammar) : Parser Unit :=
  ((symbol "..=" <|> symbol "...") *> rangeEnd g) <|> (symbol ".." *> skip (maybe (rangeEnd g)))

/-- One field of a struct pattern. -/
def fieldPattern (g : Grammar) : Parser Pattern := do
  let _ ← attributes g
  if ← ahead (startsWithSymbol ['.', '.']) then
    symbol ".."
    return {}
  else
    let named ← maybe do
      let _ ← skip anyWord <|> skip literal
      let _ ← mark ':'
      nestedPattern g
    match named with
    | some pattern => return pattern
    | none =>
        let _ ← maybe (word "box")
        let _ ← maybe (word "ref")
        let _ ← maybe (word "mut")
        let _ ← name
        return {}

/-- A pattern that starts with a path: a name to bind, a constant, a macro call, or the pattern of a
struct or of a range. -/
def pathPattern (g : Grammar) : Parser Pattern := do
  match ← maybe macroCall with
  | some fragment => return { fragments := [fragment] }
  | none =>
      let start ← get
      path g
      let rest ← get
      let binding :=
        match start with
        | .leaf token :: _ => if rest.length + 1 = start.length then some token.name else none
        | _ => none
      if headIs (Tree.isGroup .parenthesis) rest then
        let fields ← inside .parenthesis (commaSeparated (nestedPattern g))
        return { fragments := Pattern.allFragments fields }
      else if headIs (Tree.isGroup .brace) rest then
        let fields ← inside .brace (commaSeparated (fieldPattern g))
        return { fragments := Pattern.allFragments fields }
      else if headIs (Tree.isMark '@') rest then
        let _ ← mark '@'
        return { fragments := (← g.pattern).fragments }
      else if startsWithSymbol ['.', '.'] rest then
        rangeTail g
        return {}
      else return { binding := binding }

/-- A pattern without alternatives. -/
def patternRule (g : Grammar) : Parser Pattern := do
  let trees ← get
  if headIs (Tree.isMark '&') trees then
    let _ ← mark '&'
    let _ ← maybe (word "mut")
    return { fragments := (← g.pattern).fragments }
  else if headIs (Tree.isGroup .parenthesis) trees then
    let parts ← inside .parenthesis (commaSeparated (nestedPattern g))
    return { fragments := Pattern.allFragments parts }
  else if headIs (Tree.isGroup .bracket) trees then
    let parts ← inside .bracket (commaSeparated (nestedPattern g))
    return { fragments := Pattern.allFragments parts }
  else if headIs (Tree.isKind .literal) trees || headIs (Tree.isMark '-') trees then
    let _ ← maybe (mark '-')
    let _ ← literal
    let _ ← maybe (rangeTail g)
    return {}
  else if startsWithSymbol ['.', '.'] trees then
    rangeTail g
    return {}
  else if headIsWord ["ref", "mut"] trees then
    let _ ← maybe (word "ref")
    let _ ← maybe (word "mut")
    let _ ← segment
    match ← maybe (mark '@' *> g.pattern) with
    | some pattern => return { fragments := pattern.fragments }
    | none => return {}
  else if headIsWord ["box"] trees then
    let _ ← word "box"
    return { fragments := (← g.pattern).fragments }
  else if headIsWord ["const"] trees then
    let _ ← word "const"
    return { fragments := ← inside .brace g.statements }
  else pathPattern g

end ProgramIdl.Syntax.Grammar
