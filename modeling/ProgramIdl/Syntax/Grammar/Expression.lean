import ProgramIdl.Syntax.Grammar.Type

/-!
# Expressions and statements

The rules for expressions read operands and operators in the order in which they stand: how tightly
operators bind changes neither the extent of an expression nor the order of the calls in it.  A call
comes before the calls inside it, so the calls of a method chain are listed from the last written
one to the first.
-/

set_option autoImplicit false

namespace ProgramIdl.Syntax.Grammar

open ProgramIdl.Syntax.Parser

/-! ## Looking ahead -/

/-- Whether a word opens an expression that ends with a block. -/
def startsBlockLike (trees : List Tree) : Bool :=
  match trees with
  | tree :: next :: rest =>
      tree.isGroup .brace
        || ["if", "match", "while", "for", "loop"].any tree.isWord
        || (["unsafe", "const", "async", "try"].any tree.isWord && next.isGroup .brace)
        || (tree.isWord "async" && next.isWord "move" && headIs (Tree.isGroup .brace) rest)
        || (tree.isKind .lifetime && next.isMark ':')
  | [tree] => tree.isGroup .brace
  | [] => false

/-- Whether a closure starts here, perhaps behind its modifiers. -/
def startsClosure : List Tree → Bool
  | [] => false
  | tree :: rest =>
      tree.isMark '|' ||
        (["static", "async", "move", "const"].any tree.isWord && startsClosure rest)

/-- Whether an expression can start here. -/
def startsExpression (structs : Bool) : List Tree → Bool
  | [] => false
  | tree :: rest =>
      tree.isSegment || tree.isKind .literal || tree.isKind .lifetime
        || tree.isGroup .parenthesis || tree.isGroup .bracket || (structs && tree.isGroup .brace)
        || ['-', '!', '*', '&', '|', '<', '#'].any tree.isMark
        || startsWithSymbol [':', ':'] (tree :: rest) || startsWithSymbol ['.', '.'] (tree :: rest)
        || ["if", "match", "while", "for", "loop", "unsafe", "async", "move", "return", "break",
            "continue", "const", "static", "let", "yield"].any tree.isWord

/-- Whether a chain goes on behind an expression that ends with a block. -/
def continuesChain (trees : List Tree) : Bool :=
  headIs (Tree.isMark '?') trees ||
    (headIs (Tree.isMark '.') trees && !startsWithSymbol ['.', '.'] trees)

/-- The binary operators, longer ones before those they start with. -/
def binaryOperators : List String :=
  ["<<=", ">>=", "..=", "&&", "||", "==", "!=", "<=", ">=", "+=", "-=", "*=", "/=", "%=", "^=",
   "&=", "|=", "<<", ">>", "..", "+", "-", "*", "/", "%", "^", "&", "|", "=", "<", ">"]

/-- The binary operator that starts here; the arrow of a match arm is none. -/
def operatorAhead (trees : List Tree) : Option String :=
  if startsWithSymbol ['=', '>'] trees then none
  else binaryOperators.find? fun operator => startsWithSymbol operator.toList trees

/-! ## Chains -/

/-- A block. -/
def block (g : Grammar) : Parser (List Fragment) :=
  inside .brace g.statements

/-- One argument of a call: its text and its fragments. -/
def argument (g : Grammar) : Parser (String × List Fragment) := do
  let _ ← attributes g
  let (expression, text) ← withText (g.expression true)
  return (text, expression.fragments)

/-- The text of the trees that have been taken since some point. -/
def takenSince (start : List Tree) : Parser String := do
  return sourceText (start.take (start.length - (← get).length))

/-- What a call calls, given the text in front of its arguments. -/
def calleeOf (expression : Expression) (text : String) : Callee :=
  match expression.field with
  | some (receiver, name) => .method receiver name
  | none => .path text

/-- The position of a member of a tuple; positions in nested tuples may stand in one literal. -/
def position : Parser Token :=
  token fun tree => tree.isKind .literal && tree.first.isPosition

/-- A member behind a point: a field, an awaited value, or a method with generic arguments. -/
def member (start : List Tree) (expression : Expression) : Parser Expression := do
  let receiver ← takenSince start
  let _ ← mark '.'
  let member ← anyWord <|> position
  if member.name = "await" then return { fragments := expression.fragments }
  else if ← ahead (startsWithSymbol [':', ':']) then
    symbol "::"
    angles
    return { fragments := expression.fragments }
  else return { field := some (receiver, member.name), fragments := expression.fragments }

/-- An expression with one more link of its chain, if there is one; the chain began at `start`. -/
def link (g : Grammar) (start : List Tree) (expression : Expression) :
    Parser (Option Expression) := do
  let trees ← get
  if headIs (Tree.isMark '?') trees then
    let _ ← mark '?'
    return some { fragments := expression.fragments }
  else if headIs (Tree.isGroup .parenthesis) trees then
    let callee := calleeOf expression (← takenSince start)
    let arguments ← inside .parenthesis (commaSeparated (argument g))
    match start with
    | [] => failure
    | first :: _ =>
        return some {
          fragments :=
            .call callee (arguments.map Prod.fst) first.first.start first.first.line ::
              (expression.fragments ++ arguments.flatMap Prod.snd) }
  else if headIs (Tree.isGroup .bracket) trees then
    let index ← inside .bracket (g.expression true)
    return some { fragments := expression.fragments ++ index.fragments }
  else if continuesChain trees then
    return some (← member start expression)
  else return none

/-- An expression with at most a number of further links. -/
def links (g : Grammar) (start : List Tree) : Nat → Expression → Parser Expression
  | 0, expression => pure expression
  | count + 1, expression => do
      match ← link g start expression with
      | some longer => links g start count longer
      | none => return expression

/-- An expression that may be missing. -/
def maybeExpression (g : Grammar) (structs : Bool) : Parser (List Fragment) := do
  if ← ahead (startsExpression structs) then
    return (← g.expression structs).fragments
  else return []

/-- What follows an operand: casts, and an operator with another expression behind it. -/
def operations (g : Grammar) (structs : Bool) (expression : Expression) : Parser Expression := do
  let casts ← many (word "as" *> g.type)
  let trees ← get
  match operatorAhead trees with
  | none =>
      if casts.isEmpty then return expression
      else return { fragments := expression.fragments ++ casts.flatten }
  | some operator =>
      symbol operator
      let right ←
        if operator = ".." then maybeExpression g structs
        else (g.expression structs).map Expression.fragments
      return { fragments := expression.fragments ++ casts.flatten ++ right }

/-- The rest of an expression that starts with a block. -/
def blockChain (g : Grammar) (start : List Tree) (fragments : List Fragment) :
    Parser Expression := do
  let expression ← links g start start.length { fragments := fragments }
  operations g true expression

/-! ## Expressions that end with a block -/

/-- The value of a match arm; an expression that ends with a block needs no comma behind it. -/
def armValue (g : Grammar) : Parser (List Fragment × Bool) := do
  let start ← get
  if startsBlockLike start then
    let fragments ← g.blockLike
    if ← ahead continuesChain then
      return ((← blockChain g start fragments).fragments, false)
    else return (fragments, true)
  else
    return ((← g.expression true).fragments, false)

/-- An arm of a match. -/
def matchArm (g : Grammar) : Parser (List Fragment) := do
  let line := match ← get with
    | tree :: _ => tree.first.line
    | [] => 0
  let _ ← attributes g
  let (patternFragments, pattern) ← withText do
    let pattern ← nestedPattern g
    match ← maybe (word "if" *> g.expression true) with
    | some guard => return pattern.fragments ++ guard.fragments
    | none => return pattern.fragments
  symbol "=>"
  let ((fragments, complete), value) ← withText (armValue g)
  if complete then skip (maybe (mark ',')) else separator ','
  return .arm pattern value line :: (patternFragments ++ fragments)

/-- The condition of a conditional or a loop. -/
def condition (g : Grammar) : Parser (List Fragment) := do
  return (← g.expression false).fragments

/-- A conditional, behind the word that opens it. -/
def conditional (g : Grammar) : Parser (List Fragment) := do
  let condition ← condition g
  let body ← block g
  if ← ahead (headIsWord ["else"]) then
    let _ ← word "else"
    if ← ahead (headIsWord ["if"]) then
      return condition ++ body ++ (← g.blockLike)
    else return condition ++ body ++ (← block g)
  else return condition ++ body

/-- An expression that ends with a block. -/
def blockLikeRule (g : Grammar) : Parser (List Fragment) := do
  let trees ← get
  if headIs (Tree.isGroup .brace) trees then block g
  else if headIs (Tree.isKind .lifetime) trees then
    let _ ← lifetime
    let _ ← mark ':'
    g.blockLike
  else if headIsWord ["if"] trees then
    let _ ← word "if"
    conditional g
  else if headIsWord ["match"] trees then
    let _ ← word "match"
    let scrutinee ← condition g
    let arms ← inside .brace do
      let _ ← many (innerAttribute g)
      many (matchArm g)
    return scrutinee ++ arms.flatten
  else if headIsWord ["while"] trees then
    let _ ← word "while"
    return (← condition g) ++ (← block g)
  else if headIsWord ["for"] trees then
    let _ ← word "for"
    let pattern ← nestedPattern g
    let _ ← word "in"
    return pattern.fragments ++ (← condition g) ++ (← block g)
  else if headIsWord ["loop", "unsafe", "const", "try"] trees then
    let _ ← anyWord
    block g
  else if headIsWord ["async"] trees then
    let _ ← word "async"
    let _ ← maybe (word "move")
    block g
  else failure

/-! ## Operands -/

/-- The content of brackets: nothing, elements, or an element and its number. -/
def arrayElements (g : Grammar) : Parser (List Fragment) := do
  let repeated ← maybe do
    let element ← attributes g *> g.expression true
    let _ ← mark ';'
    return [element, ← g.expression true]
  match repeated with
  | some parts => return Expression.allFragments parts
  | none => return Expression.allFragments (← commaSeparated (attributes g *> g.expression true))

/-- One field of a struct literal. -/
def fieldValue (g : Grammar) : Parser (List Fragment) := do
  let _ ← attributes g
  if ← ahead (startsWithSymbol ['.', '.']) then
    symbol ".."
    match ← maybe (g.expression true) with
    | some base => return base.fragments
    | none => return []
  else
    skip anyWord <|> skip literal
    match ← maybe (mark ':' *> g.expression true) with
    | some value => return value.fragments
    | none => return []

/-- A parameter of a closure. -/
def closureParameter (g : Grammar) : Parser (List Fragment) := do
  let _ ← attributes g
  let pattern ← g.pattern
  match ← maybe (mark ':' *> g.type) with
  | some type => return pattern.fragments ++ type
  | none => return pattern.fragments

/-- A closure. -/
def closure (g : Grammar) (structs : Bool) : Parser (List Fragment) := do
  skipWhile fun tree => ["static", "async", "move", "const"].any tree.isWord
  let _ ← mark '|'
  let parameters ← commaSeparated (closureParameter g)
  let _ ← mark '|'
  if ← ahead (startsWithSymbol ['-', '>']) then
    let result ← resultType g
    return parameters.flatten ++ result ++ (← block g)
  else
    return parameters.flatten ++ (← g.expression structs).fragments

/-- A path, a macro call or a struct literal. -/
def pathExpression (g : Grammar) (structs : Bool) : Parser (List Fragment) := do
  match ← maybe macroCall with
  | some fragment => return [fragment]
  | none =>
      path g
      if (← ahead (headIs (Tree.isGroup .brace))) && structs then
        return (← inside .brace (commaSeparated (fieldValue g))).flatten
      else return []

/-- An operand before anything that may follow it. -/
def primary (g : Grammar) (structs : Bool) : Parser (List Fragment) := do
  let trees ← get
  if startsBlockLike trees then blockLikeRule g
  else if startsClosure trees then closure g structs
  else if headIs (Tree.isKind .literal) trees then
    let _ ← literal
    return []
  else if headIs (Tree.isGroup .parenthesis) trees then
    let parts ← inside .parenthesis do
      commaSeparated do
        let _ ← attributes g
        g.expression true
    return Expression.allFragments parts
  else if headIs (Tree.isGroup .bracket) trees then
    inside .bracket (arrayElements g)
  else if headIsWord ["return", "yield", "become"] trees then
    let _ ← anyWord
    maybeExpression g structs
  else if headIsWord ["break"] trees then
    let _ ← word "break"
    let _ ← maybe lifetime
    maybeExpression g structs
  else if headIsWord ["continue"] trees then
    let _ ← word "continue"
    let _ ← maybe lifetime
    return []
  else if headIsWord ["let"] trees then
    let _ ← word "let"
    let pattern ← nestedPattern g
    let _ ← mark '='
    return pattern.fragments ++ (← g.expression structs).fragments
  else pathExpression g structs

/-- An operand with all the links of its chain. -/
def operand (g : Grammar) (structs : Bool) : Parser Expression := do
  let start ← get
  let fragments ← primary g structs
  links g start start.length { fragments := fragments }

/-! ## Whole expressions -/

/-- The operators in front of an operand. -/
def prefixOperators : Parser Bool := do
  let marks ← many <|
    skip (mark '-') <|> skip (mark '!') <|> skip (mark '*') <|>
      (mark '&' *>
        (skip (word "raw" *> (word "const" <|> word "mut")) <|> skip (maybe (word "mut"))))
  return !marks.isEmpty

/-- An expression. -/
def expressionRule (g : Grammar) (structs : Bool) : Parser Expression := do
  let _ ← attributes g
  let isPrefixed ← prefixOperators
  if ← ahead (startsWithSymbol ['.', '.']) then
    match ← maybe (symbol "..=") with
    | some _ => return { fragments := (← g.expression structs).fragments }
    | none =>
        symbol ".."
        return { fragments := ← maybeExpression g structs }
  else
    let expression ← operand g structs
    let expression ← operations g structs expression
    if isPrefixed then return { fragments := expression.fragments } else return expression

/-! ## Statements -/

/-- A macro call with braces. -/
def bracedMacro : Parser Fragment := do
  let fragment ← macroCall
  match fragment with
  | .macroCall _ arguments _ _ =>
      if arguments.toList.head? = some '\x7b' then return fragment else failure
  | _ => failure

/-- A statement that is an expression. -/
def expressionStatement (g : Grammar) : Parser (List Fragment) := do
  let start ← get
  let opening ←
    if startsBlockLike start then
      some <$> blockLikeRule g
    else (maybe bracedMacro).map (·.map fun fragment => [fragment])
  match opening with
  | some fragments =>
      if ← ahead continuesChain then
        let expression ← blockChain g start fragments
        separator ';'
        return expression.fragments
      else return fragments
  | none =>
      let expression ← expressionRule g true
      separator ';'
      return expression.fragments

/-- A local binding; only a plain name that is given a value is kept as one. -/
def letStatement (g : Grammar) : Parser (List Fragment) := do
  let _ ← word "let"
  let _ ← maybe (word "mut")
  let pattern ← nestedPattern g
  let type ← maybe (mark ':' *> g.type)
  let value ← maybe (mark '=' *> withText (g.expression true))
  let otherwise ← maybe (word "else" *> block g)
  let semicolon ← mark ';'
  let fragments := pattern.fragments ++ type.getD []
  match value with
  | none => return fragments
  | some (expression, text) =>
      let fragments := fragments ++ expression.fragments ++ otherwise.getD []
      match pattern.binding with
      | some name => return .binding name text semicolon.stop :: fragments
      | none => return fragments

end ProgramIdl.Syntax.Grammar
