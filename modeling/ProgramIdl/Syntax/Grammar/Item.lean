import ProgramIdl.Syntax.Grammar.Expression

/-!
# Items and files

The rules for items and for the statements that may hold them.  A file is a list of items read by
the grammar whose depth is the number of its tokens, which no nesting exceeds.
-/

set_option autoImplicit false

namespace ProgramIdl.Syntax.Grammar

open ProgramIdl.Syntax.Parser

/-! ## Looking ahead -/

/-- The trees behind the qualifiers of a function. -/
def behindQualifiers : List Tree → List Tree
  | [] => []
  | tree :: rest =>
      if ["const", "async", "unsafe", "safe", "default", "extern", "gen"].any tree.isWord
          || tree.isKind .literal then
        behindQualifiers rest
      else tree :: rest

/-- Whether a function starts here. -/
def startsFunction (trees : List Tree) : Bool :=
  headIsWord ["fn"] (behindQualifiers trees)

/-- The trees behind a modifier of a trait, an implementation or a block of foreign items. -/
def behindModifiers (trees : List Tree) : List Tree :=
  trees.dropWhile fun tree => ["unsafe", "auto", "default"].any tree.isWord

/-- Whether a struct-like item with a contextual keyword starts here: the word and a name. -/
def startsContextual (keyword : String) : List Tree → Bool
  | tree :: next :: _ => tree.isWord keyword && next.isSegment
  | _ => false

/-- Whether a declarative macro is defined here. -/
def startsMacroRules : List Tree → Bool
  | tree :: bang :: name :: _ =>
      tree.isWord "macro_rules" && bang.isMark '!' && name.isKind .word
  | _ => false

/-- Whether a statement is an item. -/
def startsItem (trees : List Tree) : Bool :=
  startsFunction trees || startsMacroRules trees || startsContextual "union" trees
    || startsContextual "macro" trees
    || headIsWord ["struct", "enum", "mod", "use", "type", "pub"] trees
    || headIsWord ["trait", "impl", "extern"] (behindModifiers trees)
    || match trees with
      | tree :: next :: _ =>
          (tree.isWord "const" || tree.isWord "static") && next.isKind .word && !startsClosure trees
      | _ => false

/-! ## Parts of items -/

/-- The name that a token gives to something. -/
def given (token : Token) : Name where
  text := token.name
  text_ne := by
    rw [Token.name, ne_eq, ← String.toList_inj]
    simpa using token.text_ne

/-- A visibility. -/
def visibility : Parser Unit := do
  match ← maybe (word "pub") with
  | none => return
  | some _ =>
      skip <| maybe <| inside .parenthesis do
        skip (word "crate") <|> skip (word "self") <|> skip (word "super") <|>
          (word "in" *> plainPath)

/-- Generic parameters, if there are any. -/
def generics : Parser Unit :=
  skip (maybe angles)

/-- The bounds behind a colon, if there are any. -/
def boundsClause (g : Grammar) : Parser Unit :=
  skip (maybe (mark ':' *> maybe (bounds g)))

/-- A condition on generics: a type or a lifetime, and its bounds. -/
def genericCondition (g : Grammar) : Parser Unit := do
  skip lifetime <|> skip g.type
  let _ ← mark ':'
  skip (maybe (bounds g))

/-- The conditions on generics, if there are any. -/
def whereClause (g : Grammar) : Parser Unit :=
  skip (maybe (word "where" *> commaSeparated (genericCondition g)))

/-- The value behind an equals sign, with its text, if there is one. -/
def valueText (g : Grammar) : Parser (Option (Expression × String)) :=
  maybe (mark '=' *> withText (g.expression true))

/-- A named field. -/
def namedField (g : Grammar) : Parser (FieldItem × List Fragment) := do
  visibility
  let name ← name
  let _ ← mark ':'
  let (fragments, type) ← withText g.type
  return (⟨given name, type⟩, fragments)

/-- The fields of a braced body. -/
def namedFields (g : Grammar) : Parser (List (Annotated FieldItem) × List Fragment) := do
  let fields ← inside .brace (annotatedList g (namedField g))
  return (fields.map fun field => ⟨field.annotations, field.line, field.value.1⟩,
    fields.flatMap fun field => field.value.2)

/-- The types of a body in parentheses. -/
def tupleFields (g : Grammar) : Parser (List Fragment) := do
  let fields ← inside .parenthesis <| commaSeparated do
    let _ ← attributes g
    visibility
    g.type
  return fields.flatten

/-- A variant of an enum. -/
def variant (g : Grammar) : Parser (VariantItem × List Fragment) := do
  visibility
  let name ← name
  let body ←
    if ← ahead (headIs (Tree.isGroup .brace)) then (namedFields g).map Prod.snd
    else if ← ahead (headIs (Tree.isGroup .parenthesis)) then tupleFields g
    else pure []
  let value ← valueText g
  return (⟨given name, value.map Prod.snd⟩,
    body ++ (value.map fun value => value.1.fragments).getD [])

/-- A parameter of a function. -/
def parameter (g : Grammar) : Parser (List Fragment) := do
  let _ ← attributes g
  let named ← maybe do
    let pattern ← nestedPattern g
    let _ ← mark ':'
    if ← ahead (startsWithSymbol ['.', '.', '.']) then
      symbol "..."
      return pattern.fragments
    else return pattern.fragments ++ (← g.type)
  match named with
  | some fragments => return fragments
  | none =>
      if ← ahead (headIsWord ["mut"]) then
        let _ ← word "mut"
        let _ ← word "self"
        return []
      else if ← ahead (startsWithSymbol ['.', '.', '.']) then
        symbol "..."
        return []
      else g.type

/-! ## Items -/

/-- A struct. -/
def structRule (g : Grammar) : Parser ParsedItem := do
  let _ ← word "struct"
  let name ← name
  generics
  whereClause g
  if ← ahead (headIs (Tree.isGroup .brace)) then
    let (fields, fragments) ← namedFields g
    return ⟨.record (given name) (.named fields), fragments⟩
  else if ← ahead (headIs (Tree.isGroup .parenthesis)) then
    let fragments ← tupleFields g
    whereClause g
    let _ ← mark ';'
    return ⟨.record (given name) .tuple, fragments⟩
  else
    let _ ← mark ';'
    return ⟨.record (given name) .unit, []⟩

/-- A union. -/
def unionRule (g : Grammar) : Parser ParsedItem := do
  let _ ← word "union"
  let _ ← name
  generics
  whereClause g
  return ⟨.other, (← namedFields g).2⟩

/-- An enum. -/
def enumRule (g : Grammar) : Parser ParsedItem := do
  let _ ← word "enum"
  let name ← name
  generics
  whereClause g
  let variants ← inside .brace (annotatedList g (variant g))
  return ⟨.enumeration (given name)
      (variants.map fun variant => ⟨variant.annotations, variant.line, variant.value.1⟩),
    variants.flatMap fun variant => variant.value.2⟩

/-- A constant or a static. -/
def valueRule (g : Grammar) : Parser ParsedItem := do
  let keyword ← word "const" <|> word "static"
  let _ ← maybe (word "mut")
  let name ← name
  generics
  let _ ← mark ':'
  let (typeFragments, type) ← withText g.type
  let value ← valueText g
  let _ ← mark ';'
  let fragments := typeFragments ++ (value.map fun value => value.1.fragments).getD []
  if keyword.name = "const" then
    return ⟨.constant (given name) type ((value.map Prod.snd).getD ""), fragments⟩
  else return ⟨.other, fragments⟩

/-- A function. -/
def functionRule (g : Grammar) : Parser ParsedItem := do
  skipWhile fun tree => !tree.isWord "fn"
  let _ ← word "fn"
  let name ← name
  generics
  let parameters ← inside .parenthesis (commaSeparated (parameter g))
  let result ← resultType g
  whereClause g
  if ← ahead (headIs (Tree.isGroup .brace)) then
    let body ← block g
    return ⟨.function (given name) body, parameters.flatten ++ result ++ body⟩
  else
    let _ ← mark ';'
    return ⟨.other, parameters.flatten ++ result⟩

/-- The items of a braced body. -/
def itemBlock (g : Grammar) : Parser (List (Annotated ParsedItem)) :=
  inside .brace g.items

/-- The fragments of some items, in order. -/
def itemFragments (items : List (Annotated ParsedItem)) : List Fragment :=
  items.flatMap fun item => item.value.fragments

/-- The items without the fragments in them. -/
def plainItems (items : List (Annotated ParsedItem)) : List (Annotated Item) :=
  items.map fun item => ⟨item.annotations, item.line, item.value.item⟩

/-- The bodies of the functions among some items. -/
def functionBodies (items : List (Annotated ParsedItem)) : List (List Fragment) :=
  items.filterMap fun item =>
    match item.value.item with
    | .function _ body => some body
    | _ => none

/-- An implementation. -/
def implementationRule (g : Grammar) : Parser ParsedItem := do
  skipWhile fun tree => !tree.isWord "impl"
  let _ ← word "impl"
  generics
  let _ ← maybe (word "const")
  let _ ← maybe (mark '!')
  let (firstFragments, first) ← withText g.type
  let second ← maybe (word "for" *> withText g.type)
  whereClause g
  let items ← itemBlock g
  let bodies := functionBodies items
  match second with
  | some (fragments, target) =>
      return ⟨.implementation first target bodies,
        firstFragments ++ fragments ++ itemFragments items⟩
  | none => return ⟨.implementation "" first bodies, firstFragments ++ itemFragments items⟩

/-- A trait, or a name for some bounds. -/
def traitRule (g : Grammar) : Parser ParsedItem := do
  skipWhile fun tree => !tree.isWord "trait"
  let _ ← word "trait"
  let _ ← name
  generics
  boundsClause g
  whereClause g
  if ← ahead (headIs (Tree.isMark '=')) then
    skipWhile fun tree => !tree.isMark ';'
    let _ ← mark ';'
    return ⟨.other, []⟩
  else return ⟨.other, itemFragments (← itemBlock g)⟩

/-- A block of foreign items, or the import of a foreign crate. -/
def foreignRule (g : Grammar) : Parser ParsedItem := do
  let _ ← maybe (word "unsafe")
  let _ ← word "extern"
  if ← ahead (headIsWord ["crate"]) then
    let _ ← word "crate"
    let _ ← segment
    let _ ← maybe (word "as" *> anyWord)
    let _ ← mark ';'
    return ⟨.other, []⟩
  else
    let _ ← maybe literal
    return ⟨.other, itemFragments (← itemBlock g)⟩

/-- A module. -/
def moduleRule (g : Grammar) : Parser ParsedItem := do
  let _ ← word "mod"
  let _ ← name
  if ← ahead (headIs (Tree.isMark ';')) then
    let _ ← mark ';'
    return ⟨.other, []⟩
  else
    let items ← itemBlock g
    return ⟨.module (plainItems items), itemFragments items⟩

/-- What an import names: everything in a module, several things in braces, or one thing, perhaps
under another name; at most `depth` braces are nested. -/
def importTree : Nat → Parser Unit
  | 0 => failure
  | depth + 1 => do
      let _ ← maybe (symbol "::")
      let _ ← many (segment *> symbol "::")
      skip (mark '*') <|> skip (inside .brace (commaSeparated (importTree depth))) <|>
        (segment *> skip (maybe (word "as" *> anyWord)))

/-- An import. -/
def useRule : Parser ParsedItem := do
  let _ ← word "use"
  let trees ← get
  importTree (Tree.allTokens (trees.takeWhile fun tree => !tree.isMark ';')).length
  let _ ← mark ';'
  return ⟨.other, []⟩

/-- A type with another name. -/
def typeAliasRule (g : Grammar) : Parser ParsedItem := do
  let _ ← word "type"
  let _ ← name
  generics
  boundsClause g
  whereClause g
  let type ← maybe (mark '=' *> g.type)
  whereClause g
  let _ ← mark ';'
  return ⟨.other, type.getD []⟩

/-- One rule of a declarative macro. -/
def macroRule : Parser MacroRule := do
  let matcher ← anyGroup
  symbol "=>"
  let body ← anyGroup
  return ⟨sourceText [matcher], sourceText [body]⟩

/-- The rules of a declarative macro, between semicolons. -/
def macroRuleList : Parser (List MacroRule) := do
  let rules ← many do
    let rule ← macroRule
    separator ';'
    return rule
  return rules

/-- The definition of a declarative macro. -/
def macroRulesRule : Parser ParsedItem := do
  let _ ← word "macro_rules"
  let _ ← mark '!'
  let name ← anyWord
  if ← ahead (headIs (Tree.isGroup .brace)) then
    return ⟨.macroRules (given name) (← inside .brace macroRuleList), []⟩
  else
    let rules ← inside .parenthesis macroRuleList <|> inside .bracket macroRuleList
    let _ ← maybe (mark ';')
    return ⟨.macroRules (given name) rules, []⟩

/-- The definition of a macro of the newer kind. -/
def macroDefinitionRule : Parser ParsedItem := do
  let _ ← word "macro"
  let _ ← name
  let _ ← anyGroup
  let _ ← maybe anyGroup
  return ⟨.other, []⟩

/-- A macro call in the place of an item. -/
def macroCallRule : Parser ParsedItem := do
  let fragment ← macroCall
  match fragment with
  | .macroCall path arguments _ _ =>
      if arguments.toList.head? ≠ some '\x7b' then skip (maybe (mark ';'))
      return ⟨.macroCall path arguments, [fragment]⟩
  | _ => failure

/-- An item. -/
def itemRule (g : Grammar) : Parser ParsedItem := do
  if ← ahead (headIs (Tree.isMark ';')) then
    let _ ← mark ';'
    return ⟨.other, []⟩
  visibility
  let trees ← get
  if startsFunction trees then functionRule g
  else if startsMacroRules trees then macroRulesRule
  else if startsContextual "union" trees then unionRule g
  else if startsContextual "macro" trees then macroDefinitionRule
  else if headIsWord ["struct"] trees then structRule g
  else if headIsWord ["enum"] trees then enumRule g
  else if headIsWord ["const", "static"] trees then valueRule g
  else if headIsWord ["mod"] trees then moduleRule g
  else if headIsWord ["use"] trees then useRule
  else if headIsWord ["type"] trees then typeAliasRule g
  else if headIsWord ["impl"] (behindModifiers trees) then implementationRule g
  else if headIsWord ["trait"] (behindModifiers trees) then traitRule g
  else if headIsWord ["extern"] (behindModifiers trees) then foreignRule g
  else macroCallRule

/-- The items of a file, a module or an implementation. -/
def itemsRule (g : Grammar) : Parser (List (Annotated ParsedItem)) := do
  let items ← many (annotated g [] (itemRule g))
  let _ ← attributes g
  return items

/-! ## Statements -/

/-- A statement. -/
def statementRule (g : Grammar) : Parser (List Fragment) := do
  let _ ← attributes g
  let trees ← get
  if headIs (Tree.isMark ';') trees then
    let _ ← mark ';'
    return []
  else if headIsWord ["let"] trees then letStatement g
  else if startsItem trees then return (← itemRule g).fragments
  else expressionStatement g

/-- The content of a block. -/
def statementsRule (g : Grammar) : Parser (List Fragment) := do
  let statements ← many (statementRule g)
  let _ ← attributes g
  return statements.flatten

/-! ## The whole grammar -/

/-- The grammar over a given grammar for what is nested. -/
def step (g : Grammar) : Grammar where
  type := typeRule g
  pattern := patternRule g
  expression := expressionRule g
  blockLike := blockLikeRule g
  statements := statementsRule g
  items := itemsRule g

/-- The grammar of constructs whose nesting stays below a depth. -/
def ofDepth : Nat → Grammar
  | 0 => empty
  | depth + 1 => step (ofDepth depth)

end ProgramIdl.Syntax.Grammar

namespace ProgramIdl.Syntax

/-- The items of some token trees; none if they are not the items of a file.  Every nested construct
takes a token of its own, so the number of tokens bounds the depth. -/
def itemsOfTrees (trees : List Tree) : Option (List (Annotated Item)) :=
  let grammar := Grammar.ofDepth ((Tree.allTokens trees).length + 1)
  (Parser.all grammar.items trees).map Grammar.plainItems

/-- The items of a source text; none if the text is not well formed. -/
def itemsOf? (text : String) : Option (List (Annotated Item)) :=
  (trees? text).bind itemsOfTrees

end ProgramIdl.Syntax
