import ProgramIdl.Declaration.Basic
import ProgramIdl.Syntax.Item
import ProgramIdl.Text.Identifier

/-!
# Declarations inside function bodies

A body declares the seeds of derived addresses, the checks made on accounts, and the accounts that
each instruction takes.  Expressions are looked at as compact text in which a local name at the
front is replaced by what it is bound to.
-/

set_option autoImplicit false

namespace ProgramIdl

open ProgramIdl.Text
open ProgramIdl.Syntax

/-- The last segment of the path that a type or a callee starts with, without its arguments. -/
def typeName (text : String) : String :=
  lastSegment (.ofList ((trim text.toList).takeWhile fun c => isWordChar c || c = ':'))

/-! ## Arrays of seeds -/

/-- The text up to the bracket that closes an array, with `depth` more brackets to close before. -/
def untilClosed : Nat → List Char → Option (List Char)
  | _, [] => none
  | depth, c :: rest =>
      if c = '[' then (untilClosed (depth + 1) rest).map (c :: ·)
      else if c = ']' then
        match depth with
        | 0 => some []
        | depth + 1 => (untilClosed depth rest).map (c :: ·)
      else (untilClosed depth rest).map (c :: ·)

/-- Whether a text is an array, perhaps behind references. -/
def opensArray (text : List Char) : Bool :=
  (trimStart (text.dropWhile (· == '&'))).head? = some '['

/-- The elements of the first array in a text; those that are arrays themselves hold the bump and are
no seeds. -/
def seedElements? (text : String) : Option (List String) :=
  match text.toList.dropWhile (· ≠ '[') with
  | [] => none
  | _ :: rest =>
      (untilClosed 0 rest).map fun inner =>
        ((topLevelSegments [','] inner).filter fun element => !opensArray element).map .ofList

/-! ## Local bindings -/

/-- A local name with the compact text of its value, and the place behind which it holds.  No
binding is without a value. -/
@[ext]
structure Binding where
  name : String
  value : String
  value_ne : value ≠ ""
  stop : Nat
  deriving Repr

instance : DecidableEq Binding := fun _ _ => decidable_of_iff _ Binding.ext_iff.symm

/-- The bindings of a body, in order; a lone underscore binds nothing. -/
def bindings (body : List Fragment) : List Binding :=
  body.filterMap fun
    | .binding name value stop =>
        if present : compact value ≠ "" then
          if name = "_" then none else some ⟨name, compact value, present, stop⟩
        else none
    | _ => none

/-- What a name is bound to at a place: the last of the bindings that end before it. -/
def boundAt? (bindings : List Binding) (name : String) (place : Nat) : Option String :=
  (bindings.findRev? fun binding => binding.stop ≤ place && binding.name = name).map (·.value)

/-- A text with a local name at its front: the references to it, the name, and what follows. -/
structure LeadingName where
  reference : List Char
  name : List Char
  rest : List Char
  deriving DecidableEq, Repr

/-- The reference at the front of a text, with its blanks and `mut`, and what follows. -/
def splitReference : List Char → List Char × List Char
  | '&' :: rest =>
      let blanks := rest.takeWhile isBlank
      let target := rest.dropWhile isBlank
      match ['m', 'u', 't'].isPrefixOf? target with
      | some (c :: more) =>
          if isBlank c then
            ('&' :: blanks ++ ['m', 'u', 't'] ++ (c :: more).takeWhile isBlank, trimStart more)
          else ('&' :: blanks, target)
      | _ => ('&' :: blanks, target)
  | text => ([], text)

/-- The local name at the front of a text; a name in front of `!`, `(` or `::` is not local. -/
def leadingName? (text : List Char) : Option LeadingName :=
  let (reference, target) := splitReference text
  match target with
  | [] => none
  | c :: _ =>
      if c.isAlpha || c = '_' then
        let name := target.takeWhile isWordChar
        let rest := target.dropWhile isWordChar
        if rest.head? = some '!' || rest.head? = some '(' || [':', ':'].isPrefixOf rest then none
        else some ⟨reference, name, rest⟩
      else none

/-- A text with the local name at its front replaced by what it is bound to, if it is bound. -/
def substitute? (bindings : List Binding) (place : Nat) (text : String) : Option String := do
  let leading ← leadingName? text.toList
  let value ← boundAt? bindings (.ofList leading.name) place
  return .ofList leading.reference ++ value ++ .ofList leading.rest

/-- A text with the name at its front replaced a number of times, or until it is not bound. -/
def resolveSteps (bindings : List Binding) (place : Nat) : Nat → String → String
  | 0, text => text
  | steps + 1, text =>
      match substitute? bindings place text with
      | some next => resolveSteps bindings place steps next
      | none => text

/-- The longest chain of bindings that is followed. -/
def maxBindingSteps : Nat := 8

/-- A text with the local name at its front replaced by what it stands for at a place. -/
def resolve (bindings : List Binding) (place : Nat) (text : String) : String :=
  resolveSteps bindings place maxBindingSteps text

/-! ## Seeds and checks -/

/-- The functions whose first argument is an array of seeds. -/
def pdaFunctions : List String :=
  ["find_program_address", "try_find_program_address", "create_program_address", "assert_seeds",
    "assert_seeds_with_bump", "assert_canonical_bump"]

/-- The name of what a call calls. -/
def calleeName : Callee → String
  | .method _ name => name
  | .path text => typeName text

/-- The calls of seed macros in a body. -/
def seedCalls (path : String) (body : List Fragment) : List (Declared SeedCall) :=
  body.filterMap fun
    | .macroCall macroPath arguments start line =>
        let name := lastSegment macroPath
        if occursIn "seeds".toList name.toList then
          let arguments := splitTopLevel (stripDelimiters (compact arguments))
          some {
            name := name
            site := ⟨path, line⟩
            content := ⟨arguments.map (resolve (bindings body) start)⟩ }
        else none
    | _ => none

/-- The seeds of a derived address, from the first argument of a call. -/
def pdaSeeds? (bindings : List Binding) (start : Nat) (argument : String) :
    Option (List String) :=
  let first := resolve bindings start (compact argument)
  if opensArray first.toList then (seedElements? first).map (·.map (resolve bindings start))
  else none

/-- The calls in a body that derive an address from an array of seeds. -/
def pdaCalls (path : String) (body : List Fragment) : List (Declared PdaCall) :=
  body.filterMap fun
    | .call callee (argument :: _) start line =>
        if calleeName callee ∈ pdaFunctions then
          (pdaSeeds? (bindings body) start argument).map fun seeds =>
            { name := calleeName callee, site := ⟨path, line⟩, content := ⟨seeds⟩ }
        else none
    | _ => none

/-- The field of `self` that a text starts with. -/
def selfField? (text : List Char) : Option String :=
  let text := if text.head? = some '&' then text.drop 1 else text
  match "self.".toList.isPrefixOf? (trimStart text) with
  | some rest =>
      let name := rest.takeWhile isWordChar
      if name.isEmpty then none else some (.ofList name)
  | none => none

/-- The checks made in a body on fields of `self`. -/
def assertions (body : List Fragment) : List Assertion :=
  body.filterMap fun
    | .call (.method receiver method) arguments start _ =>
        let resolved (text : String) : String := resolve (bindings body) start (compact text)
        if "assert_".toList.isPrefixOf method.toList then
          (selfField? (resolved receiver).toList).map fun field =>
            { field := field, method := method, arguments := arguments.map resolved }
        else none
    | _ => none

/-! ## Dispatch -/

/-- The type whose conversion from accounts a text calls first. -/
def convertedType? : List Char → Option String
  | [] => none
  | c :: rest =>
      let word := (c :: rest).takeWhile isWordChar
      let call := dropTypeArguments ((c :: rest).dropWhile isWordChar)
      match "::try_from".toList.isPrefixOf? call with
      | some after =>
          if !word.isEmpty && (trimStart after).head? = some '(' then some (.ofList word)
          else convertedType? rest
      | none => convertedType? rest

/-- The enum and the variant that a pattern names. -/
def variantPattern? (pattern : String) : Option (String × String) :=
  let segments := pathSegments (compact pattern).toList
  if segments.all isIdentifier then
    match segments.reverse with
    | variant :: enum :: _ => some (.ofList enum, .ofList variant)
    | _ => none
  else none

/-- The choices of accounts in a body. -/
def dispatches (path : String) (body : List Fragment) : List (Declared Dispatch) :=
  body.filterMap fun
    | .arm pattern value line => do
        let (enum, variant) ← variantPattern? pattern
        let accounts ← convertedType? (compact value).toList
        return { name := variant, site := ⟨path, line⟩, content := ⟨enum, variant, accounts⟩ }
    | _ => none

end ProgramIdl
