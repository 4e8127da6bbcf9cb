import ProgramIdl.Seed

/-!
# Program-derived addresses

An address derived from seeds is named after the macro that yields its seeds, or after the constant
that its first seed is.  Macros come first; of several addresses with one name, the first stays.
-/

set_option autoImplicit false

namespace ProgramIdl

open ProgramIdl.Text

/-- An address derived from seeds. -/
structure Pda where
  name : String := ""
  seeds : List Seed := []
  docs : List String := []
  deriving Repr, Inhabited

namespace Pda

/-- The name of the address whose seeds a macro yields. -/
def nameOfMacro (name : String) : String :=
  match "_seeds".toList.isSuffixOf? name.toList with
  | some rest => .ofList rest
  | none =>
      match "seeds_".toList.isPrefixOf? name.toList with
      | some rest => .ofList rest
      | none => name

/-- A name without an ending, unless it is nothing but the ending. -/
def dropEnding? (name ending : List Char) : Option (List Char) :=
  match ending.isSuffixOf? name with
  | some [] => none
  | rest => rest

/-- The name of the address whose first seed is a constant. -/
def nameOfConstant (name : String) : String :=
  let name := (lowercase name).toList
  .ofList ((["_seed".toList, "_prefix".toList].findSome? (dropEnding? name)).getD name)

/-- The name of the seed macro that an expression calls. -/
def seedMacro? (expression : String) : Option String := do
  let text := trim expression.toList
  let text := if text.head? = some '&' then text.drop 1 else text
  let (name, rest) ← Seed.afterWord? (trimStart text)
  match rest with
  | '!' :: rest =>
      let opened := (trimStart rest).head?.any fun c => c ∈ ['(', '[', '\x7b']
      if opened && occursIn "seeds".toList name.toList then some name else none
  | _ => none

/-- A text without the brackets that close it. -/
def dropClosing (text : List Char) : List Char :=
  (text.reverse.dropWhile (· = ']')).reverse

/-- The first element of an array, as far as the first comma. -/
def firstElement? (expression : String) : Option String :=
  match dereference expression.toList with
  | '[' :: rest =>
      let first :=
        match cutAt ',' rest with
        | some (first, _) => first
        | none => rest
      some (.ofList (dropClosing first))
  | _ => none

/-- The name of the address whose seeds an expression is. -/
def nameOfSeeds? (table : SeedTable) (expression : String) : Option String :=
  match seedMacro? expression with
  | some name => some (nameOfMacro name)
  | none => do
      let first ← firstElement? expression
      let (constant, _) ← table.byteConstant? first
      some (nameOfConstant constant)

/-- Whether a name is taken. -/
def taken (pdas : List Pda) (name : String) : Bool :=
  pdas.any fun pda => pda.name = name

/-- What the parameters of a macro are bound to by the arguments of a call; of two parameters with
one name the last counts. -/
def bindingsOf (params arguments : List String) (param : String) : Option String :=
  ((params.zip arguments).findRev? fun binding => binding.1 = param).map (·.2)

/-- Some addresses with the one whose seeds a macro yields, bound by its first call. -/
def addMacro (table : SeedTable) (calls : List (Declared SeedCall)) (pdas : List Pda)
    (definition : Declared SeedMacro) : Reporting (List Pda) :=
  let name := nameOfMacro definition.name
  if taken pdas name then return pdas
  else do
    let arguments :=
      match calls.find? fun call => call.name = definition.name with
      | some call => call.content.arguments
      | none => []
    let bound := bindingsOf definition.content.params arguments
    let seeds ← definition.content.seeds.mapM (table.classify bound)
    return pdas ++ [⟨name, seeds, definition.docs⟩]

/-- Some addresses with the one that a call derives from an array of seeds. -/
def addCall (table : SeedTable) (pdas : List Pda) (call : Declared PdaCall) :
    Reporting (List Pda) :=
  match call.content.seeds.head?.bind table.byteConstant? with
  | none => return pdas
  | some (constant, _) =>
      let name := nameOfConstant constant
      if taken pdas name then return pdas
      else do
        let seeds ← call.content.seeds.mapM table.classifyUnbound
        return pdas ++ [⟨name, seeds, []⟩]

/-- The addresses that macros and calls define. -/
def extract (table : SeedTable) (macros : List (Declared SeedMacro))
    (macroCalls : List (Declared SeedCall)) (calls : List (Declared PdaCall)) :
    Reporting (List Pda) := do
  let pdas ← macros.foldlM (addMacro table macroCalls) []
  calls.foldlM (addCall table) pdas

end Pda

end ProgramIdl
