import ProgramIdl.Declaration.Basic
import ProgramIdl.Failure
import ProgramIdl.Layout.Basic
import ProgramIdl.Text.QualifiedName

/-!
# Layouts of type tokens

A type token is an array of bytes, the name of a builtin type, or the name of a struct, whose fields
are laid out in turn.  A struct is laid out once and then remembered.  A struct that is met again
while it is being laid out would contain itself and has no layout.
-/

set_option autoImplicit false

namespace ProgramIdl

open ProgramIdl.Text

/-- What type tokens may refer to. -/
structure TypeTable where
  /-- The fields of structs, by name; the first entry of a name holds. -/
  records : List (String × List Field) := []
  /-- The texts of constants, by name; the first entry of a name holds. -/
  constants : List (String × String) := []
  /-- Where structs are declared, by name. -/
  sites : List (String × String) := []
  deriving Repr, Inhabited

/-- The declaration that a type token stands in, for messages. -/
structure Owner where
  name : String
  site : Option String := none
  deriving DecidableEq, Repr, Inhabited

/-- The failure to lay out a token that stands in some declaration. -/
def Owner.unsupported (owner : Owner) (token : String) : Failure :=
  .unsupportedType owner.name token owner.site

/-! ## Reading one token -/

/-- The element type and the length of an array type. -/
def arrayParts? (token : List Char) : Option (List Char × List Char) :=
  match token with
  | '[' :: rest =>
      match (dropFinalBreak rest).reverse with
      | ']' :: inner =>
          match cutAt ';' inner.reverse with
          | some (element, length) =>
              if '\n' ∈ trim length then none else some (trim element, trim length)
          | none => none
      | _ => none
  | _ => none

/-- The value of an integer literal, or of a constant that holds one. -/
def TypeTable.integer? (table : TypeTable) (text : String) : Option Int :=
  match Literal.integer? text with
  | some value => some value
  | none => do
      let name ← qualifiedName? (trim text.toList)
      let value ← table.constants.lookup (.ofList name)
      Literal.integer? value

/-- What a type token says. -/
inductive TypeToken where
  | known (layout : Layout)
  | record (name : String) (fields : List Field)
  | unknown
  deriving Repr

/-- What a type token says by a name. -/
def TypeTable.readName (table : TypeTable) (name : String) : TypeToken :=
  match Layout.builtin? name with
  | some layout => .known layout
  | none =>
      match table.records.lookup name with
      | some fields => .record name fields
      | none => .unknown

/-- What a type token says. -/
def TypeTable.read (table : TypeTable) (token : String) : TypeToken :=
  match arrayParts? token.toList with
  | some (element, length) =>
      if qualifiedName? element = some ['u', '8'] then
        match table.integer? (.ofList length) with
        | some length => .known (.bytes length)
        | none => .unknown
      else .unknown
  | none =>
      match qualifiedName? (trim token.toList) with
      | some name => table.readName (.ofList name)
      | none => .unknown

/-! ## Laying out structs -/

/-- What is remembered of the structs met so far. -/
structure LayoutMemory where
  /-- The structs laid out. -/
  finished : List (String × Layout) := []
  /-- The structs being laid out, innermost first. -/
  pending : List String := []
  deriving Repr, Inhabited

/-- A step that may fail; what it remembers outlives its failure. -/
abbrev Resolving := ExceptT Failure (StateM LayoutMemory)

/-- Notes that a struct is being laid out. -/
def LayoutMemory.enter (memory : LayoutMemory) (name : String) : LayoutMemory :=
  { memory with pending := name :: memory.pending }

/-- Notes that the innermost struct is no longer being laid out. -/
def LayoutMemory.leave (memory : LayoutMemory) : LayoutMemory :=
  { memory with pending := memory.pending.tail }

/-- Notes the layout of a struct. -/
def LayoutMemory.keep (memory : LayoutMemory) (name : String) (layout : Layout) : LayoutMemory :=
  { memory with finished := (name, layout) :: memory.finished }

/-- Runs a step while a struct is being laid out. -/
def within {α : Type} (name : String) (step : Resolving α) : Resolving α := fun memory =>
  let (outcome, memory) := step.run (memory.enter name)
  (outcome, memory.leave)

/-- The fields of a declaration, laid out one by one. -/
def layOutWith (resolve : Owner → String → Resolving Layout) (owner : Owner) :
    List Field → Resolving (List (Member Layout))
  | [] => return []
  | field :: rest => do
      let layout ← resolve owner field.type
      let members ← layOutWith resolve owner rest
      return ⟨field.name, field.type, layout, field.docs⟩ :: members

/-- The layout of a token, when at most `depth` structs may lie inside each other. -/
def TypeTable.resolveWithin (table : TypeTable) : Nat → Owner → String → Resolving Layout
  | depth, owner, token =>
      match table.read token with
      | .known layout => return layout
      | .unknown => throw (owner.unsupported token)
      | .record name fields => do
          let memory ← get
          match memory.finished.lookup name with
          | some layout => return layout
          | none =>
              if name ∈ memory.pending then throw (owner.unsupported token)
              match depth with
              | 0 => throw (owner.unsupported token)
              | depth + 1 =>
                  let inner : Owner := ⟨name, table.sites.lookup name⟩
                  let members ← within name
                    (layOutWith (table.resolveWithin depth) inner fields)
                  let layout := Layout.ofFields name members
                  modify (·.keep name layout)
                  return layout

/-- The layout of a token.  Structs inside each other are all different, so they are at most as many
as there are. -/
def TypeTable.resolve (table : TypeTable) (owner : Owner) (token : String) : Resolving Layout :=
  table.resolveWithin table.records.length owner token

/-- The layouts of the fields of a declaration. -/
def TypeTable.resolveFields (table : TypeTable) (owner : Owner) (fields : List Field) :
    Resolving (List (Member Layout)) :=
  layOutWith table.resolve owner fields

end ProgramIdl
