import ProgramIdl.Annotations

/-!
# Items

What a source file says, as far as an interface description needs it.  Items keep the text of their
types and values; a function body keeps, in source order, its fragments: the local bindings, macro
calls, function calls and match arms in it, an outer one before those inside it.
-/

set_option autoImplicit false

namespace ProgramIdl.Syntax

/-- A name that something is given; it has characters. -/
structure Name where
  text : String
  text_ne : text ≠ ""
  deriving DecidableEq, Repr

/-- What a call calls: a method of a receiver, or whatever another expression denotes. -/
inductive Callee where
  | method (receiver name : String)
  | path (text : String)
  deriving DecidableEq, Repr

/-- A part of a function body. -/
inductive Fragment where
  /-- `let name = value;`, which ends at a place of the text. -/
  | binding (name value : String) (stop : Nat)
  /-- `path!(arguments)`; the arguments keep their delimiters. -/
  | macroCall (path arguments : String) (start line : Nat)
  | call (callee : Callee) (arguments : List String) (start line : Nat)
  /-- An arm of a `match`; the pattern includes its guard. -/
  | arm (pattern value : String) (line : Nat)
  deriving DecidableEq, Repr

/-- Something with the comments and attributes in front of it, and the line on which it starts. -/
structure Annotated (α : Type) where
  annotations : Annotations
  line : Nat
  value : α
  deriving Repr

/-- A field of a struct with named fields. -/
structure FieldItem where
  name : Name
  type : String
  deriving DecidableEq, Repr

/-- A variant of an enum, with the text of its value. -/
structure VariantItem where
  name : Name
  value : Option String
  deriving DecidableEq, Repr

/-- The body of a struct. -/
inductive RecordBody where
  | named (fields : List (Annotated FieldItem))
  | tuple
  | unit
  deriving Repr

/-- One rule of a declarative macro: what it matches and what it yields, with their delimiters. -/
structure MacroRule where
  matcher : String
  body : String
  deriving DecidableEq, Repr

/-- An item of a file, a module or a body. -/
inductive Item where
  | record (name : Name) (body : RecordBody)
  | enumeration (name : Name) (variants : List (Annotated VariantItem))
  | constant (name : Name) (type value : String)
  | macroCall (path arguments : String)
  | macroRules (name : Name) (rules : List MacroRule)
  | module (items : List (Annotated Item))
  | function (name : Name) (body : List Fragment)
  /-- An implementation of a trait or of a type's own functions, with the bodies of its functions. -/
  | implementation (ofTrait : String) (target : String) (bodies : List (List Fragment))
  /-- An item that says nothing about the interface. -/
  | other

end ProgramIdl.Syntax
