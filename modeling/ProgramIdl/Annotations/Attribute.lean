import ProgramIdl.Text.Compact
import ProgramIdl.Text.QualifiedName

/-!
# Attributes

An attribute such as `#[account(discriminator = Kind, final)]` has a path and, behind it, either a
list of arguments or a value.  An argument with an equals sign is a pair of a key and a value; any
other argument is a flag.
-/

set_option autoImplicit false

namespace ProgramIdl

open ProgramIdl.Text

/-- An attribute, read from its text. -/
structure Attribute where
  path : String
  /-- The text inside the parentheses. -/
  arguments : String := ""
  /-- What stands behind the equals sign of `#[path = value]`. -/
  value : Option String := none
  /-- The arguments `key = value`; each key stands once, with the value given last. -/
  pairs : List (String × String) := []
  /-- The other arguments. -/
  flags : List String := []
  deriving DecidableEq, Repr, Inhabited

namespace Attribute

/-- One argument of an attribute. -/
inductive Argument where
  | pair (key value : String)
  | flag (text : String)
  deriving DecidableEq, Repr

/-- An argument, read from its text; a doubled equals sign makes no pair. -/
def Argument.ofText (text : String) : Argument :=
  match cutAt '=' text.toList with
  | some (key, value) =>
      if value.head? = some '=' then .flag text
      else .pair (.ofList (trim key)) (.ofList (trim value))
  | none => .flag text

/-- A list of pairs with one value set. -/
def setPair (key value : String) : List (String × String) → List (String × String)
  | [] => [(key, value)]
  | (other, held) :: rest =>
      if other = key then (key, value) :: rest else (other, held) :: setPair key value rest

/-- An attr with one more argument. -/
def add (attr : Attribute) : Argument → Attribute
  | .pair key value => { attr with pairs := setPair key value attr.pairs }
  | .flag text => { attr with flags := attr.flags ++ [text] }

/-- The characters of an attribute path. -/
def isPathChar (c : Char) : Bool :=
  isWordChar c || c = ':'

/-- The path of an attribute and what stands between it and the closing bracket. -/
def sections? (text : String) : Option (String × List Char) :=
  match trim text.toList with
  | '#' :: rest =>
      match trimStart rest with
      | '[' :: rest =>
          let rest := trimStart rest
          let path := rest.takeWhile isPathChar
          match (trimStart (rest.dropWhile isPathChar)).reverse with
          | ']' :: body => if path.isEmpty then none else some (.ofList path, trim body.reverse)
          | _ => none
      | _ => none
  | _ => none

/-- An attribute, read from its text; any other text is none. -/
def parse? (text : String) : Option Attribute :=
  (sections? text).map fun (path, body) =>
    match body with
    | '(' :: _ =>
        let arguments := String.ofList (normalizeBlanks (unwrap ['('] [')'] body))
        ((splitTopLevel arguments).map Argument.ofText).foldl add
          { path := path, arguments := arguments }
    | '=' :: value => { path := path, value := some (.ofList (trim value)) }
    | _ => { path := path }

/-- The last segment of the path. -/
def name (attr : Attribute) : String :=
  lastSegment attr.path

/-- The value of a pair. -/
def argument? (attr : Attribute) (key : String) : Option String :=
  attr.pairs.lookup key

/-- Whether some flag has the given last segment. -/
def hasFlag (attr : Attribute) (flag : String) : Bool :=
  attr.flags.any fun item => lastSegment item = flag

end Attribute

end ProgramIdl
