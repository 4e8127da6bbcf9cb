/-!
# TOML values

The values of TOML.  Numbers, truth values and times are not told apart.  A document is built by
statements that name nested tables; the last item of an array of tables stands for the array.
-/

set_option autoImplicit false

namespace ProgramIdl.Toml

/-- A TOML value. -/
inductive Value where
  | text (value : String)
  /-- A number, a truth value or a time. -/
  | scalar
  | array (items : List Value)
  | table (entries : List (String × Value))
  deriving Repr, Inhabited

/-- The entries of a table. -/
abbrev Table := List (String × Value)

/-- The value behind a key. -/
def Table.find? (table : Table) (key : String) : Option Value :=
  List.lookup key table

/-- The names that lead to a table or a value. -/
abbrev Key := List String

/-- A table with the value behind a key replaced, or added at the end. -/
def Table.set (key : String) (value : Value) : Table → Table
  | [] => [(key, value)]
  | (other, held) :: rest =>
      if other = key then (key, value) :: rest else (other, held) :: Table.set key value rest

/-- A value with the table that it stands for changed; `arrays` says whether the last item of an array
stands for it. -/
def Value.alter (arrays : Bool) (change : Table → Option Table) : Value → Option Value
  | .table entries => (change entries).map .table
  | .array items =>
      if arrays then
        match items.getLast? with
        | some (.table entries) =>
            (change entries).map fun entries => .array (items.dropLast ++ [.table entries])
        | _ => none
      else none
  | _ => none

/-- A table with the one that a key leads to changed; tables that are missing on the way are
added. -/
def Table.alter (arrays : Bool) (change : Table → Option Table) : Key → Table → Option Table
  | [], table => change table
  | name :: key, table =>
      let held := (table.find? name).getD (.table [])
      (held.alter arrays (Table.alter arrays change key)).map fun value => table.set name value

/-- A table with a new entry. -/
def Table.add (name : String) (value : Value) (table : Table) : Option Table :=
  match table.find? name with
  | none => some (table.set name value)
  | some _ => none

/-- A table with an empty table added to the array behind a name. -/
def Table.append (name : String) (table : Table) : Option Table :=
  match table.find? name with
  | none => some (table.set name (.array [.table []]))
  | some (.array items) => some (table.set name (.array (items ++ [.table []])))
  | some _ => none

end ProgramIdl.Toml
