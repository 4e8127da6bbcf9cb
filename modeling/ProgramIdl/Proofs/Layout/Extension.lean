import ProgramIdl.Proofs.Layout.Typing

/-!
# Larger tables

A table of structs and constants that says more than another one gives every token the layout that it
has by the other one (`TypeTable.HasType.extend`).
-/

set_option autoImplicit false

namespace ProgramIdl

open ProgramIdl.Text

/-- A table that says the same as another one of every name that the other one knows. -/
structure TypeTable.Extends (other table : TypeTable) : Prop where
  records : ∀ {name fields}, table.records.lookup name = some fields →
    other.records.lookup name = some fields
  constants : ∀ {name value}, table.constants.lookup name = some value →
    other.constants.lookup name = some value

namespace TypeTable

variable {table other : TypeTable}

theorem Extends.integer? (larger : other.Extends table) {text : String} {value : Int}
    (found : table.integer? text = some value) : other.integer? text = some value := by
  rw [TypeTable.integer?] at found ⊢
  cases literal : Literal.integer? text with
  | some number =>
      rw [literal] at found
      exact found
  | none =>
      simp only [literal, Option.bind_eq_bind, Option.bind_eq_some_iff] at found ⊢
      obtain ⟨name, qualified, held, looked, number⟩ := found
      exact ⟨name, qualified, held, larger.constants looked, number⟩

mutual

/-- A layout stays when the table grows. -/
theorem HasType.extend (larger : other.Extends table) {token : String} {layout : Layout} :
    table.HasType token layout → other.HasType token layout
  | .array spelled bytes known => .array spelled bytes (larger.integer? known)
  | .builtin qualified known => .builtin qualified known
  | .record qualified unknown declared typed =>
      .record qualified unknown (larger.records declared) (typed.extend larger)

theorem FieldsHaveType.extend (larger : other.Extends table) {fields : List Field}
    {members : List (Member Layout)} :
    table.FieldsHaveType fields members → other.FieldsHaveType fields members
  | .nil => .nil
  | .cons head tail => .cons (head.extend larger) (tail.extend larger)

end

end TypeTable

end ProgramIdl
