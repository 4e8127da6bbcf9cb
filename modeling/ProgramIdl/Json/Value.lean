/-!
# JSON values

The values of JSON.  Whole numbers are kept apart from all others, which are kept by their text, and
the fields of an object are kept in order.
-/

set_option autoImplicit false

namespace ProgramIdl.Json

/-- A JSON value. -/
inductive Value where
  | null
  | boolean (value : Bool)
  | integer (value : Int)
  /-- A number with a fraction or an exponent, or one that is not finite. -/
  | number (text : String)
  | text (value : String)
  | array (items : List Value)
  | object (fields : List (String × Value))
  deriving Repr, Inhabited

/-- A whole number with more digits than this is neither written nor read. -/
def maxDigits : Nat := 4300

/-- Whether a whole number has too many digits. -/
def exceedsLimit (value : Int) : Bool :=
  (Nat.toDigits 10 value.natAbs).length > maxDigits

/-- An array of texts. -/
def Value.texts (values : List String) : Value :=
  .array (values.map .text)

end ProgramIdl.Json
