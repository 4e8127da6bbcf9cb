import ProgramIdl.Json.Render
import ProgramIdl.LittleEndian
import ProgramIdl.Program.Basic
import ProgramIdl.Text.Utf8

/-!
# Interface schemas

The schema of a program is a JSON document: every node is an object whose fields stand in a fixed
order, and what says nothing is left out.  A program without an address has no schema.
-/

set_option autoImplicit false

namespace ProgramIdl.Schema

open ProgramIdl.Text

/-- A field that is there only if it has a value. -/
def fieldIf (name : String) : Option Json.Value → List (String × Json.Value)
  | some value => [(name, value)]
  | none => []

/-! ## Types and fields -/

/-- An integer type. -/
def integerType (width : Int) (signed : Bool) : Json.Value :=
  .object [("kind", .text "integer"), ("width", .integer width), ("signed", .boolean signed),
    ("endian", .text "little")]

mutual

/-- A type. -/
def ofLayout : Layout → Json.Value
  | .integer width signed => integerType width signed
  | .boolean width => .object [("kind", .text "boolean"), ("width", .integer width)]
  | .array width length =>
      .object [("kind", .text "array"), ("width", .integer width), ("length", .integer length)]
  | .address width =>
      .object [("kind", .text "address"), ("width", .integer width), ("endian", .text "little")]
  | .record width name fields =>
      .object [("kind", .text "struct"), ("name", .text name), ("width", .integer width),
        ("fields", .array (ofMembers fields))]

/-- A field. -/
def ofMember : Member Layout → Json.Value
  | ⟨name, _, type, docs⟩ =>
      .object [("name", .text name), ("type", ofLayout type), ("docs", .texts docs)]

/-- Some fields. -/
def ofMembers : List (Member Layout) → List Json.Value
  | [] => []
  | member :: rest => ofMember member :: ofMembers rest

end

/-! ## Discriminated structs -/

/-- The bytes of a discriminator. -/
def discriminatorBytes (layout : TaggedLayout) : Except Failure (List UInt8) :=
  match LittleEndian.encode? layout.width layout.value with
  | some bytes => .ok bytes
  | none => .error (.unencodable layout.value layout.width)

/-- The number of each byte. -/
def byteNumbers (bytes : List UInt8) : Json.Value :=
  .array (bytes.map fun byte => .integer byte.toNat)

/-- The fields of a struct, with that of its discriminator first. -/
def allFields (layout : TaggedLayout) : Json.Value :=
  let discriminator : Json.Value :=
    .object [("name", .text "discriminator"), ("type", integerType layout.width false),
      ("docs", .array [])]
  .array (discriminator :: ofMembers layout.fields)

/-- An account or an event. -/
def ofTagged (layout : TaggedLayout) : Except Failure Json.Value := do
  let bytes ← discriminatorBytes layout
  return .object [("name", .text layout.name), ("discriminator", byteNumbers bytes),
    ("fields", allFields layout), ("docs", .texts layout.docs)]

/-! ## Instructions -/

/-- The address that an account has when none is given, in a program with a given address. -/
def ofDefault (programAddress : String) : DefaultAddress → Json.Value
  | .program => .object [("kind", .text "programId"), ("address", .text programAddress)]
  | .known address => .object [("kind", .text "publicKey"), ("address", .text address)]

/-- An account that an instruction takes. -/
def ofSlot (programAddress : String) (slot : AccountSlot) : Json.Value :=
  .object ([("name", .text slot.name), ("isSigner", .boolean slot.isSigner),
      ("isWritable", .boolean slot.isWritable), ("isOptional", .boolean slot.isOptional),
      ("isPda", .boolean slot.isPda)]
    ++ fieldIf "pda" (slot.pda.map .text)
    ++ fieldIf "defaultValue" (slot.default.map (ofDefault programAddress))
    ++ [("docs", .texts slot.docs)])

/-- An instruction. -/
def ofInstruction (programAddress : String) (instruction : Instruction) :
    Except Failure Json.Value := do
  let layout := instruction.layout
  let bytes ← discriminatorBytes layout
  return .object [("name", .text layout.name), ("discriminator", byteNumbers bytes),
    ("accounts", .array (instruction.slots.map (ofSlot programAddress))),
    ("args", allFields layout), ("docs", .texts layout.docs)]

/-! ## Errors and derived addresses -/

/-- An error. -/
def ofError (error : ErrorCode) : Json.Value :=
  .object [("name", .text error.name), ("code", .integer error.code),
    ("message", .text error.message), ("docs", .texts error.docs)]

/-- Bytes as text in base sixteen. -/
def base16 (bytes : List UInt8) : String :=
  .ofList (bytes.flatMap fun byte => hexDigits 2 byte.toNat)

/-- A reference to an account or an argument. -/
def reference (kind name : String) (type : Option Layout) : Json.Value :=
  .object ([("kind", .text kind), ("name", .text name)] ++ fieldIf "type" (type.map ofLayout))

/-- A literal seed in an encoding. -/
def literal (encoding value : String) : Json.Value :=
  .object [("kind", .text "literal"), ("encoding", .text encoding), ("value", .text value)]

/-- A seed; literal bytes are shown as text if they are UTF-8. -/
def ofSeed : Seed → Json.Value
  | .literal bytes =>
      match utf8Decode bytes with
      | .ok text => literal "utf8" (.ofList text)
      | .error _ => literal "base16" (base16 bytes)
  | .account name type => reference "accountRef" name type
  | .argument name type => reference "argRef" name type
  | .unrecognized expression =>
      .object [("kind", .text "literal"), ("opaque", .boolean true), ("value", .text expression)]

/-- A derived address. -/
def ofPda (pda : Pda) : Json.Value :=
  .object [("name", .text pda.name), ("seeds", .array (pda.seeds.map ofSeed)),
    ("docs", .texts pda.docs)]

/-! ## The document -/

/-- The address of a program. -/
def addressOf (program : Program) : Except Failure String :=
  match program.address with
  | none | some "" => .error (.missingAddress program.name)
  | some address => .ok address

/-- The schema of a program, marked with a version. -/
def ofProgram (version : String) (program : Program) : Except Failure Json.Value := do
  let address ← addressOf program
  let accounts ← program.accounts.mapM ofTagged
  let instructions ← program.instructions.mapM (ofInstruction address)
  let events ← program.events.mapM ofTagged
  let body : Json.Value :=
    .object [("name", .text program.name), ("address", .text address),
      ("accounts", .array accounts), ("instructions", .array instructions),
      ("events", .array events), ("errors", .array (program.errors.map ofError)),
      ("pdas", .array (program.pdas.map ofPda))]
  return .object [("kind", .text "rootNode"), ("standard", .text "pina-idl"),
    ("version", .text version), ("program", body)]

/-- The text of a schema, with a line break at its end. -/
def render (style : Json.Style) (schema : Json.Value) : Except Failure String :=
  match Json.render? style schema with
  | some text => .ok (text ++ "\n")
  | none => .error (.serialization .tooManyDigits)

/-- The text of the schema of a program. -/
def textOf (version : String) (style : Json.Style) (program : Program) : Except Failure String := do
  render style (← ofProgram version program)

end ProgramIdl.Schema
