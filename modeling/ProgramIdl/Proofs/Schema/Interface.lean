import ProgramIdl.Proofs.Json.RoundTrip
import ProgramIdl.Proofs.Program.DiscriminatorBytes
import ProgramIdl.Proofs.Schema.Shown

/-!
# The schema text determines the interface

The schema of a program that can be described is written in either style, each text is read back as
the very tree that has been written, and programs with equal texts show the same interface
(`textOf_determines`).
-/

set_option autoImplicit false

namespace ProgramIdl

open ProgramIdl.Text

/-! ## Programs that can be described -/

mutual

/-- The whole numbers in a layout. -/
def Layout.numbers : Layout → List Int
  | .integer width _ | .boolean width | .address width => [width]
  | .array width length => [width, length]
  | .record width _ fields => width :: Layout.memberNumbers fields

/-- The whole numbers in the layouts of some fields. -/
def Layout.memberNumbers : List (Member Layout) → List Int
  | [] => []
  | ⟨_, _, type, _⟩ :: rest => type.numbers ++ Layout.memberNumbers rest

end

/-- The whole numbers in a seed. -/
def Seed.numbers : Seed → List Int
  | .account _ (some type) | .argument _ (some type) => type.numbers
  | _ => []

/-- The whole numbers in the layout of a struct. -/
def TaggedLayout.numbers (layout : TaggedLayout) : List Int :=
  layout.width :: Layout.memberNumbers layout.fields

/-- The whole numbers that the schema of a program shows, save for bytes. -/
def Program.numbers (program : Program) : List Int :=
  program.tagged.flatMap TaggedLayout.numbers ++ program.errors.map (·.code)
    ++ program.pdas.flatMap fun pda => pda.seeds.flatMap Seed.numbers

/-- A program with an address, whose discriminators fit their widths and whose numbers can be
written. -/
structure Program.Describable (program : Program) : Prop where
  addressed : ∃ address, program.address = some address ∧ address ≠ ""
  fits : ∀ layout ∈ program.tagged,
    0 ≤ layout.value ∧ layout.value < LittleEndian.limit layout.width
  short : ∀ number ∈ program.numbers, Json.exceedsLimit number = false

section Tagged

variable {program : Program} {layout : TaggedLayout}

theorem Program.account_mem_tagged (listed : layout ∈ program.accounts) :
    layout ∈ program.tagged :=
  List.mem_append_left _ (List.mem_append_left _ listed)

theorem Program.event_mem_tagged (listed : layout ∈ program.events) : layout ∈ program.tagged :=
  List.mem_append_left _ (List.mem_append_right _ listed)

theorem Program.instruction_mem_tagged {instruction : Instruction}
    (listed : instruction ∈ program.instructions) : instruction.layout ∈ program.tagged :=
  List.mem_append_right _ (List.mem_map_of_mem listed)

end Tagged

namespace Schema

/-! ## Nodes that can be written -/

theorem plain_texts (values : List String) : Json.Plain (.texts values) := by
  refine .array fun item listed => ?_
  obtain ⟨value, _, rfl⟩ := List.mem_map.mp listed
  exact .text value

theorem plain_byteNumbers (bytes : List UInt8) : Json.Plain (byteNumbers bytes) := by
  refine .array fun item listed => ?_
  obtain ⟨byte, _, rfl⟩ := List.mem_map.mp listed
  have short : ∀ value < 256, Json.exceedsLimit (value : Nat) = false := by decide +kernel
  exact .integer (short _ byte.toNat_lt)

theorem plain_integerType {width : Int} (signed : Bool) (short : Json.exceedsLimit width = false) :
    Json.Plain (integerType width signed) := by
  refine .object ?_
  simp [Json.Plain.text, Json.Plain.boolean, Json.Plain.integer short]

mutual

theorem plain_ofLayout {layout : Layout}
    (short : ∀ number ∈ layout.numbers, Json.exceedsLimit number = false) :
    Json.Plain (ofLayout layout) := by
  cases layout with
  | integer width signed =>
      rw [Layout.numbers, List.forall_mem_singleton] at short
      exact plain_integerType signed short
  | boolean width =>
      rw [Layout.numbers, List.forall_mem_singleton] at short
      refine .object ?_
      simp [Json.Plain.text, Json.Plain.integer short]
  | array width length =>
      rw [Layout.numbers, List.forall_mem_cons, List.forall_mem_singleton] at short
      refine .object ?_
      simp [Json.Plain.text, Json.Plain.integer short.1, Json.Plain.integer short.2]
  | address width =>
      rw [Layout.numbers, List.forall_mem_singleton] at short
      refine .object ?_
      simp [Json.Plain.text, Json.Plain.integer short]
  | record width name fields =>
      rw [Layout.numbers, List.forall_mem_cons] at short
      refine .object ?_
      simp [Json.Plain.text, Json.Plain.integer short.1, Json.Plain.array (plain_ofMembers short.2)]

theorem plain_ofMembers {members : List (Member Layout)}
    (short : ∀ number ∈ Layout.memberNumbers members, Json.exceedsLimit number = false) :
    ∀ node ∈ ofMembers members, Json.Plain node := by
  cases members with
  | nil => simp [ofMembers]
  | cons member members =>
      obtain ⟨name, token, type, docs⟩ := member
      rw [Layout.memberNumbers, List.forall_mem_append] at short
      have node : Json.Plain (ofMember ⟨name, token, type, docs⟩) := by
        rw [ofMember]
        refine .object ?_
        simp [Json.Plain.text, plain_ofLayout short.1, plain_texts]
      rw [ofMembers, List.forall_mem_cons]
      exact ⟨node, plain_ofMembers short.2⟩

end

theorem plain_allFields {layout : TaggedLayout}
    (short : ∀ number ∈ layout.numbers, Json.exceedsLimit number = false) :
    Json.Plain (allFields layout) := by
  rw [TaggedLayout.numbers, List.forall_mem_cons] at short
  have discriminator : Json.Plain (.object [("name", .text "discriminator"),
      ("type", integerType layout.width false), ("docs", .array [])]) := by
    refine .object ?_
    simp [Json.Plain.text, plain_integerType false short.1, Json.Plain.array]
  refine .array ?_
  rw [List.forall_mem_cons]
  exact ⟨discriminator, plain_ofMembers short.2⟩

theorem plain_ofTagged {layout : TaggedLayout} {node : Json.Value}
    (short : ∀ number ∈ layout.numbers, Json.exceedsLimit number = false)
    (written : ofTagged layout = .ok node) : Json.Plain node := by
  obtain ⟨bytes, _, rfl⟩ := ofTagged_eq_ok_iff.mp written
  refine .object ?_
  simp [Json.Plain.text, plain_byteNumbers, plain_allFields short, plain_texts]

theorem plain_ofSlot (address : String) (slot : AccountSlot) :
    Json.Plain (ofSlot address slot) := by
  have defaults (value : DefaultAddress) : Json.Plain (ofDefault address value) := by
    cases value <;> exact .object (by simp [Json.Plain.text])
  refine .object ?_
  cases slot.pda <;> cases slot.default <;>
    simp [fieldIf, Json.Plain.text, Json.Plain.boolean, defaults, plain_texts]

theorem plain_ofInstruction {address : String} {instruction : Instruction} {node : Json.Value}
    (short : ∀ number ∈ instruction.layout.numbers, Json.exceedsLimit number = false)
    (written : ofInstruction address instruction = .ok node) : Json.Plain node := by
  obtain ⟨bytes, _, rfl⟩ := ofInstruction_eq_ok_iff.mp written
  have slots : Json.Plain (.array (instruction.slots.map (ofSlot address))) := by
    refine .array ?_
    simp [plain_ofSlot]
  refine .object ?_
  simp [Json.Plain.text, plain_byteNumbers, slots, plain_allFields short, plain_texts]

theorem plain_ofError {error : ErrorCode} (short : Json.exceedsLimit error.code = false) :
    Json.Plain (ofError error) := by
  refine .object ?_
  simp [Json.Plain.text, Json.Plain.integer short, plain_texts]

theorem plain_reference (kind name : String) {type : Option Layout}
    (short : ∀ layout ∈ type, ∀ number ∈ layout.numbers, Json.exceedsLimit number = false) :
    Json.Plain (reference kind name type) := by
  refine .object ?_
  cases type with
  | none => simp [fieldIf, Json.Plain.text]
  | some layout => simp [fieldIf, Json.Plain.text, plain_ofLayout (short layout rfl)]

theorem plain_ofSeed {seed : Seed}
    (short : ∀ number ∈ seed.numbers, Json.exceedsLimit number = false) :
    Json.Plain (ofSeed seed) := by
  cases seed with
  | literal bytes =>
      obtain ⟨encoding, value, shape⟩ := exists_ofSeed_literal bytes
      rw [shape]
      exact .object (by simp [Json.Plain.text])
  | account name type =>
      refine plain_reference _ _ fun layout given => ?_
      obtain rfl := Option.mem_def.mp given
      exact short
  | argument name type =>
      refine plain_reference _ _ fun layout given => ?_
      obtain rfl := Option.mem_def.mp given
      exact short
  | unrecognized expression => exact .object (by simp [Json.Plain.text, Json.Plain.boolean])

theorem plain_ofPda {pda : Pda}
    (short : ∀ seed ∈ pda.seeds, ∀ number ∈ seed.numbers, Json.exceedsLimit number = false) :
    Json.Plain (ofPda pda) := by
  have seeds : Json.Plain (.array (pda.seeds.map ofSeed)) := by
    refine .array fun node listed => ?_
    obtain ⟨seed, member, rfl⟩ := List.mem_map.mp listed
    exact plain_ofSeed (short seed member)
  refine .object ?_
  simp [Json.Plain.text, seeds, plain_texts]

/-! ## The document -/

theorem addressOf_eq_ok_iff {program : Program} {address : String} :
    addressOf program = .ok address ↔ program.address = some address ∧ address ≠ "" := by
  rw [addressOf]
  split
  · rename_i missing
    simp [missing]
  · rename_i empty
    simp [empty, eq_comm]
  · rename_i found nonempty given
    rw [given, Except.ok.injEq, Option.some.injEq]
    constructor
    · rintro rfl
      exact ⟨rfl, nonempty⟩
    · exact fun same => same.1

/-- The document around the nodes of a program. -/
def document (version address : String) (program : Program)
    (accounts instructions events : List Json.Value) : Json.Value :=
  .object [("kind", .text "rootNode"), ("standard", .text "pina-idl"), ("version", .text version),
    ("program", .object [("name", .text program.name), ("address", .text address),
      ("accounts", .array accounts), ("instructions", .array instructions),
      ("events", .array events), ("errors", .array (program.errors.map ofError)),
      ("pdas", .array (program.pdas.map ofPda))])]

/-- The nodes of the parts of a program that have discriminators. -/
structure Emits (program : Program) (address : String)
    (accounts instructions events : List Json.Value) : Prop where
  located : addressOf program = .ok address
  accounts : List.Forall₂ (fun layout node => ofTagged layout = .ok node) program.accounts accounts
  instructions : List.Forall₂ (fun instruction node => ofInstruction address instruction = .ok node)
    program.instructions instructions
  events : List.Forall₂ (fun layout node => ofTagged layout = .ok node) program.events events

theorem ofProgram_eq_ok_iff {version : String} {program : Program} {tree : Json.Value} :
    ofProgram version program = .ok tree ↔ ∃ address accounts instructions events,
      Emits program address accounts instructions events ∧
        document version address program accounts instructions events = tree := by
  simp only [ofProgram, bind_eq_ok_iff, mapM_eq_ok_iff, pure, Except.pure, Except.ok.injEq]
  constructor
  · rintro ⟨address, located, accounts, first, instructions, second, events, third, same⟩
    exact ⟨address, accounts, instructions, events, ⟨located, first, second, third⟩, same⟩
  · rintro ⟨address, accounts, instructions, events, ⟨located, first, second, third⟩, same⟩
    exact ⟨address, located, accounts, first, instructions, second, events, third, same⟩

/-- What nodes show, lists of them show one by one. -/
theorem map_eq_of_written {α β : Type} {node : α → Except Failure Json.Value} {view : α → β}
    (shows : ∀ {value other : α} {tree : Json.Value}, node value = .ok tree →
      node other = .ok tree → view value = view other)
    {values others : List α} {nodes : List Json.Value}
    (written : List.Forall₂ (fun value tree => node value = .ok tree) values nodes)
    (writtenToo : List.Forall₂ (fun value tree => node value = .ok tree) others nodes) :
    values.map view = others.map view := by
  induction written generalizing others with
  | nil =>
      cases writtenToo
      rfl
  | cons here later inductionHypothesis =>
      cases writtenToo with
      | cons hereToo laterToo =>
          rw [List.map_cons, List.map_cons, shows here hereToo, inductionHypothesis laterToo]

theorem plain_of_forall₂ {α : Type} {node : α → Except Failure Json.Value} {values : List α}
    {nodes : List Json.Value}
    (plain : ∀ value ∈ values, ∀ tree, node value = .ok tree → Json.Plain tree)
    (written : List.Forall₂ (fun value tree => node value = .ok tree) values nodes) :
    Json.Plain (.array nodes) := by
  refine .array fun tree listed => ?_
  obtain ⟨value, member, here⟩ := exists_left_of_forall₂ written listed
  exact plain value member tree here

section Programs

variable {version versionToo : String} {program other : Program} {tree : Json.Value}

theorem plain_ofProgram (describable : program.Describable)
    (written : ofProgram version program = .ok tree) : Json.Plain tree := by
  obtain ⟨address, accounts, instructions, events, emits, rfl⟩ := ofProgram_eq_ok_iff.mp written
  have short := describable.short
  rw [Program.numbers, List.forall_mem_append, List.forall_mem_append] at short
  obtain ⟨⟨shortTagged, shortErrors⟩, shortPdas⟩ := short
  have tagged : ∀ layout ∈ program.tagged, ∀ number ∈ layout.numbers,
      Json.exceedsLimit number = false := fun layout listed number inside =>
    shortTagged number (List.mem_flatMap_of_mem listed inside)
  have plainAccounts := plain_of_forall₂ (fun layout listed node => plain_ofTagged
    (tagged layout (Program.account_mem_tagged listed))) emits.accounts
  have plainEvents := plain_of_forall₂ (fun layout listed node => plain_ofTagged
    (tagged layout (Program.event_mem_tagged listed))) emits.events
  have plainInstructions := plain_of_forall₂ (fun instruction listed node => plain_ofInstruction
    (tagged instruction.layout (Program.instruction_mem_tagged listed)))
    emits.instructions
  have plainErrors : Json.Plain (.array (program.errors.map ofError)) := by
    refine .array fun node listed => ?_
    obtain ⟨error, member, rfl⟩ := List.mem_map.mp listed
    exact plain_ofError (shortErrors _ (List.mem_map_of_mem member))
  have plainPdas : Json.Plain (.array (program.pdas.map ofPda)) := by
    refine .array fun node listed => ?_
    obtain ⟨pda, member, rfl⟩ := List.mem_map.mp listed
    exact plain_ofPda fun seed inside number shown =>
      shortPdas number (List.mem_flatMap_of_mem member (List.mem_flatMap_of_mem inside shown))
  have body : Json.Plain (.object [("name", .text program.name), ("address", .text address),
      ("accounts", .array accounts), ("instructions", .array instructions),
      ("events", .array events), ("errors", .array (program.errors.map ofError)),
      ("pdas", .array (program.pdas.map ofPda))]) := by
    refine .object ?_
    simp [Json.Plain.text, plainAccounts, plainInstructions, plainEvents, plainErrors, plainPdas]
  refine .object ?_
  simp [Json.Plain.text, body]

theorem exists_discriminatorBytes (describable : program.Describable) {layout : TaggedLayout}
    (listed : layout ∈ program.tagged) : ∃ bytes, discriminatorBytes layout = .ok bytes := by
  obtain ⟨natural, fits⟩ := describable.fits layout listed
  exact ⟨_, discriminatorBytes_eq_ok_iff.mpr ⟨natural, fits, rfl⟩⟩

/-- A program that can be described has a schema. -/
theorem exists_ofProgram (describable : program.Describable) (version : String) :
    ∃ tree, ofProgram version program = .ok tree := by
  obtain ⟨address, given, nonempty⟩ := describable.addressed
  have tagged : ∀ layout ∈ program.tagged, ∃ node, ofTagged layout = .ok node := by
    intro layout listed
    obtain ⟨bytes, encoded⟩ := exists_discriminatorBytes describable listed
    exact ⟨_, ofTagged_eq_ok_iff.mpr ⟨bytes, encoded, rfl⟩⟩
  have instructed : ∀ instruction ∈ program.instructions,
      ∃ node, ofInstruction address instruction = .ok node := by
    intro instruction listed
    obtain ⟨bytes, encoded⟩ :=
      exists_discriminatorBytes describable (Program.instruction_mem_tagged listed)
    exact ⟨_, ofInstruction_eq_ok_iff.mpr ⟨bytes, encoded, rfl⟩⟩
  obtain ⟨accounts, first⟩ := exists_forall₂_iff.mpr fun layout listed =>
    tagged layout (Program.account_mem_tagged listed)
  obtain ⟨instructions, second⟩ := exists_forall₂_iff.mpr instructed
  obtain ⟨events, third⟩ := exists_forall₂_iff.mpr fun layout listed =>
    tagged layout (Program.event_mem_tagged listed)
  exact ⟨_, ofProgram_eq_ok_iff.mpr ⟨address, accounts, instructions, events,
    ⟨addressOf_eq_ok_iff.mpr ⟨given, nonempty⟩, first, second, third⟩, rfl⟩⟩

theorem ofProgram_inj (written : ofProgram version program = .ok tree)
    (writtenToo : ofProgram versionToo other = .ok tree) :
    version = versionToo ∧ program.shown = other.shown := by
  obtain ⟨address, accounts, instructions, events, emits, rfl⟩ := ofProgram_eq_ok_iff.mp written
  obtain ⟨addressToo, accountsToo, instructionsToo, eventsToo, emitsToo, same⟩ :=
    ofProgram_eq_ok_iff.mp writtenToo
  simp only [document, Json.Value.object.injEq, List.cons.injEq, Prod.mk.injEq,
    Json.Value.text.injEq, Json.Value.array.injEq, true_and, and_true] at same
  obtain ⟨rfl, name, rfl, rfl, rfl, rfl, errors, pdas⟩ := same
  have given := (addressOf_eq_ok_iff.mp emits.located).1
  have givenToo := (addressOf_eq_ok_iff.mp emitsToo.located).1
  have accounts := map_eq_of_written ofTagged_inj emits.accounts emitsToo.accounts
  have instructions :=
    map_eq_of_written ofInstruction_inj emits.instructions emitsToo.instructions
  have events := map_eq_of_written ofTagged_inj emits.events emitsToo.events
  have errors : other.errors.map id = program.errors.map id := map_eq_of_map_eq ofError_inj errors
  rw [List.map_id, List.map_id] at errors
  have pdas := map_eq_of_map_eq ofPda_inj pdas
  exact ⟨rfl, by rw [Program.shown, Program.shown, name, given, givenToo, accounts, instructions,
    events, errors, pdas]⟩

/-- The text of the schema of a program that can be described is there in either style, and is read
back as the schema. -/
theorem exists_textOf (describable : program.Describable)
    (written : ofProgram version program = .ok tree) (style : Json.Style) :
    ∃ text, textOf version style program = .ok text ∧ Json.read? text = some tree := by
  obtain ⟨text, rendered, read⟩ :=
    (plain_ofProgram describable written).read?_render? style
  refine ⟨text ++ "\n", ?_, read "\n" (List.all_eq_true.mp (by decide))⟩
  rw [textOf, written]
  simp only [bind, Except.bind]
  rw [render, rendered]

/-- The schema text determines the interface.  The texts of a program that can be described, in
either style, are read back as its schema.  Two such programs with equal texts, in whatever styles
and versions, have the same version and show the same. -/
theorem textOf_determines (describable : program.Describable)
    (describableToo : other.Describable) :
    (∀ version, ∃ tree, ofProgram version program = .ok tree ∧
      ∀ style, ∃ text, textOf version style program = .ok text ∧ Json.read? text = some tree) ∧
    ∀ version versionToo style styleToo,
      textOf version style program = textOf versionToo styleToo other →
        version = versionToo ∧ program.shown = other.shown := by
  constructor
  · intro version
    obtain ⟨tree, written⟩ := exists_ofProgram describable version
    exact ⟨tree, written, exists_textOf describable written⟩
  · intro version versionToo style styleToo same
    obtain ⟨tree, written⟩ := exists_ofProgram describable version
    obtain ⟨treeToo, writtenToo⟩ := exists_ofProgram describableToo versionToo
    obtain ⟨text, rendered, read⟩ := exists_textOf describable written style
    obtain ⟨textToo, renderedToo, readToo⟩ := exists_textOf describableToo writtenToo styleToo
    -- Both trees are read from the one text.
    rw [rendered, renderedToo, Except.ok.injEq] at same
    rw [same, readToo, Option.some.injEq] at read
    rw [read] at writtenToo
    exact ofProgram_inj written writtenToo

end Programs

/-- A ledger whose entries lie at addresses derived from a literal. -/
def ledger (seed : List UInt8) : Program where
  name := "ledger"
  address := some "Ledger11111111111111111111111111"
  accounts := [{
    name := "entry"
    value := 2
    width := 2
    fields := [⟨"at", "Point", .record 5 "Point" [⟨"x", "u32", .integer 4 false, []⟩,
      ⟨"set", "bool", .boolean 1, []⟩], ["\"Where\" it is."]⟩] }]
  instructions := [{
    layout := { name := "add", value := 0, fields := [⟨"memo", "[u8; 8]", .bytes 8, []⟩] }
    slots := [{ name := "payer", isSigner := true },
      { name := "entry", isPda := true, pda := some "entry", default := some .program }] }]
  errors := [{ name := "Full", code := 6000, docs := ["No room is left."] }]
  pdas := [{ name := "entry", seeds := [.literal seed, .account "payer" (some .plainAddress)] }]

/-- A byte that is no text is shown by its digits, and yet not like a text of the same letters. -/
theorem textOf_determines_ledger :
    (ledger [0xFF]).Describable ∧ (ledger [0x66, 0x66]).Describable ∧
      (∃ tree, ofProgram "1" (ledger [0xFF]) = .ok tree ∧ ∀ style, ∃ text,
        textOf "1" style (ledger [0xFF]) = .ok text ∧ Json.read? text = some tree) ∧
      ∀ style styleToo,
        textOf "1" style (ledger [0xFF]) ≠ textOf "1" styleToo (ledger [0x66, 0x66]) := by
  have digits : (ledger [0xFF]).Describable :=
    ⟨⟨_, rfl, by decide⟩, by decide +kernel, by decide +kernel⟩
  have letters : (ledger [0x66, 0x66]).Describable :=
    ⟨⟨_, rfl, by decide⟩, by decide +kernel, by decide +kernel⟩
  obtain ⟨read, same⟩ := textOf_determines digits letters
  refine ⟨digits, letters, read "1", fun style styleToo equal => ?_⟩
  have shown := (same "1" "1" style styleToo equal).2
  simp [ledger, Program.shown, Pda.shown, Seed.shown] at shown

end Schema

end ProgramIdl
