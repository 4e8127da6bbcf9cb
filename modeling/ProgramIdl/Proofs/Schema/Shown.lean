import ProgramIdl.Literal.Quoted
import ProgramIdl.Proofs.LittleEndian
import ProgramIdl.Proofs.Pass
import ProgramIdl.Proofs.Text.Utf8
import ProgramIdl.Schema

/-!
# What a schema shows

A schema leaves out how types are spelled, which structs and enums stand behind the instructions and
the discriminators, and what the enums list.  Everything else can be told from it: nodes that are
equal show the same (`ofLayout_inj`, `ofSlot_inj`, `ofSeed_inj`, `ofTagged_inj`).
-/

set_option autoImplicit false

namespace ProgramIdl

/-! ## Views -/

mutual

/-- A layout without the spellings of the types in it. -/
def Layout.shown : Layout → Layout
  | .integer width signed => .integer width signed
  | .boolean width => .boolean width
  | .array width length => .array width length
  | .address width => .address width
  | .record width name fields => .record width name (Layout.shownMembers fields)

/-- Fields without the spellings of their types. -/
def Layout.shownMembers : List (Member Layout) → List (Member Layout)
  | [] => []
  | ⟨name, _, type, docs⟩ :: rest => ⟨name, "", type.shown, docs⟩ :: Layout.shownMembers rest

end

/-- A struct without the names of the enum and the variant that its discriminator comes from. -/
def TaggedLayout.shown (layout : TaggedLayout) : TaggedLayout :=
  { layout with enum := "", variant := "", fields := Layout.shownMembers layout.fields }

/-- An instruction without the name of its struct. -/
def Instruction.shown (instruction : Instruction) : Instruction :=
  { instruction with layout := instruction.layout.shown, struct := "" }

/-- A seed without the spellings of the types in it. -/
def Seed.shown : Seed → Seed
  | .literal bytes => .literal bytes
  | .account name type => .account name (type.map Layout.shown)
  | .argument name type => .argument name (type.map Layout.shown)
  | .unrecognized expression => .unrecognized expression

/-- A derived address without the spellings of the types in its seeds. -/
def Pda.shown (pda : Pda) : Pda :=
  { pda with seeds := pda.seeds.map Seed.shown }

/-- A program without its enums, and without what the schema leaves out of its parts. -/
def Program.shown (program : Program) : Program :=
  { program with
    discriminators := []
    accounts := program.accounts.map TaggedLayout.shown
    instructions := program.instructions.map Instruction.shown
    events := program.events.map TaggedLayout.shown
    pdas := program.pdas.map Pda.shown }

namespace Schema

open ProgramIdl.Text

section Nodes

variable {α β γ : Type} {node nodeToo : α → β} {view : α → γ}

/-- What equal nodes show, equal lists of nodes show one by one. -/
theorem map_eq_of_map_eq
    (shows : ∀ {value other : α}, node value = nodeToo other → view value = view other)
    {values others : List α} (same : values.map node = others.map nodeToo) :
    values.map view = others.map view := by
  induction values generalizing others with
  | nil =>
      cases others with
      | nil => rfl
      | cons other others => cases same
  | cons value values inductionHypothesis =>
      cases others with
      | nil => cases same
      | cons other others =>
          rw [List.map_cons, List.map_cons, List.cons.injEq] at same
          rw [List.map_cons, List.map_cons, shows same.1, inductionHypothesis same.2]

theorem optionMap_eq_of_map_eq
    (shows : ∀ {value other : α}, node value = nodeToo other → view value = view other)
    {value other : Option α} (same : value.map node = other.map nodeToo) :
    value.map view = other.map view := by
  cases value <;> cases other
  · rfl
  · cases same
  · cases same
  · exact congrArg some (shows (Option.some.inj same))

end Nodes

theorem texts_inj {values others : List String} (same : Json.Value.texts values = .texts others) :
    values = others := by
  have equal : values.map id = others.map id :=
    map_eq_of_map_eq Json.Value.text.inj (Json.Value.array.inj same)
  rwa [List.map_id, List.map_id] at equal

/-! ## Types and fields -/

mutual

theorem ofLayout_inj {layout other : Layout} (same : ofLayout layout = ofLayout other) :
    layout.shown = other.shown := by
  cases layout with
  | integer width signed =>
      cases other <;> simp [ofLayout, integerType] at same
      obtain ⟨rfl, rfl⟩ := same
      rfl
  | boolean width =>
      cases other <;> simp [ofLayout, integerType] at same
      rw [same]
  | array width length =>
      cases other <;> simp [ofLayout, integerType] at same
      obtain ⟨rfl, rfl⟩ := same
      rfl
  | address width =>
      cases other <;> simp [ofLayout, integerType] at same
      rw [same]
  | record width name fields =>
      cases other <;> simp [ofLayout, integerType] at same
      obtain ⟨rfl, rfl, sameFields⟩ := same
      rw [Layout.shown, Layout.shown, ofMembers_inj sameFields]

theorem ofMembers_inj {members others : List (Member Layout)}
    (same : ofMembers members = ofMembers others) :
    Layout.shownMembers members = Layout.shownMembers others := by
  cases members with
  | nil =>
      cases others with
      | nil => rfl
      | cons => simp [ofMembers] at same
  | cons member members =>
      cases others with
      | nil => simp [ofMembers] at same
      | cons other others =>
          obtain ⟨name, token, type, docs⟩ := member
          obtain ⟨otherName, otherToken, otherType, otherDocs⟩ := other
          simp only [ofMembers, ofMember, List.cons.injEq, Json.Value.object.injEq, Prod.mk.injEq,
            Json.Value.text.injEq, true_and, and_true] at same
          obtain ⟨⟨rfl, sameType, sameDocs⟩, later⟩ := same
          rw [Layout.shownMembers, Layout.shownMembers, ofLayout_inj sameType, texts_inj sameDocs,
            ofMembers_inj later]

end

/-! ## Structs behind discriminators -/

theorem byteNumbers_inj {bytes others : List UInt8}
    (same : byteNumbers bytes = byteNumbers others) : bytes = others := by
  have number {byte other : UInt8}
      (same : Json.Value.integer byte.toNat = .integer other.toNat) : id byte = id other :=
    UInt8.toNat_inj.mp (Int.ofNat.inj (Json.Value.integer.inj same))
  have equal : bytes.map id = others.map id :=
    map_eq_of_map_eq number (Json.Value.array.inj same)
  rwa [List.map_id, List.map_id] at equal

theorem discriminatorBytes_eq_ok_iff {layout : TaggedLayout} {bytes : List UInt8} :
    discriminatorBytes layout = .ok bytes ↔ 0 ≤ layout.value ∧
      layout.value < LittleEndian.limit layout.width ∧
        LittleEndian.encode layout.width layout.value.toNat = bytes := by
  rw [← LittleEndian.encode?_eq_some_iff, discriminatorBytes]
  cases LittleEndian.encode? layout.width layout.value <;> simp

/-- The bytes of a discriminator tell its number and its width. -/
theorem discriminatorBytes_inj {layout other : TaggedLayout} {bytes : List UInt8}
    (encoded : discriminatorBytes layout = .ok bytes)
    (encodedToo : discriminatorBytes other = .ok bytes) :
    layout.value = other.value ∧ layout.width = other.width := by
  obtain ⟨natural, fits, written⟩ := discriminatorBytes_eq_ok_iff.mp encoded
  obtain ⟨naturalToo, fitsToo, writtenToo⟩ := discriminatorBytes_eq_ok_iff.mp encodedToo
  have width : layout.width = other.width := by
    rw [← LittleEndian.length_encode layout.width layout.value.toNat, written, ← writtenToo,
      LittleEndian.length_encode]
  have number : LittleEndian.decode bytes = layout.value.toNat := by
    rw [← written, LittleEndian.decode_encode (by omega)]
  have numberToo : LittleEndian.decode bytes = other.value.toNat := by
    rw [← writtenToo, LittleEndian.decode_encode (by omega)]
  exact ⟨by omega, width⟩

theorem allFields_inj {layout other : TaggedLayout} (same : allFields layout = allFields other) :
    Layout.shownMembers layout.fields = Layout.shownMembers other.fields := by
  rw [allFields, allFields, Json.Value.array.injEq, List.cons.injEq] at same
  exact ofMembers_inj same.2

/-- A struct is shown by its name, the bytes of its discriminator, its fields and its text. -/
theorem TaggedLayout.shown_eq {layout other : TaggedLayout} {bytes : List UInt8}
    (encoded : discriminatorBytes layout = .ok bytes)
    (encodedToo : discriminatorBytes other = .ok bytes) (name : layout.name = other.name)
    (fields : allFields layout = allFields other) (docs : layout.docs = other.docs) :
    layout.shown = other.shown := by
  obtain ⟨value, width⟩ := discriminatorBytes_inj encoded encodedToo
  rw [TaggedLayout.shown, TaggedLayout.shown, name, value, width, docs, allFields_inj fields]

theorem ofTagged_eq_ok_iff {layout : TaggedLayout} {node : Json.Value} :
    ofTagged layout = .ok node ↔ ∃ bytes, discriminatorBytes layout = .ok bytes ∧
      .object [("name", .text layout.name), ("discriminator", byteNumbers bytes),
        ("fields", allFields layout), ("docs", .texts layout.docs)] = node := by
  simp [ofTagged, bind_eq_ok_iff, pure, Except.pure]

theorem ofTagged_inj {layout other : TaggedLayout} {node : Json.Value}
    (written : ofTagged layout = .ok node) (writtenToo : ofTagged other = .ok node) :
    layout.shown = other.shown := by
  obtain ⟨bytes, encoded, rfl⟩ := ofTagged_eq_ok_iff.mp written
  obtain ⟨others, encodedToo, same⟩ := ofTagged_eq_ok_iff.mp writtenToo
  simp only [Json.Value.object.injEq, List.cons.injEq, Prod.mk.injEq, Json.Value.text.injEq,
    true_and, and_true] at same
  obtain ⟨name, sameBytes, fields, docs⟩ := same
  obtain rfl := byteNumbers_inj sameBytes
  exact TaggedLayout.shown_eq encoded encodedToo name.symm fields.symm (texts_inj docs).symm

/-! ## Instructions -/

theorem ofDefault_inj {program other : String} {value default : DefaultAddress}
    (same : ofDefault program value = ofDefault other default) : value = default := by
  cases value <;> cases default <;> simp [ofDefault] at same
  · rfl
  · rw [same]

/-- Whether a field that may be missing is there can be told from the names of the fields. -/
theorem fieldIf_append_inj {name : String} {value other : Option Json.Value}
    {rest others : List (String × Json.Value)} (absent : ∀ field ∈ rest, field.1 ≠ name)
    (absentToo : ∀ field ∈ others, field.1 ≠ name)
    (same : fieldIf name value ++ rest = fieldIf name other ++ others) :
    value = other ∧ rest = others := by
  cases value with
  | none =>
      cases other with
      | none => exact ⟨rfl, same⟩
      | some other =>
          rw [fieldIf, fieldIf, List.nil_append, List.singleton_append] at same
          exact absurd rfl (absent (name, other) (by rw [same]; exact List.mem_cons_self))
  | some value =>
      cases other with
      | none =>
          rw [fieldIf, fieldIf, List.nil_append, List.singleton_append] at same
          exact absurd rfl (absentToo (name, value) (by rw [← same]; exact List.mem_cons_self))
      | some other =>
          obtain ⟨equal, later⟩ := List.cons.inj same
          exact ⟨congrArg some (Prod.mk.inj equal).2, later⟩

theorem ofSlot_inj {program other : String} {slot account : AccountSlot}
    (same : ofSlot program slot = ofSlot other account) : slot = account := by
  obtain ⟨name, isSigner, isWritable, isOptional, isPda, pda, default, docs⟩ := slot
  obtain ⟨_, _, _, _, _, pdaToo, defaultToo, docsToo⟩ := account
  simp only [ofSlot, Json.Value.object.injEq, List.cons_append, List.nil_append, List.cons.injEq,
    Prod.mk.injEq, Json.Value.text.injEq, Json.Value.boolean.injEq, true_and,
    List.append_assoc] at same
  obtain ⟨rfl, rfl, rfl, rfl, rfl, same⟩ := same
  -- Two fields may be missing, and neither is called like what can follow in its place.
  obtain ⟨pdas, same⟩ := fieldIf_append_inj (by cases default <;> simp [fieldIf])
    (by cases defaultToo <;> simp [fieldIf]) same
  obtain ⟨defaults, same⟩ := fieldIf_append_inj (by simp) (by simp) same
  have samePda : pda.map id = pdaToo.map id := optionMap_eq_of_map_eq Json.Value.text.inj pdas
  have sameDefault : default.map id = defaultToo.map id :=
    optionMap_eq_of_map_eq ofDefault_inj defaults
  rw [Option.map_id, id, id] at samePda sameDefault
  rw [List.cons.injEq, Prod.mk.injEq] at same
  rw [samePda, sameDefault, texts_inj same.1.2]

theorem ofInstruction_eq_ok_iff {address : String} {instruction : Instruction}
    {node : Json.Value} : ofInstruction address instruction = .ok node ↔
      ∃ bytes, discriminatorBytes instruction.layout = .ok bytes ∧
        .object [("name", .text instruction.layout.name), ("discriminator", byteNumbers bytes),
          ("accounts", .array (instruction.slots.map (ofSlot address))),
          ("args", allFields instruction.layout), ("docs", .texts instruction.layout.docs)] =
            node := by
  simp [ofInstruction, bind_eq_ok_iff, pure, Except.pure]

theorem ofInstruction_inj {address : String} {instruction other : Instruction}
    {node : Json.Value} (written : ofInstruction address instruction = .ok node)
    (writtenToo : ofInstruction address other = .ok node) : instruction.shown = other.shown := by
  obtain ⟨bytes, encoded, rfl⟩ := ofInstruction_eq_ok_iff.mp written
  obtain ⟨others, encodedToo, same⟩ := ofInstruction_eq_ok_iff.mp writtenToo
  simp only [Json.Value.object.injEq, List.cons.injEq, Prod.mk.injEq, Json.Value.text.injEq,
    Json.Value.array.injEq, true_and, and_true] at same
  obtain ⟨name, sameBytes, slots, fields, docs⟩ := same
  obtain rfl := byteNumbers_inj sameBytes
  have sameSlots : other.slots.map id = instruction.slots.map id :=
    map_eq_of_map_eq ofSlot_inj slots
  rw [List.map_id, List.map_id] at sameSlots
  rw [Instruction.shown, Instruction.shown, sameSlots,
    TaggedLayout.shown_eq encoded encodedToo name.symm fields.symm (texts_inj docs).symm]

/-! ## Errors -/

theorem ofError_inj {error other : ErrorCode} (same : ofError error = ofError other) :
    error = other := by
  obtain ⟨name, code, docs⟩ := error
  obtain ⟨nameToo, codeToo, docsToo⟩ := other
  simp only [ofError, Json.Value.object.injEq, List.cons.injEq, Prod.mk.injEq,
    Json.Value.text.injEq, Json.Value.integer.injEq, true_and, and_true] at same
  obtain ⟨rfl, rfl, _, sameDocs⟩ := same
  rw [texts_inj sameDocs]

/-! ## Seeds -/

theorem base16_inj {bytes others : List UInt8} (same : base16 bytes = base16 others) :
    bytes = others := by
  have all : ∀ value < 256, (hexDigits 2 value).length = 2 ∧
      Literal.byteEscape? (hexDigits 2 value) = some (UInt8.ofNat value) := by decide +kernel
  have two (byte : UInt8) : (hexDigits 2 byte.toNat).length = 2 := (all _ byte.toNat_lt).1
  have read (byte : UInt8) : Literal.byteEscape? (hexDigits 2 byte.toNat) = some byte := by
    rw [(all _ byte.toNat_lt).2, UInt8.ofNat_toNat]
  have digits := String.ofList_injective same
  -- Every byte has two digits, so both texts come apart at the same places.
  have some (byte : UInt8) (bytes : List UInt8) :
      [] ≠ (byte :: bytes).flatMap fun byte => hexDigits 2 byte.toNat := by
    intro none
    have length := two byte
    rw [List.flatMap_cons] at none
    rw [(List.append_eq_nil_iff.mp none.symm).1] at length
    cases length
  induction bytes generalizing others with
  | nil =>
      cases others with
      | nil => rfl
      | cons other others => exact absurd digits (some other others)
  | cons byte bytes inductionHypothesis =>
      cases others with
      | nil => exact absurd digits.symm (some byte bytes)
      | cons other others =>
          rw [List.flatMap_cons, List.flatMap_cons] at digits
          obtain ⟨here, later⟩ := List.append_inj digits (by rw [two, two])
          have equal := read byte
          rw [here, read other] at equal
          rw [Option.some.inj equal, inductionHypothesis (congrArg String.ofList later) later]

theorem reference_inj {kind kindToo name nameToo : String} {type typeToo : Option Layout}
    (same : reference kind name type = reference kindToo nameToo typeToo) :
    kind = kindToo ∧ name = nameToo ∧ type.map Layout.shown = typeToo.map Layout.shown := by
  simp only [reference, Json.Value.object.injEq, List.cons_append, List.nil_append,
    List.cons.injEq, Prod.mk.injEq, Json.Value.text.injEq, true_and] at same
  obtain ⟨kinds, names, same⟩ := same
  refine ⟨kinds, names, ?_⟩
  have appended : fieldIf "type" (type.map ofLayout) ++ [] =
      fieldIf "type" (typeToo.map ofLayout) ++ [] := by
    rw [List.append_nil, List.append_nil, same]
  exact optionMap_eq_of_map_eq ofLayout_inj (fieldIf_append_inj (by simp) (by simp) appended).1

theorem exists_ofSeed_literal (bytes : List UInt8) :
    ∃ encoding value, ofSeed (.literal bytes) = literal encoding value := by
  rw [ofSeed]
  cases utf8Decode bytes with
  | ok text => exact ⟨"utf8", .ofList text, rfl⟩
  | error error => exact ⟨"base16", base16 bytes, rfl⟩

/-- Only a literal seed has an encoding. -/
theorem eq_literal_of_ofSeed {seed : Seed} {bytes : List UInt8}
    (same : ofSeed seed = ofSeed (.literal bytes)) : ∃ others, seed = .literal others := by
  obtain ⟨encoding, value, shape⟩ := exists_ofSeed_literal bytes
  rw [shape, literal] at same
  cases seed with
  | literal others => exact ⟨others, rfl⟩
  | account name type => simp [ofSeed, reference] at same
  | argument name type => simp [ofSeed, reference] at same
  | unrecognized expression => simp [ofSeed] at same

/-- Literal bytes that are UTF-8 are told by their text, all others by their digits. -/
theorem ofSeed_literal_inj {bytes others : List UInt8}
    (same : ofSeed (.literal bytes) = ofSeed (.literal others)) : bytes = others := by
  rw [ofSeed, ofSeed] at same
  cases decoded : utf8Decode bytes with
  | ok text =>
      cases decodedToo : utf8Decode others with
      | ok textToo =>
          simp [decoded, decodedToo, literal] at same
          have texts := String.ofList_injective same
          rw [← utf8Bytes_of_utf8Decode decoded, texts, utf8Bytes_of_utf8Decode decodedToo]
      | error error => simp [decoded, decodedToo, literal] at same
  | error error =>
      cases decodedToo : utf8Decode others with
      | ok textToo => simp [decoded, decodedToo, literal] at same
      | error errorToo =>
          simp [decoded, decodedToo, literal] at same
          exact base16_inj same

theorem ofSeed_inj {seed other : Seed} (same : ofSeed seed = ofSeed other) :
    seed.shown = other.shown := by
  cases seed with
  | literal bytes =>
      obtain ⟨others, rfl⟩ := eq_literal_of_ofSeed same.symm
      rw [ofSeed_literal_inj same]
  | account name type =>
      cases other with
      | literal others =>
          obtain ⟨_, impossible⟩ := eq_literal_of_ofSeed same
          cases impossible
      | account nameToo typeToo =>
          obtain ⟨_, names, types⟩ := reference_inj same
          rw [Seed.shown, Seed.shown, names, types]
      | argument nameToo typeToo => exact absurd (reference_inj same).1 (by decide)
      | unrecognized expression => simp [ofSeed, reference] at same
  | argument name type =>
      cases other with
      | literal others =>
          obtain ⟨_, impossible⟩ := eq_literal_of_ofSeed same
          cases impossible
      | account nameToo typeToo => exact absurd (reference_inj same).1 (by decide)
      | argument nameToo typeToo =>
          obtain ⟨_, names, types⟩ := reference_inj same
          rw [Seed.shown, Seed.shown, names, types]
      | unrecognized expression => simp [ofSeed, reference] at same
  | unrecognized expression =>
      cases other with
      | literal others =>
          obtain ⟨_, impossible⟩ := eq_literal_of_ofSeed same
          cases impossible
      | account name type => simp [ofSeed, reference] at same
      | argument name type => simp [ofSeed, reference] at same
      | unrecognized expressionToo =>
          simp [ofSeed] at same
          rw [same]

theorem ofPda_inj {pda other : Pda} (same : ofPda pda = ofPda other) : pda.shown = other.shown := by
  simp only [ofPda, Json.Value.object.injEq, List.cons.injEq, Prod.mk.injEq,
    Json.Value.text.injEq, Json.Value.array.injEq, true_and, and_true] at same
  obtain ⟨names, seeds, docs⟩ := same
  rw [Pda.shown, Pda.shown, names, map_eq_of_map_eq ofSeed_inj seeds, texts_inj docs]

end Schema

end ProgramIdl
