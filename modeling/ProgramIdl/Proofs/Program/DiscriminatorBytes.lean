import ProgramIdl.Proofs.Program.Arguments
import ProgramIdl.Schema

/-!
# The bytes of discriminators

Whatever a program puts behind a discriminator of some enum is told apart by the bytes of the
discriminator: they are the number that the enum gives the selected variant, on as many bytes as the
enum has, and inside an enum different variants have different bytes
(`assemble_discriminatorBytes`).
-/

set_option autoImplicit false

namespace ProgramIdl

/-- Everything of a program that stands behind a discriminator. -/
def Program.tagged (program : Program) : List TaggedLayout :=
  program.accounts ++ program.events ++ program.instructions.map (·.layout)

/-! ## What is selected -/

/-- A struct that selects a variant of one of some enums, with its number and width. -/
def SelectsFrom (discriminators : List Discriminator) (layout : TaggedLayout) : Prop :=
  ∃ enum ∈ discriminators, layout.enum = enum.name ∧ layout.width = enum.width ∧
    enum.valueOf? layout.variant = some layout.value

theorem selectsFrom_of_select {discriminators : List Discriminator}
    {declared : Declared TaggedStruct} {variant name : String} {docs : List String}
    {selection : Discriminator.Selection} {fields : List (Member Layout)}
    (selected : Discriminator.select discriminators declared variant = .ok selection) :
    SelectsFrom discriminators (.ofSelection name docs selection fields) := by
  obtain ⟨path, _, _, _, found, rfl, value⟩ := Discriminator.select_eq_ok_iff.mp selected
  exact ⟨selection.enum, List.mem_of_find?_eq_some found, rfl, rfl, value⟩

section Collects

variable {known : KnownAddresses} {declarations : Declarations} {layouts : Layouts}
  {program : Program}

theorem Program.Collects.selectsFrom (collects : program.Collects known declarations layouts) :
    ∀ layout ∈ program.tagged, SelectsFrom program.discriminators layout := by
  intro layout listed
  rw [tagged, List.mem_append, List.mem_append, collects.accounts, collects.events] at listed
  rcases listed with (account | event) | instruction
  · obtain ⟨_, _, selection, fields, selected, _, rfl⟩ :=
      exists_left_of_forall₂ collects.follow.accounts account
    exact selectsFrom_of_select selected
  · obtain ⟨_, _, selection, fields, selected, _, rfl⟩ :=
      exists_left_of_forall₂ collects.follow.events event
    exact selectsFrom_of_select selected
  · obtain ⟨_, built, rfl⟩ := List.mem_map.mp instruction
    obtain ⟨_, _, selection, selected, rfl⟩ := exists_left_of_forall₂ collects.instruct.2 built
    exact selectsFrom_of_select selected

/-- The variants that instructions select differ. -/
theorem Program.Collects.pairwise_variant (collects : program.Collects known declarations layouts) :
    program.instructions.Pairwise fun one other => one.layout.variant ≠ other.layout.variant := by
  obtain ⟨differ, instruct⟩ := collects.instruct
  have names : declarations.instructions.map instructionName =
      program.instructions.map fun instruction => Text.snakeCase instruction.layout.variant := by
    refine map_eq_of_forall₂ instruct ?_
    rintro declared _ ⟨selection, selected, rfl⟩
    exact (snakeCase_of_select selected).symm
  rw [names] at differ
  refine (List.pairwise_map.mp differ).imp fun namesDiffer same => ?_
  exact namesDiffer (congrArg Text.snakeCase same)

end Collects

/-! ## Bytes -/

/-- Enums that have been taken up from declarations without negative numbers. -/
structure NaturalEnums (declared : List (Declared DiscriminatorEnum))
    (discriminators : List Discriminator) : Prop where
  taken : Discriminator.all declared = .ok discriminators
  natural : ∀ enum ∈ declared, ∀ variant ∈ enum.content.variants, 0 ≤ variant.value

section NaturalEnums

variable {declared : List (Declared DiscriminatorEnum)} {discriminators : List Discriminator}

/-- A number that is listed fits its enum, which has one of four widths. -/
theorem NaturalEnums.fits (enums : NaturalEnums declared discriminators) {enum : Discriminator}
    (listed : enum ∈ discriminators) {variant : String} {value : Int}
    (found : enum.valueOf? variant = some value) :
    enum.width ∈ [1, 2, 4, 8] ∧ 0 ≤ value ∧ value < LittleEndian.limit enum.width := by
  obtain ⟨source, member, ofEnum⟩ := (Discriminator.mem_of_all enums.taken).mp listed
  obtain ⟨width, declaredWidth, _, fits, rfl⟩ := Discriminator.ofDeclared_eq_ok_iff.mp ofEnum
  have entry := mem_of_lookup found
  obtain ⟨written, inside, same⟩ := List.mem_map.mp entry
  obtain ⟨rfl, rfl⟩ := Prod.mk.inj same
  refine ⟨Discriminator.declaredWidth_mem declaredWidth,
    enums.natural source member written inside, ?_⟩
  rw [LittleEndian.limit_eq_two_pow]
  push_cast
  exact fits _ entry

theorem NaturalEnums.eq_of_name (enums : NaturalEnums declared discriminators)
    {enum other : Discriminator} (listed : enum ∈ discriminators)
    (listedToo : other ∈ discriminators) (same : enum.name = other.name) : enum = other :=
  List.inj_on_of_nodup_map (Discriminator.nodup_of_all enums.taken) listed listedToo same

theorem NaturalEnums.variant_eq (enums : NaturalEnums declared discriminators)
    {enum : Discriminator} (listed : enum ∈ discriminators) {variant other : String} {value : Int}
    (found : enum.valueOf? variant = some value) (again : enum.valueOf? other = some value) :
    variant = other := by
  obtain ⟨source, _, ofEnum⟩ := (Discriminator.mem_of_all enums.taken).mp listed
  exact Discriminator.valueOf?_inj ofEnum found again

end NaturalEnums

/-- The bytes of a discriminator: as many as the one enum has that the struct names, and together
the number that the enum lists for the variant. -/
structure Program.Carries (program : Program) (layout : TaggedLayout) (bytes : List UInt8) :
    Prop where
  encoded : Schema.discriminatorBytes layout = .ok bytes
  length_mem : bytes.length ∈ [1, 2, 4, 8]
  listed : ∃ enum : Discriminator,
    (∀ other, other ∈ program.discriminators ∧ other.name = layout.enum ↔ other = enum) ∧
      bytes.length = enum.width ∧
        enum.valueOf? layout.variant = some (LittleEndian.decode bytes : Int)

section Bytes

variable {declared : List (Declared DiscriminatorEnum)} {program : Program}
  {layout other : TaggedLayout}

theorem NaturalEnums.carries (enums : NaturalEnums declared program.discriminators)
    (selects : SelectsFrom program.discriminators layout) :
    ∃ bytes, program.Carries layout bytes := by
  obtain ⟨enum, listed, named, width, found⟩ := selects
  obtain ⟨known, natural, fits⟩ := enums.fits listed found
  have encoded : LittleEndian.encode? layout.width layout.value =
      some (LittleEndian.encode enum.width layout.value.toNat) := by
    rw [width]
    exact LittleEndian.encode?_eq_some_iff.mpr ⟨natural, fits, rfl⟩
  have length := LittleEndian.length_encode enum.width layout.value.toNat
  refine ⟨LittleEndian.encode enum.width layout.value.toNat, ?_, length.symm ▸ known, enum, ?_,
    length, ?_⟩
  · rw [Schema.discriminatorBytes, encoded]
  · intro other
    constructor
    · rintro ⟨member, same⟩
      exact enums.eq_of_name member listed (same.trans named)
    · rintro rfl
      exact ⟨listed, named.symm⟩
  · rw [LittleEndian.decode_encode (by omega), found, Int.toNat_of_nonneg natural]

/-- Inside an enum, bytes tell variants apart. -/
theorem NaturalEnums.bytes_eq_iff (enums : NaturalEnums declared program.discriminators)
    (selects : SelectsFrom program.discriminators layout)
    (selectsToo : SelectsFrom program.discriminators other) (same : layout.enum = other.enum) :
    Schema.discriminatorBytes layout = Schema.discriminatorBytes other ↔
      layout.variant = other.variant := by
  constructor
  · intro sameBytes
    obtain ⟨bytes, encoded, _, enum, only, _, found⟩ := enums.carries selects
    obtain ⟨bytesToo, encodedToo, _, enumToo, onlyToo, _, foundToo⟩ := enums.carries selectsToo
    -- Both variants have the number that the bytes stand for, in the same enum.
    obtain rfl := Except.ok.inj (encoded.symm.trans (sameBytes.trans encodedToo))
    obtain ⟨listed, named⟩ := (only enum).mpr rfl
    obtain rfl := (onlyToo enum).mp ⟨listed, named.trans same⟩
    exact enums.variant_eq listed found foundToo
  · intro sameVariant
    obtain ⟨enum, listed, named, width, found⟩ := selects
    obtain ⟨enumToo, listedToo, namedToo, widthToo, foundToo⟩ := selectsToo
    obtain rfl := enums.eq_of_name listed listedToo (named.symm.trans (same.trans namedToo))
    rw [sameVariant, foundToo] at found
    rw [Schema.discriminatorBytes, Schema.discriminatorBytes, width, widthToo,
      Option.some.inj found]

end Bytes

/-- In a program that is assembled from enums without negative numbers, every account, event and
instruction has the bytes of its variant's number, on the width of its enum.  Behind one enum, bytes
are equal exactly for equal variants, and no two instructions share them. -/
theorem assemble_discriminatorBytes {known : KnownAddresses} {name : String}
    {files : List ScannedFile} {program : Program}
    (assembled : (assemble known name files).outcome = .ok program)
    (natural : ∀ enum ∈ (Declarations.ofFiles files).discriminators,
      ∀ variant ∈ enum.content.variants, 0 ≤ variant.value) :
    (∀ layout ∈ program.tagged, ∃ bytes, program.Carries layout bytes) ∧
    (∀ layout ∈ program.tagged, ∀ other ∈ program.tagged, layout.enum = other.enum →
      (Schema.discriminatorBytes layout = Schema.discriminatorBytes other ↔
        layout.variant = other.variant)) ∧
    program.instructions.Pairwise fun one other => one.layout.enum = other.layout.enum →
      Schema.discriminatorBytes one.layout ≠ Schema.discriminatorBytes other.layout := by
  obtain ⟨_, layouts, collects⟩ := assembleDeclarations_eq_ok_iff.mp assembled
  have enums : NaturalEnums (Declarations.ofFiles files).discriminators program.discriminators :=
    ⟨collects.discriminators, natural⟩
  have selects := collects.selectsFrom
  refine ⟨fun layout listed => enums.carries (selects layout listed),
    fun layout listed other listedToo same =>
      enums.bytes_eq_iff (selects layout listed) (selects other listedToo) same, ?_⟩
  refine collects.pairwise_variant.imp_of_mem fun {one other} member memberToo differ same => ?_
  have inside : ∀ instruction ∈ program.instructions, instruction.layout ∈ program.tagged :=
    fun instruction built => List.mem_append_right _ (List.mem_map_of_mem built)
  rw [ne_eq, enums.bytes_eq_iff (selects _ (inside one member))
    (selects _ (inside other memberToo)) same]
  exact differ

theorem assemble_discriminatorBytes_steps : ∃ program,
    (assemble .standard "steps" [stepsFile "Go" "Stop"]).outcome = .ok program ∧
      program.tagged.length = 2 ∧
        ∀ layout ∈ program.tagged, ∃ bytes, program.Carries layout bytes := by
  obtain ⟨program, assembled, two⟩ : ∃ program,
      (assemble .standard "steps" [stepsFile "Go" "Stop"]).outcome = .ok program ∧
        decide (program.tagged.length = 2) = true :=
    exists_ok_of_any (by decide +kernel)
  have natural : ∀ enum ∈ (Declarations.ofFiles [stepsFile "Go" "Stop"]).discriminators,
      ∀ variant ∈ enum.content.variants, 0 ≤ variant.value := by
    decide +kernel
  exact ⟨program, assembled, of_decide_eq_true two,
    (assemble_discriminatorBytes assembled natural).1⟩

end ProgramIdl
