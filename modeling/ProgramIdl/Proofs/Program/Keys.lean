import ProgramIdl.Proofs.Address.Encoding
import ProgramIdl.Proofs.Declaration.Leaves
import ProgramIdl.Proofs.Pda.Extraction
import ProgramIdl.Proofs.Program.Assembly
import ProgramIdl.Proofs.Program.Relaid
import ProgramIdl.Proofs.Schema.Interface

/-!
# The key of a program

The address of a program is the writing of thirty-two bytes in base fifty-eight, its key, and no other
bytes are written so.  What a declaration names as an address is trimmed, so the writing of the key is
the very text that the interface shows.
-/

set_option autoImplicit false

namespace ProgramIdl

open ProgramIdl.Syntax ProgramIdl.Text

namespace Address

/-- A key is as many bytes as an address has. -/
def IsKey (bytes : List UInt8) : Prop :=
  bytes.length = size

/-- A text without blanks behind it writes an address if it is the writing of a key. -/
theorem writes_iff {text : String} (ended : trimEnd text.toList = text.toList) :
    Writes text ↔ ∃ key, IsKey key ∧ encode key = text := by
  constructor
  · rintro ⟨_, key, read, long⟩
    refine ⟨key, long, ?_⟩
    rw [encode_of_decode read, ended, String.ofList_toList]
  · rintro ⟨key, long, rfl⟩
    refine ⟨?_, key, decode_encode key, long⟩
    intro empty
    have read := decode_encode key
    have none : decode "" = .ok [] := by decide
    rw [empty, none] at read
    rw [IsKey, ← Except.ok.inj read] at long
    cases long

end Address

/-! ## Declared addresses -/

theorem trimEnd_trim (text : List Char) : trimEnd (trim text) = trim text := by
  rw [trim, trimEnd_eq_rdropWhile, trimEnd_eq_rdropWhile, List.rdropWhile_idempotent]

theorem trimEnd_declaredAddress? (arguments : String) :
    trimEnd ((declaredAddress? arguments).getD "").toList =
      ((declaredAddress? arguments).getD "").toList := by
  cases declared : declaredAddress? arguments with
  | none => rfl
  | some address =>
      rw [declaredAddress?, Option.bind_eq_bind, Option.bind_eq_some_iff] at declared
      obtain ⟨text, _, kept⟩ := declared
      split at kept
      · cases kept
      · obtain rfl := Option.some.inj kept
        rw [Option.getD_some, String.toList_ofList, trimEnd_trim]

/-- No blank stands behind an address that a file declares. -/
theorem ScannedFile.ReadFrom.trimEnd_address {file : ScannedFile} {items : List (Annotated Item)}
    (read : file.ReadFrom items) {declared : Declared ProgramId}
    (listed : .programId declared ∈ file.declarations) :
    trimEnd declared.content.address.toList = declared.content.address.toList := by
  obtain ⟨depth, annotations, line, item, _, found, declares⟩ := read.exists_item listed
  cases item with
  | macroCall path arguments =>
      rw [itemFindings, macroCallFindings] at found
      split at found
      · have single := List.mem_singleton.mp found
        injection single with single
        injection single with single
        subst single
        exact trimEnd_declaredAddress? arguments
      · cases found
  | _ => cases declares

/-! ## Addresses of programs -/

/-- Sources make up the program that their scans make up. -/
theorem scanned_of_assembleSources {known : KnownAddresses} {name : String}
    {sources : List (String × String)} {program : Program}
    (assembled : (assembleSources known name sources).outcome = .ok program) :
    ∃ files, (∀ file ∈ files, file.Scanned) ∧
      (assemble known name files).outcome = .ok program := by
  rw [assembleSources, Reporting.outcome_bind, bind_eq_ok_iff] at assembled
  obtain ⟨files, scanned, together⟩ := assembled
  refine ⟨files, fun file listed => ?_, together⟩
  obtain ⟨source, _, outcome⟩ :=
    exists_left_of_forall₂ (Reporting.outcome_mapM_eq_ok_iff.mp scanned) listed
  exact ⟨source.1, source.2, outcome⟩

/-- The address of a program is declared by one of its files, and writes a key. -/
theorem address_of_assembleSources {known : KnownAddresses} {name : String}
    {sources : List (String × String)} {program : Program} {address : String}
    (assembled : (assembleSources known name sources).outcome = .ok program)
    (located : program.address = some address) :
    trimEnd address.toList = address.toList ∧ Address.Writes address := by
  obtain ⟨files, scanned, together⟩ := scanned_of_assembleSources assembled
  obtain ⟨_, layouts, collects⟩ := assembleDeclarations_eq_ok_iff.mp together
  obtain ⟨first, agree⟩ := programAddress_eq_ok_iff.mp collects.address
  rw [located] at first
  have own := List.mem_of_head? first.symm
  refine ⟨?_, (agree address own).2⟩
  obtain ⟨declared, listed, rfl⟩ := List.mem_map.mp own
  have inverse : ∀ declaration value, Declaration.programId? declaration = some value ↔
      declaration = .programId value := by
    intro declaration value
    cases declaration <;> simp [Declaration.programId?]
  obtain ⟨file, member, inFile⟩ := (mem_ofFiles_iff inverse).mp (List.mem_filter.mp listed).1
  obtain ⟨items, read⟩ := (scanned file member).exists_readFrom
  exact read.trimEnd_address inFile

/-- A text is the address of some program. -/
def Address.Located (address : String) : Prop :=
  ∃ known name sources program, (assembleSources known name sources).outcome = .ok program ∧
    program.address = some address

/-- The address of a program is the writing of a key. -/
theorem Address.Located.exists_key {address : String} (located : Address.Located address) :
    ∃ key, Address.IsKey key ∧ Address.encode key = address := by
  obtain ⟨known, name, sources, program, assembled, given⟩ := located
  obtain ⟨ended, writes⟩ := address_of_assembleSources assembled given
  exact (Address.writes_iff ended).mp writes

/-- Exactly the writings of keys are accepted as addresses, each of a single key.  The address of a
program is the writing of the key that it is read as, also in the document that describes the program,
and programs with distinct addresses have distinct keys. -/
theorem address_writes_key :
    (∀ text, trimEnd text.toList = text.toList →
      (Address.validate text = .ok () ↔ ∃ key, Address.IsKey key ∧ Address.encode key = text)) ∧
    (∀ key other, Address.encode key = Address.encode other → key = other) ∧
    (∀ known name sources program address,
      (assembleSources known name sources).outcome = .ok program → program.address = some address →
        ∃ key, Address.IsKey key ∧ Address.decode address = .ok key ∧ Address.encode key = address ∧
          ∀ version tree, Schema.ofProgram version program = .ok tree →
            ∃ accounts instructions events, tree =
              Schema.document version (Address.encode key) program accounts instructions events) ∧
    (∀ address other, Address.Located address → Address.Located other → address ≠ other →
      Address.decode address ≠ Address.decode other) := by
  refine ⟨fun text ended => Address.validate_eq_ok_iff.trans (Address.writes_iff ended),
    fun key other same => Address.encode_injective same,
    fun known name sources program address assembled given => ?_,
    fun address other located locatedToo differ same => ?_⟩
  · obtain ⟨key, long, rfl⟩ :=
      Address.Located.exists_key ⟨known, name, sources, program, assembled, given⟩
    refine ⟨key, long, Address.decode_encode key, rfl, fun version tree written => ?_⟩
    obtain ⟨shown, accounts, instructions, events, emits, same⟩ :=
      Schema.ofProgram_eq_ok_iff.mp written
    have named := (Schema.addressOf_eq_ok_iff.mp emits.located).1
    rw [given] at named
    rw [← Option.some.inj named] at same
    exact ⟨accounts, instructions, events, same.symm⟩
  · obtain ⟨key, _, rfl⟩ := located.exists_key
    obtain ⟨keyToo, _, rfl⟩ := locatedToo.exists_key
    rw [Address.decode_encode, Address.decode_encode] at same
    exact differ (congrArg Address.encode (Except.ok.inj same))

/-! ### Two programs that declare their addresses between blanks -/

/-- A key with zero bytes in front. -/
def smallKey (last : UInt8) : List UInt8 :=
  List.replicate 30 0 ++ [1, last]

theorem encode_smallKey : Address.encode (smallKey 2) = "1111111111111111111111111111115T" ∧
    Address.encode (smallKey 3) = "1111111111111111111111111111115U" := by
  decide +kernel

/-- The text of a program with a given address. -/
def addressedText (address : String) : String :=
  "\n".intercalate ["declare_id!(\" " ++ address ++ " \");", ""]

def addressedSources (address : String) : List (String × String) :=
  [("src/lib.rs", addressedText address)]

theorem exists_program_of_map {sources : List (String × String)} {address : String}
    (computed : (assembleSources .standard "ledger" sources).outcome.map (·.address) =
      .ok (some address)) : ∃ program,
    (assembleSources .standard "ledger" sources).outcome = .ok program ∧
      program.address = some address := by
  cases assembled : (assembleSources .standard "ledger" sources).outcome with
  | error failure =>
      rw [assembled] at computed
      cases computed
  | ok program =>
      rw [assembled] at computed
      exact ⟨program, rfl, Except.ok.inj computed⟩

theorem exists_addressed_two : ∃ program,
    (assembleSources .standard "ledger"
        (addressedSources (Address.encode (smallKey 2)))).outcome = .ok program ∧
      program.address = some (Address.encode (smallKey 2)) := by
  apply exists_program_of_map
  rw [addressedSources, assembleSources_single, scan, addressedText, itemsOf?_lines,
    encode_smallKey.1]
  simp only [List.map_cons, List.map_nil]
  repeat rw [String.toList_ofList]
  decide +kernel

theorem exists_addressed_three : ∃ program,
    (assembleSources .standard "ledger"
        (addressedSources (Address.encode (smallKey 3)))).outcome = .ok program ∧
      program.address = some (Address.encode (smallKey 3)) := by
  apply exists_program_of_map
  rw [addressedSources, assembleSources_single, scan, addressedText, itemsOf?_lines,
    encode_smallKey.2]
  simp only [List.map_cons, List.map_nil]
  repeat rw [String.toList_ofList]
  decide +kernel

theorem address_writes_key_small :
    Address.validate (Address.encode (smallKey 2)) = .ok () ∧
      (∃ program, (assembleSources .standard "ledger"
          (addressedSources (Address.encode (smallKey 2)))).outcome = .ok program ∧
        program.address = some (Address.encode (smallKey 2))) ∧
      Address.decode (Address.encode (smallKey 2)) = .ok (smallKey 2) ∧
      Address.decode (Address.encode (smallKey 2)) ≠
        Address.decode (Address.encode (smallKey 3)) := by
  obtain ⟨program, assembled, given⟩ := exists_addressed_two
  obtain ⟨programToo, assembledToo, givenToo⟩ := exists_addressed_three
  obtain ⟨accepts, injective, keys, apart⟩ := address_writes_key
  obtain ⟨key, _, read, written, _⟩ := keys _ _ _ _ _ assembled given
  have ended : trimEnd (Address.encode (smallKey 2)).toList =
      (Address.encode (smallKey 2)).toList := by
    rw [encode_smallKey.1]
    decide +kernel
  refine ⟨(accepts _ ended).mpr ⟨smallKey 2, rfl, rfl⟩, ⟨program, assembled, given⟩, ?_, ?_⟩
  · rw [read, injective key (smallKey 2) written]
  · refine apart _ _ ⟨_, _, _, _, assembled, given⟩ ⟨_, _, _, _, assembledToo, givenToo⟩ ?_
    rw [encode_smallKey.1, encode_smallKey.2]
    decide

end ProgramIdl
