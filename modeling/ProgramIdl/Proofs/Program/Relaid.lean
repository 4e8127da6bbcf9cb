import ProgramIdl.Proofs.Declaration.Leaves
import ProgramIdl.Proofs.Program.Sources

/-!
# The layout of source texts

Blanks and plain comments between the tokens of a program's sources make no difference to it, as long
as the texts that are kept of the items still read the same.
-/

set_option autoImplicit false

namespace ProgramIdl

open ProgramIdl.Syntax

/-- A source text with its path in two layouts, of which what is kept of the items reads the same. -/
structure SourceRelaid (source source' : String × String) : Prop where
  path : source.1 = source'.1
  layout : Relaid source.2 source'.2
  kept : ∀ items ∈ itemsOf? source.2, ∀ items' ∈ itemsOf? source'.2, KeptAlike items items'

theorem SourceRelaid.scan_alike {source source' : String × String}
    (relaid : SourceRelaid source source') :
    RunsAlike ScannedFile.SameButLines (scan source.1 source.2) (scan source'.1 source'.2) := by
  obtain ⟨places, read⟩ := itemsOf?_relaid relaid.layout
  have kept := relaid.kept
  rw [relaid.path]
  apply @ProgramIdl.scan_alike source'.1 source.2 source'.2 places
  generalize itemsOf? source.2 = items at read kept ⊢
  generalize itemsOf? source'.2 = items' at read kept ⊢
  cases read with
  | none => exact .none
  | some alike => exact .some (alike (kept _ rfl _ rfl))

/-- Sources in two layouts make up the same program with the same warnings, or fail alike apart from
the location of the fault. -/
theorem assembleSources_relaid (known : KnownAddresses) (name : String)
    {sources sources' : List (String × String)}
    (relaid : List.Forall₂ SourceRelaid sources sources') :
    (∀ program, (assembleSources known name sources).outcome = .ok program ↔
      (assembleSources known name sources').outcome = .ok program) ∧
    (assembleSources known name sources).warnings =
      (assembleSources known name sources').warnings ∧
    (assembleSources known name sources).outcome.mapError Failure.placeless =
      (assembleSources known name sources').outcome.mapError Failure.placeless := by
  have alike := assembleSources_alike known name (relaid.imp fun _ _ source => source.scan_alike)
  refine ⟨fun program => ⟨fun found => ?_, fun found => ?_⟩, alike.warnings, alike.outcome⟩
  · exact alike.outcome.eq_ok found
  · exact alike.symm.outcome.eq_ok found

/-! ### An error enum in two layouts -/

def faultText : String :=
  "\n".intercalate ["#[error] enum Fault \x7b Late = 6 \x7d"]

/-- The same text with other blanks, and with a comment between two tokens. -/
def spacedFaultText : String :=
  "\n".intercalate ["#[ error ] enum /* codes */ Fault", "\x7bLate=6\x7d"]

theorem sourceRelaid_faultText :
    SourceRelaid ("src/lib.rs", faultText) ("src/lib.rs", spacedFaultText) := by
  refine ⟨rfl, ?_, ?_⟩
  · rw [Relaid, faultText, spacedFaultText, tokens?_lines, tokens?_lines]
    simp only [List.map_cons, List.map_nil]
    repeat rw [String.toList_ofList]
    decide +kernel
  · rw [faultText, spacedFaultText, itemsOf?_lines, itemsOf?_lines]
    simp only [List.map_cons, List.map_nil]
    repeat rw [String.toList_ofList]
    decide +kernel

theorem assembleSources_relaid_fault :
    List.Forall₂ SourceRelaid [("src/lib.rs", faultText)] [("src/lib.rs", spacedFaultText)] ∧
      (assembleSources .standard "faults" [("src/lib.rs", faultText)]).outcome.mapError
          Failure.placeless =
        (assembleSources .standard "faults" [("src/lib.rs", spacedFaultText)]).outcome.mapError
          Failure.placeless := by
  have relaid : List.Forall₂ SourceRelaid [("src/lib.rs", faultText)]
      [("src/lib.rs", spacedFaultText)] := .cons sourceRelaid_faultText .nil
  exact ⟨relaid, (assembleSources_relaid .standard "faults" relaid).2.2⟩

/-! ### A check of an address that a macro derives -/

/-- A program that checks an address against the seeds of a macro, which is called in a given way. -/
def checkText (call : String) : String :=
  "\n".intercalate ["#[discriminator] enum Op \x7b Go \x7d",
    "#[instruction(discriminator = Op, variant = Go)] struct Go;",
    "#[derive(Accounts)] struct Slots \x7b vault: V \x7d",
    "impl ProcessAccountInfos for Slots \x7b fn check() \x7b self.vault.assert_seeds(",
    call,
    ", &ID) \x7d \x7d",
    "fn process_instruction() \x7b match x \x7b Op::Go => Slots::try_from(y) \x7d \x7d"]

/-- The names of the derived addresses of each instruction's accounts. -/
def slotPdas (text : String) : Option (List (List (Option String))) :=
  (assembleSources .standard "vault" [("src/lib.rs", text)]).outcome.toOption.map fun program =>
    program.instructions.map fun instruction => instruction.slots.map (·.pda)

theorem assembleSources_single (known : KnownAddresses) (name path text : String) :
    (assembleSources known name [(path, text)]).outcome = (do
      let file ← (scan path text).outcome
      (assemble known name [file]).outcome) := by
  rw [assembleSources, List.mapM_cons, List.mapM_nil]
  simp only [Reporting.outcome_bind]
  cases (scan path text).outcome <;> rfl

/-- A blank in front of the exclamation mark of a macro call hides which address it derives. -/
theorem not_relaid_check :
    Relaid (checkText "vault_seeds!()") (checkText "vault_seeds !()") ∧
      slotPdas (checkText "vault_seeds!()") = some [[some "vault"]] ∧
      slotPdas (checkText "vault_seeds !()") = some [[none]] := by
  refine ⟨?_, ?_, ?_⟩
  · rw [Relaid, checkText, checkText, tokens?_lines, tokens?_lines]
    simp only [List.map_cons, List.map_nil]
    repeat rw [String.toList_ofList]
    decide +kernel
  · rw [slotPdas, assembleSources_single, scan, checkText, itemsOf?_lines]
    simp only [List.map_cons, List.map_nil]
    repeat rw [String.toList_ofList]
    decide +kernel
  · rw [slotPdas, assembleSources_single, scan, checkText, itemsOf?_lines]
    simp only [List.map_cons, List.map_nil]
    repeat rw [String.toList_ofList]
    decide +kernel

end ProgramIdl
