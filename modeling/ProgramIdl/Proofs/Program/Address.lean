import ProgramIdl.Program.Assemble
import ProgramIdl.Proofs.Pass

/-!
# The address of a program

Only the addresses outside of all modules count.  They have to agree, and the one that they agree on
has to write thirty-two bytes (`programAddress_eq_ok_iff`).
-/

set_option autoImplicit false

namespace ProgramIdl

/-- The addresses that a program declares as its own, outside of all modules. -/
def ownAddresses (declared : List (Declared ProgramId)) : List String :=
  (declared.filter fun declared => declared.content.depth = 0).map fun declared =>
    declared.content.address

/-- A text that writes as many bytes as an address has. -/
def Address.Writes (text : String) : Prop :=
  text ≠ "" ∧ ∃ bytes, Address.decode text = .ok bytes ∧ bytes.length = Address.size

theorem Address.validate_eq_ok_iff {text : String} :
    Address.validate text = .ok () ↔ Address.Writes text := by
  have parsed : (∃ bytes, Address.parse text = .ok bytes) ↔ Address.Writes text := by
    rw [Address.parse, Address.Writes]
    by_cases empty : text = ""
    · simp [empty, bind, Except.bind, throw, throwThe, MonadExceptOf.throw]
    · cases decoded : Address.decode text with
      | error fault => simp [empty, bind, Except.bind]
      | ok bytes =>
          by_cases long : bytes.length = Address.size
          · simp [empty, long, bind, Except.bind, pure, Except.pure]
          · simp [empty, long, bind, Except.bind, throw, throwThe, MonadExceptOf.throw]
  rw [← parsed, Address.validate]
  cases Address.parse text with
  | ok bytes => simp
  | error fault => simp

/-- The address that is found is the first one, and all others agree with it. -/
theorem programAddressFrom_eq_ok_iff {before address : Option String}
    {declared : List (Declared ProgramId)} :
    (programAddressFrom before declared).outcome = .ok address ↔
      address = (before.toList ++ ownAddresses declared).head? ∧
        ∀ other ∈ before.toList ++ ownAddresses declared, address = some other := by
  induction declared generalizing before with
  | nil =>
      cases before with
      | none => simp [programAddressFrom, ownAddresses, eq_comm]
      | some text => simp [programAddressFrom, ownAddresses, eq_comm]
  | cons first rest inductionHypothesis =>
      rw [programAddressFrom]
      by_cases nested : first.content.depth > 0
      · have skipped : ownAddresses (first :: rest) = ownAddresses rest := by
          simp [ownAddresses, Nat.ne_of_gt nested]
        rw [if_pos nested, Reporting.outcome_bind, Reporting.outcome_report, skipped,
          ← inductionHypothesis]
        rfl
      · have counted : ownAddresses (first :: rest) =
            first.content.address :: ownAddresses rest := by
          simp [ownAddresses, Nat.eq_zero_of_not_pos nested]
        rw [if_neg nested, counted]
        cases before with
        | none =>
            rw [if_neg (by simp), inductionHypothesis]
            rfl
        | some text =>
            by_cases same : text = first.content.address
            · subst same
              rw [if_neg (by simp), inductionHypothesis]
              simp
            · rw [if_pos (by simpa using same)]
              simp only [Reporting.outcome_throw, reduceCtorEq, Option.toList_some,
                List.singleton_append, List.head?_cons, List.forall_mem_cons, false_iff]
              rintro ⟨rfl, _, agrees, _⟩
              exact same (Option.some.inj agrees)

/-- The address of a program is the first of its own addresses; they agree, and it is one. -/
theorem programAddress_eq_ok_iff {declared : List (Declared ProgramId)} {address : Option String} :
    (programAddress declared).outcome = .ok address ↔
      address = (ownAddresses declared).head? ∧
        ∀ other ∈ ownAddresses declared, address = some other ∧ Address.Writes other := by
  rw [programAddress, Reporting.outcome_bind, bind_eq_ok_iff]
  constructor
  · rintro ⟨found, agreed, checked⟩
    obtain ⟨first, agree⟩ := programAddressFrom_eq_ok_iff.mp agreed
    simp only [Option.toList_none, List.nil_append] at first agree
    cases found with
    | none =>
        obtain rfl := Except.ok.inj checked
        exact ⟨first, fun other listed => absurd (agree other listed) (by simp)⟩
    | some text =>
        simp only [Reporting.outcome_bind, Reporting.outcome_lift, bind_eq_ok_iff] at checked
        obtain ⟨_, valid, same⟩ := checked
        obtain rfl := Except.ok.inj same
        refine ⟨first, fun other listed => ⟨agree other listed, ?_⟩⟩
        obtain rfl := Option.some.inj (agree other listed)
        exact Address.validate_eq_ok_iff.mp valid
  · rintro ⟨first, agree⟩
    refine ⟨address, programAddressFrom_eq_ok_iff.mpr ⟨first, fun other listed =>
      (agree other listed).1⟩, ?_⟩
    cases address with
    | none => rfl
    | some text =>
        have valid := Address.validate_eq_ok_iff.mpr
          (agree text (List.mem_of_head? first.symm)).2
        simp only [Reporting.outcome_bind, Reporting.outcome_lift, valid]
        rfl

end ProgramIdl
