import Mathlib.Data.List.Forall2
import Mathlib.Data.List.Perm.Basic
import ProgramIdl.Program.AccountSlots

/-!
# What the checks say about an account

The checks on a field say whether its account signs, whether it is written, whether its address is
derived, from which seeds, and whether it is fixed.  A slot records the first four, in whatever order
the checks are made.  Of the checks of a fixed address only the last one counts, so that a slot may
lose the address that an earlier one gives: it is recorded in every order exactly if these checks are
of one mind (`all_reports`).
-/

set_option autoImplicit false

namespace ProgramIdl

open ProgramIdl.Text

/-! ## Checks -/

namespace KnownAddresses

/-- The argument of a check denotes the address of the program itself or a known one. -/
def Denotes (known : KnownAddresses) (argument : String) : Prop :=
  String.ofList (dereference argument.toList) ∈ AccountSlot.ownPaths ∨
    ∃ entry ∈ known, names entry.1 (.ofList (dereference argument.toList)) = true

/-- A check that gives an account a fixed address. -/
def Fixes (known : KnownAddresses) (check : Assertion) : Prop :=
  ∃ argument, AccountSlot.askedAddress? check = some argument ∧ known.Denotes argument

end KnownAddresses

/-- The checks that the processors of a struct make. -/
def Declared.checks (struct : Declared AccountsStruct) (processors : List (Declared Processor)) :
    List Assertion :=
  (processors.filter fun processor => processor.name = struct.name).flatMap fun processor =>
    processor.content.assertions

/-- A processor of a struct makes a check on a field. -/
def Declared.Makes (struct : Declared AccountsStruct) (processors : List (Declared Processor))
    (field : String) (check : Assertion) : Prop :=
  ∃ processor ∈ processors, processor.name = struct.name ∧
    check ∈ processor.content.assertions ∧ check.field = field

/-- The checks of a fixed address all give one, or none does. -/
def KnownAddresses.Unanimous (known : KnownAddresses) (made : Assertion → Prop) : Prop :=
  ∀ check other, made check → made other → (AccountSlot.askedAddress? check).isSome →
    known.Fixes other → known.Fixes check

namespace AccountSlot

/-- A slot records of the checks that are made on its field who signs, what is written, and which
address is derived. -/
structure Reports (seeds : SeedTable) (made : Assertion → Prop) (slot : AccountSlot) : Prop where
  signer : slot.isSigner = true ↔ ∃ check, made check ∧ check.method = "assert_signer"
  writable : slot.isWritable = true ↔ ∃ check, made check ∧ check.method = "assert_writable"
  derived : slot.isPda = true ↔ ∃ check, made check ∧
    check.method ∈ ["assert_seeds", "assert_seeds_with_bump", "assert_canonical_bump"]
  named : slot.pda.isSome = true ↔ ∃ check, made check ∧
    check.method ∈ ["assert_seeds", "assert_seeds_with_bump", "assert_canonical_bump"] ∧
      ∃ argument, check.arguments.head? = some argument ∧
        (Pda.nameOfSeeds? seeds argument).isSome = true

/-- A slot records that some check on its field gives it a fixed address. -/
def ReportsAddress (known : KnownAddresses) (made : Assertion → Prop) (slot : AccountSlot) : Prop :=
  slot.default.isSome = true ↔ ∃ check, made check ∧ known.Fixes check

/-! ## One slot -/

variable {known : KnownAddresses} {seeds : SeedTable} {field : Field} {checks : List Assertion}

theorem defaultOf?_isSome_iff {argument : String} :
    (defaultOf? known argument).isSome = true ↔ known.Denotes argument := by
  rw [defaultOf?, KnownAddresses.Denotes]
  by_cases own : String.ofList (dereference argument.toList) ∈ ownPaths
  · simp [own]
  · simp [own, KnownAddresses.addressOf?, List.find?_isSome]

theorem asksPda_iff {check : Assertion} : asksPda check = true ↔
    check.method ∈ ["assert_seeds", "assert_seeds_with_bump", "assert_canonical_bump"] :=
  decide_eq_true_iff

theorem askedPda?_isSome_iff {check : Assertion} : (askedPda? seeds check).isSome = true ↔
    check.method ∈ ["assert_seeds", "assert_seeds_with_bump", "assert_canonical_bump"] ∧
      ∃ argument, check.arguments.head? = some argument ∧
        (Pda.nameOfSeeds? seeds argument).isSome = true := by
  rw [askedPda?, ← asksPda_iff]
  by_cases asks : asksPda check = true
  · simp [asks, Option.isSome_bind, Option.any_eq_true]
  · simp [asks]

theorem ofChecks_reports : Reports seeds (· ∈ checks) (ofChecks known seeds field checks) where
  signer := by simp [ofChecks, asksSigner]
  writable := by simp [ofChecks, asksWritable]
  derived := by simp only [ofChecks, List.any_eq_true, asksPda_iff]
  named := by simp only [ofChecks, List.findSome?_isSome_iff, askedPda?_isSome_iff]

/-- The last check of a fixed address decides. -/
theorem default_ofChecks_isSome_iff :
    (ofChecks known seeds field checks).default.isSome = true ↔
      ∃ argument, (checks.filterMap askedAddress?).getLast? = some argument ∧
        known.Denotes argument := by
  simp only [ofChecks, Option.isSome_bind, Option.any_eq_true, defaultOf?_isSome_iff]

theorem ofChecks_reportsAddress (unanimous : known.Unanimous (· ∈ checks)) :
    ReportsAddress known (· ∈ checks) (ofChecks known seeds field checks) := by
  rw [ReportsAddress, default_ofChecks_isSome_iff]
  constructor
  · rintro ⟨argument, last, denotes⟩
    obtain ⟨check, made, asked⟩ := List.mem_filterMap.mp (List.mem_of_getLast? last)
    exact ⟨check, made, argument, asked, denotes⟩
  · rintro ⟨other, made, fixes⟩
    obtain ⟨argument, asked, denotes⟩ := fixes
    have present : checks.filterMap askedAddress? ≠ [] :=
      List.ne_nil_of_mem (List.mem_filterMap.mpr ⟨other, made, asked⟩)
    -- The last one is of the same mind as the one that gives an address.
    have last := List.getLast?_eq_some_getLast present
    obtain ⟨check, madeToo, askedToo⟩ := List.mem_filterMap.mp (List.getLast_mem present)
    obtain ⟨same, askedSame, denotesSame⟩ :=
      unanimous check other madeToo made (by rw [askedToo]; rfl) ⟨argument, asked, denotes⟩
    rw [askedToo] at askedSame
    exact ⟨_, last, Option.some.inj askedSame ▸ denotesSame⟩

/-- A check that gives no fixed address undoes those before it. -/
theorem default_ofChecks_append {check : Assertion}
    (asks : (askedAddress? check).isSome = true) (refuses : ¬ known.Fixes check) :
    (ofChecks known seeds field (checks ++ [check])).default.isSome = false := by
  obtain ⟨argument, asked⟩ := Option.isSome_iff_exists.mp asks
  rw [Bool.eq_false_iff, ne_eq, default_ofChecks_isSome_iff]
  rintro ⟨last, isLast, denotes⟩
  rw [List.filterMap_append, List.filterMap_cons_some asked, List.filterMap_nil,
    List.getLast?_concat] at isLast
  exact refuses ⟨argument, asked, Option.some.inj isLast ▸ denotes⟩

/-! ## All slots -/

variable {struct : Declared AccountsStruct} {processors others : List (Declared Processor)}

theorem mem_checks_iff {name : String} {check : Assertion} :
    check ∈ (struct.checks processors).filter (fun check => check.field = name) ↔
      struct.Makes processors name check := by
  simp only [Declared.checks, Declared.Makes, List.mem_filter, List.mem_flatMap, decide_eq_true_eq]
  constructor
  · rintro ⟨⟨processor, ⟨listed, named⟩, made⟩, same⟩
    exact ⟨processor, listed, named, made, same⟩
  · rintro ⟨processor, listed, named, made, same⟩
    exact ⟨⟨processor, ⟨listed, named⟩, made⟩, same⟩

/-- The slots stand in the order of the fields, each by the checks on its field. -/
theorem forall₂_all_iff {related : Field → AccountSlot → Prop} :
    List.Forall₂ related struct.content.fields (all known seeds struct processors) ↔
      ∀ field ∈ struct.content.fields, related field (ofChecks known seeds field
        ((struct.checks processors).filter fun check => check.field = field.name)) := by
  rw [all, List.forall₂_map_right_iff, List.forall₂_same]
  rfl

theorem mem_iff_of_perm (permuted : (struct.checks others).Perm (struct.checks processors))
    (name : String) :
    (· ∈ (struct.checks others).filter fun check => check.field = name) =
      struct.Makes processors name := by
  funext check
  rw [(permuted.filter _).mem_iff, mem_checks_iff]

/-- In whatever order the checks are made, each slot records who signs, what is written and which
address is derived.  That a fixed address is given is recorded in every order exactly if the checks of
a fixed address are of one mind on every field. -/
theorem all_reports (known : KnownAddresses) (seeds : SeedTable) (struct : Declared AccountsStruct)
    (processors : List (Declared Processor)) :
    (∀ others : List (Declared Processor),
      (struct.checks others).Perm (struct.checks processors) →
        List.Forall₂ (fun field slot => slot.name = field.name ∧
            Reports seeds (struct.Makes processors field.name) slot)
          struct.content.fields (all known seeds struct others)) ∧
    ((∀ others : List (Declared Processor),
      (struct.checks others).Perm (struct.checks processors) →
        List.Forall₂ (fun field slot =>
            ReportsAddress known (struct.Makes processors field.name) slot)
          struct.content.fields (all known seeds struct others)) ↔
      ∀ field ∈ struct.content.fields, known.Unanimous (struct.Makes processors field.name)) := by
  refine ⟨fun others permuted => ?_, fun reported field listed check other made madeToo asks fixes => ?_,
    fun unanimous others permuted => ?_⟩
  · rw [forall₂_all_iff]
    intro field _
    rw [← mem_iff_of_perm permuted field.name]
    exact ⟨rfl, ofChecks_reports⟩
  · -- Otherwise the check may be made behind all the others.
    by_contra refuses
    obtain ⟨inside, here⟩ := List.mem_filter.mp (mem_checks_iff.mpr made)
    have here : check.field = field.name := of_decide_eq_true here
    let late : Declared Processor :=
      ⟨struct.name, struct.site, [], ⟨(struct.checks processors).erase check ++ [check]⟩⟩
    have lateChecks : struct.checks [late] = (struct.checks processors).erase check ++ [check] := by
      simp [Declared.checks, late]
    have permuted : (struct.checks [late]).Perm (struct.checks processors) := by
      rw [lateChecks]
      exact (List.perm_append_singleton _ _).trans (List.perm_cons_erase inside).symm
    have recorded := (forall₂_all_iff.mp (reported [late] permuted) field listed).mpr
      ⟨other, madeToo, fixes⟩
    rw [lateChecks, List.filter_append, List.filter_cons_of_pos (by simpa using here),
      List.filter_nil, default_ofChecks_append asks refuses] at recorded
    cases recorded
  · rw [forall₂_all_iff]
    intro field listed
    have oneMind := unanimous field listed
    rw [← mem_iff_of_perm permuted field.name] at oneMind ⊢
    exact ofChecks_reportsAddress oneMind

/-! ### An address that is checked twice -/

/-- A struct with one account. -/
def systemStruct : Declared AccountsStruct :=
  ⟨"Slots", ⟨"src/lib.rs", 3⟩, [], ⟨[{ name := "system", type := "S" }]⟩⟩

/-- A processor that checks the account against a known address and against another one. -/
def recheckingProcessor : Declared Processor :=
  ⟨"Slots", ⟨"src/lib.rs", 4⟩, [],
    ⟨[⟨"system", "assert_address", ["&system::ID"]⟩, ⟨"system", "assert_address", ["&expected"]⟩]⟩⟩

/-- The slot has no address, though one of the checks gives it one. -/
theorem not_reportsAddress_rechecked :
    ∃ slot, all .standard {} systemStruct [recheckingProcessor] = [slot] ∧
      slot.default = none ∧
        ∃ check, systemStruct.Makes [recheckingProcessor] "system" check ∧
          KnownAddresses.standard.Fixes check := by
  refine ⟨_, rfl, by decide +kernel, ⟨"system", "assert_address", ["&system::ID"]⟩, ?_, "&system::ID",
    by decide +kernel, ?_⟩
  · exact ⟨recheckingProcessor, List.mem_singleton.mpr rfl, rfl, by decide +kernel, rfl⟩
  · exact .inr ⟨_, List.mem_cons_self, by decide +kernel⟩

end AccountSlot

end ProgramIdl
