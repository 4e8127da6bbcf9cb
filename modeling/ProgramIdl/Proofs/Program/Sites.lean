import ProgramIdl.Program.Assemble
import ProgramIdl.Proofs.Layout.Resolve

/-!
# Sites

Declarations hold the site where they stand, so that failures and notices can speak of it.  That is
all a site is good for: declarations without sites lead to the same program and the same warnings,
or to the same failure apart from the location in it (`assembleDeclarations_placeless`).
-/

set_option autoImplicit false

namespace ProgramIdl

/-! ## Forgetting sites -/

/-- A failure without the location that it speaks of. -/
def Failure.placeless : Failure → Failure
  | .unresolvedDiscriminator name context _ => .unresolvedDiscriminator name context none
  | .unsupportedType context token _ => .unsupportedType context token none
  | failure => failure

/-- A notice without the site that it speaks of. -/
def Notice.placeless : Notice → Notice
  | .nestedProgramId address _ => .nestedProgramId address ⟨"", 0⟩
  | notice => notice

namespace Declared

variable {α : Type}

def placeless (declared : Declared α) : Declared α :=
  { declared with site := ⟨"", 0⟩ }

@[simp] theorem name_placeless (declared : Declared α) : declared.placeless.name = declared.name :=
  rfl

@[simp] theorem docs_placeless (declared : Declared α) : declared.placeless.docs = declared.docs :=
  rfl

@[simp] theorem content_placeless (declared : Declared α) :
    declared.placeless.content = declared.content :=
  rfl

end Declared

/-- Declarations without the sites where they stand. -/
def Declarations.placeless (declarations : Declarations) : Declarations where
  discriminators := declarations.discriminators.map Declared.placeless
  accounts := declarations.accounts.map Declared.placeless
  instructions := declarations.instructions.map Declared.placeless
  events := declarations.events.map Declared.placeless
  errors := declarations.errors.map Declared.placeless
  programIds := declarations.programIds.map Declared.placeless
  constants := declarations.constants.map Declared.placeless
  seedMacros := declarations.seedMacros.map Declared.placeless
  seedCalls := declarations.seedCalls.map Declared.placeless
  pdaCalls := declarations.pdaCalls.map Declared.placeless
  records := declarations.records.map Declared.placeless
  accountsStructs := declarations.accountsStructs.map Declared.placeless
  processors := declarations.processors.map Declared.placeless
  dispatches := declarations.dispatches.map Declared.placeless

/-! ## Outcomes that differ in locations only -/

section Alike

variable {α β : Type}

/-- Two outcomes with one value, or with failures that differ in their locations only. -/
def SameOutcome (first second : Except Failure α) : Prop :=
  first.mapError Failure.placeless = second.mapError Failure.placeless

theorem SameOutcome.refl (outcome : Except Failure α) : SameOutcome outcome outcome :=
  rfl

theorem SameOutcome.error {first second : Failure} (same : first.placeless = second.placeless) :
    SameOutcome (.error first : Except Failure α) (.error second) :=
  congrArg Except.error same

theorem SameOutcome.bind {first second : Except Failure α} {next other : α → Except Failure β}
    (same : SameOutcome first second) (later : ∀ value, SameOutcome (next value) (other value)) :
    SameOutcome (first >>= next) (second >>= other) := by
  cases first with
  | ok value =>
      cases second with
      | ok again =>
          obtain rfl := Except.ok.inj same
          exact later value
      | error failure => cases same
  | error failure =>
      cases second with
      | ok value => cases same
      | error again => exact .error (Except.error.inj same)

theorem SameOutcome.ite {condition other : Prop} [Decidable condition] [Decidable other]
    {first second third fourth : Except Failure α} (same : condition ↔ other)
    (holds : SameOutcome first third) (fails : SameOutcome second fourth) :
    SameOutcome (if condition then first else second) (if other then third else fourth) := by
  by_cases decided : condition
  · rw [if_pos decided, if_pos (same.mp decided)]
    exact holds
  · rw [if_neg decided, if_neg (mt same.mpr decided)]
    exact fails

theorem SameOutcome.eq_ok {first second : Except Failure α} (same : SameOutcome first second)
    {value : α} (found : first = .ok value) : second = .ok value := by
  subst found
  cases second with
  | ok again => rw [Except.ok.inj same]
  | error failure => cases same

namespace Reporting

/-- Two runs with one outcome and the same notices, apart from sites. -/
structure Alike (first second : Reporting α) : Prop where
  notices : first.notices.map Notice.placeless = second.notices.map Notice.placeless
  outcome : SameOutcome first.outcome second.outcome

theorem Alike.refl (run : Reporting α) : Alike run run :=
  ⟨rfl, rfl⟩

theorem Alike.symm {first second : Reporting α} (alike : Alike first second) :
    Alike second first :=
  ⟨alike.notices.symm, Eq.symm alike.outcome⟩

theorem Alike.trans {first second third : Reporting α} (alike : Alike first second)
    (again : Alike second third) : Alike first third :=
  ⟨alike.notices.trans again.notices, Eq.trans alike.outcome again.outcome⟩

theorem Alike.lift {first second : Except Failure α} (same : SameOutcome first second) :
    Alike (liftM first) (liftM second) :=
  ⟨rfl, same⟩

theorem Alike.ite {condition other : Prop} [Decidable condition] [Decidable other]
    {first second third fourth : Reporting α} (same : condition ↔ other)
    (holds : Alike first third) (fails : Alike second fourth) :
    Alike (if condition then first else second) (if other then third else fourth) := by
  by_cases decided : condition
  · rw [if_pos decided, if_pos (same.mp decided)]
    exact holds
  · rw [if_neg decided, if_neg (mt same.mpr decided)]
    exact fails

theorem Alike.report {first second : Notice} (same : first.placeless = second.placeless) :
    Alike (report first) (report second) :=
  ⟨congrArg (fun notice => [notice]) same, rfl⟩

theorem Alike.bind {first second : Reporting α} {next other : α → Reporting β}
    (alike : Alike first second) (later : ∀ value, Alike (next value) (other value)) :
    Alike (first >>= next) (second >>= other) := by
  obtain ⟨sameNotices, sameOutcome⟩ := alike
  change Alike (first.andThen next) (second.andThen other)
  rw [andThen, andThen]
  cases found : first.outcome with
  | ok value =>
      rw [found] at sameOutcome
      rw [sameOutcome.eq_ok rfl]
      refine ⟨?_, (later value).outcome⟩
      simp only [List.map_append, sameNotices, (later value).notices]
  | error failure =>
      rw [found] at sameOutcome
      cases again : second.outcome with
      | ok value =>
          rw [again] at sameOutcome
          cases sameOutcome
      | error other =>
          rw [again] at sameOutcome
          exact ⟨sameNotices, .error (Except.error.inj sameOutcome)⟩

/-- Warnings do not speak of sites. -/
theorem warnings_eq (run : Reporting α) :
    run.warnings = ((run.notices.map Notice.placeless).filter fun notice =>
      notice.level = .warning).map Notice.message := by
  rw [warnings]
  induction run.notices with
  | nil => rfl
  | cons notice rest inductionHypothesis =>
      have level : notice.placeless.level = notice.level := by cases notice <;> rfl
      rw [List.map_cons, List.filter_cons, List.filter_cons, level]
      by_cases warns : notice.level = .warning
      · have message : notice.placeless.message = notice.message := by
          cases notice <;> first | rfl | cases warns
        simp [warns, message, inductionHypothesis]
      · simp [warns, inductionHypothesis]

theorem Alike.warnings {first second : Reporting α} (alike : Alike first second) :
    first.warnings = second.warnings := by
  rw [warnings_eq, warnings_eq, alike.notices]

end Reporting

namespace Resolving

/-- Two steps that remember the same and have one outcome, apart from locations. -/
structure Alike (first second : Resolving α) : Prop where
  outcome : ∀ memory, SameOutcome (first.run memory).1 (second.run memory).1
  memory : ∀ memory, (first.run memory).2 = (second.run memory).2

theorem Alike.refl (step : Resolving α) : Alike step step :=
  ⟨fun _ => rfl, fun _ => rfl⟩

theorem Alike.thrown {first second : Failure} (same : first.placeless = second.placeless) :
    Alike (throw first : Resolving α) (throw second) :=
  ⟨fun _ => .error same, fun _ => rfl⟩

theorem Alike.thrown_bind {first second : Failure} (same : first.placeless = second.placeless)
    {next other : α → Resolving β} : Alike (throw first >>= next) (throw second >>= other) :=
  ⟨fun _ => .error same, fun _ => rfl⟩

theorem Alike.lift {first second : Except Failure α} (same : SameOutcome first second) :
    Alike (liftM first : Resolving α) (liftM second) :=
  ⟨fun _ => same, fun _ => rfl⟩

theorem Alike.ite {condition other : Prop} [Decidable condition] [Decidable other]
    {first second third fourth : Resolving α} (same : condition ↔ other)
    (holds : Alike first third) (fails : Alike second fourth) :
    Alike (if condition then first else second) (if other then third else fourth) := by
  by_cases decided : condition
  · rw [if_pos decided, if_pos (same.mp decided)]
    exact holds
  · rw [if_neg decided, if_neg (mt same.mpr decided)]
    exact fails

/-- After one memory two alike steps are both through, or have both failed. -/
theorem Alike.cases {first second : Resolving α} (alike : Alike first second)
    (memory : LayoutMemory) : ∃ after,
    (∃ value, first.run memory = (.ok value, after) ∧ second.run memory = (.ok value, after)) ∨
    ∃ failure other : Failure, failure.placeless = other.placeless ∧
      first.run memory = (.error failure, after) ∧ second.run memory = (.error other, after) := by
  have sameOutcome := alike.outcome memory
  have sameMemory := alike.memory memory
  rcases ran : first.run memory with ⟨outcome, after⟩
  rcases ranOther : second.run memory with ⟨other, afterOther⟩
  simp only [ran, ranOther] at sameOutcome sameMemory
  subst sameMemory
  refine ⟨after, ?_⟩
  cases outcome with
  | ok value =>
      rw [sameOutcome.eq_ok rfl]
      exact Or.inl ⟨value, rfl, rfl⟩
  | error failure =>
      cases other with
      | ok value => cases sameOutcome
      | error other => exact Or.inr ⟨failure, other, Except.error.inj sameOutcome, rfl, rfl⟩

theorem Alike.bind {first second : Resolving α} {next other : α → Resolving β}
    (alike : Alike first second) (later : ∀ value, Alike (next value) (other value)) :
    Alike (first >>= next) (second >>= other) := by
  constructor
  all_goals
    intro memory
    rw [run_bind, run_bind]
    obtain ⟨after, ⟨value, ran, ranOther⟩ | ⟨failure, other, same, ran, ranOther⟩⟩ :=
      alike.cases memory
    all_goals rw [ran, ranOther]
  · exact (later value).outcome after
  · exact .error same
  · exact (later value).memory after

theorem Alike.within {first second : Resolving α} (alike : Alike first second) (name : String) :
    Alike (within name first) (within name second) := by
  constructor
  · intro memory
    exact alike.outcome (memory.enter name)
  · intro memory
    rw [run_within, run_within, alike.memory (memory.enter name)]

end Resolving

end Alike

/-! ## Addresses and discriminators -/

theorem programAddressFrom_placeless (before : Option String) (declared : List (Declared ProgramId)) :
    (programAddressFrom before declared).Alike
      (programAddressFrom before (declared.map Declared.placeless)) := by
  induction declared generalizing before with
  | nil => exact .refl _
  | cons first rest inductionHypothesis =>
      rw [List.map_cons, programAddressFrom, programAddressFrom]
      apply Reporting.Alike.ite Iff.rfl
      · exact .bind (.report rfl) fun _ => inductionHypothesis before
      · apply Reporting.Alike.ite Iff.rfl
        · exact .refl _
        · exact inductionHypothesis (some first.content.address)

theorem programAddress_placeless (declared : List (Declared ProgramId)) :
    (programAddress declared).Alike (programAddress (declared.map Declared.placeless)) := by
  apply Reporting.Alike.bind (programAddressFrom_placeless none declared)
  intro address
  exact .refl _

namespace Discriminator

theorem declaredWidth_placeless (declared : Declared DiscriminatorEnum) :
    SameOutcome (declaredWidth declared) (declaredWidth declared.placeless) := by
  unfold declaredWidth
  simp only [Declared.placeless]
  cases declared.content.primitive with
  | none => exact .refl _
  | some type =>
      dsimp only
      cases primitiveWidth? type with
      | some width => exact .refl _
      | none => exact .error rfl

theorem allFrom_placeless (seen : List String) (declared : List (Declared DiscriminatorEnum)) :
    SameOutcome (allFrom seen declared) (allFrom seen (declared.map Declared.placeless)) := by
  induction declared generalizing seen with
  | nil => exact .refl _
  | cons first rest inductionHypothesis =>
      have here : SameOutcome (ofDeclared first) (ofDeclared first.placeless) :=
        .bind (declaredWidth_placeless first) fun _ => .refl _
      rw [List.map_cons, allFrom, allFrom]
      apply SameOutcome.ite Iff.rfl
      · exact .refl _
      · exact .bind here fun _ => .bind (inductionHypothesis (first.name :: seen)) fun _ => .refl _

theorem select_placeless (discriminators : List Discriminator) (declared : Declared TaggedStruct)
    (variant : String) :
    SameOutcome (select discriminators declared variant)
      (select discriminators declared.placeless variant) := by
  unfold select
  simp only [Declared.placeless]
  split
  · exact .error rfl
  · split
    · exact .error rfl
    · split
      · exact .error rfl
      · split
        · exact .refl _
        · exact .error rfl

end Discriminator

/-! ## Layouts -/

namespace TypeTable

variable {table : TypeTable}

theorem layOutWith_alike {resolve other : Owner → String → Resolving Layout}
    (alike : ∀ owner again : Owner, owner.name = again.name → ∀ token,
      (resolve owner token).Alike (other again token))
    (owner again : Owner) (same : owner.name = again.name) (fields : List Field) :
    (layOutWith resolve owner fields).Alike (layOutWith other again fields) := by
  induction fields with
  | nil => exact .refl _
  | cons field fields inductionHypothesis =>
      rw [layOutWith, layOutWith]
      exact .bind (alike owner again same field.type) fun _ =>
        .bind inductionHypothesis fun _ => .refl _

/-- Where structs and their fields stand shows in failures only. -/
theorem resolveWithin_alike (table : TypeTable) (sites : List (String × String)) (depth : Nat)
    {owner again : Owner} (same : owner.name = again.name) (token : String) :
    (table.resolveWithin depth owner token).Alike
      ({ table with sites := sites }.resolveWithin depth again token) := by
  induction depth using Nat.strongRecOn generalizing owner again token with
  | _ depth inductionHypothesis =>
  have sameRead : { table with sites := sites }.read token = table.read token := rfl
  have unsupported : (owner.unsupported token).placeless = (again.unsupported token).placeless := by
    simp only [Owner.unsupported, Failure.placeless, same]
  rw [resolveWithin, resolveWithin, sameRead]
  cases table.read token with
  | known layout => exact .refl _
  | unknown => exact .thrown unsupported
  | record name fields =>
      apply Resolving.Alike.bind (.refl _)
      intro memory
      cases memory.finished.lookup name with
      | some layout => exact .refl _
      | none =>
          apply Resolving.Alike.ite Iff.rfl
          · exact .thrown_bind unsupported
          · cases depth with
            | zero => exact .thrown unsupported
            | succ depth =>
                have inner := layOutWith_alike
                  (fun _ _ same token =>
                    inductionHypothesis depth (Nat.lt_succ_self depth) same token)
                  ⟨name, table.sites.lookup name⟩ ⟨name, sites.lookup name⟩ rfl fields
                exact .bind (inner.within name) fun _ => .refl _

theorem resolveFields_alike (table : TypeTable) (sites : List (String × String))
    {owner again : Owner} (same : owner.name = again.name) (fields : List Field) :
    (table.resolveFields owner fields).Alike
      ({ table with sites := sites }.resolveFields again fields) :=
  layOutWith_alike (fun _ _ same token => resolveWithin_alike table sites _ same token) owner again
    same fields

end TypeTable

theorem owner_placeless {α : Type} (declared : Declared α) :
    declared.owner.name = declared.placeless.owner.name :=
  rfl

theorem taggedLayouts_alike (category : String) (discriminators : List Discriminator)
    (table : TypeTable) (sites : List (String × String)) (seen : List String)
    (declared : List (Declared TaggedStruct)) :
    (taggedLayouts category discriminators table seen declared).Alike
      (taggedLayouts category discriminators { table with sites := sites } seen
        (declared.map Declared.placeless)) := by
  induction declared generalizing seen with
  | nil => exact .refl _
  | cons first rest inductionHypothesis =>
      have fields := table.resolveFields_alike sites (owner_placeless first) first.content.fields
      have selects := Discriminator.select_placeless discriminators first (selfNamedVariant first)
      rw [List.map_cons, taggedLayouts, taggedLayouts]
      apply Resolving.Alike.ite Iff.rfl
      · exact .thrown_bind rfl
      · exact .bind (.lift selects) fun _ => .bind fields fun _ =>
          .bind (inductionHypothesis (first.name :: seen)) fun _ => .refl _

theorem argumentLayouts_alike (table : TypeTable) (sites : List (String × String))
    (declared : List (Declared TaggedStruct)) :
    (argumentLayouts table declared).Alike
      (argumentLayouts { table with sites := sites } (declared.map Declared.placeless)) := by
  induction declared with
  | nil => exact .refl _
  | cons first rest inductionHypothesis =>
      have fields := table.resolveFields_alike sites (owner_placeless first) first.content.fields
      rw [List.map_cons, argumentLayouts, argumentLayouts]
      exact .bind fields fun _ => .bind inductionHypothesis fun _ => .refl _

theorem typeTable_placeless (declarations : Declarations) : declarations.placeless.typeTable =
    { declarations.typeTable with sites := declarations.placeless.typeTable.sites } := by
  simp only [Declarations.typeTable, Declarations.constantTexts, Declarations.placeless,
    List.map_map]
  rfl

theorem layOut_placeless (declarations : Declarations) (discriminators : List Discriminator) :
    (layOut declarations discriminators).Alike
      (layOut declarations.placeless discriminators) := by
  rw [layOut, layOut, typeTable_placeless]
  exact .bind (taggedLayouts_alike ..) fun _ => .bind (taggedLayouts_alike ..) fun _ =>
    .bind (argumentLayouts_alike ..) fun _ => .refl _

/-! ## Seeds and instructions -/

namespace Pda

theorem addMacro_placeless (table : SeedTable) (calls : List (Declared SeedCall)) (pdas : List Pda)
    (definition : Declared SeedMacro) : addMacro table calls pdas definition =
      addMacro table (calls.map Declared.placeless) pdas definition.placeless := by
  have same : (calls.map Declared.placeless).find?
        (fun call => call.name = definition.placeless.name) =
      (calls.find? fun call => call.name = definition.name).map Declared.placeless :=
    List.find?_map
  unfold addMacro
  rw [same]
  cases calls.find? fun call => call.name = definition.name with
  | none => rfl
  | some call => rfl

theorem extract_placeless (table : SeedTable) (macros : List (Declared SeedMacro))
    (macroCalls : List (Declared SeedCall)) (calls : List (Declared PdaCall)) :
    extract table macros macroCalls calls = extract table (macros.map Declared.placeless)
      (macroCalls.map Declared.placeless) (calls.map Declared.placeless) := by
  have macroStep : addMacro table macroCalls = fun pdas definition =>
      addMacro table (macroCalls.map Declared.placeless) pdas definition.placeless := by
    funext pdas definition
    exact addMacro_placeless table macroCalls pdas definition
  rw [extract, extract, List.foldlM_map, macroStep]
  simp only [List.foldlM_map]
  rfl

end Pda

theorem slots_placeless (known : KnownAddresses) (seeds : SeedTable)
    (struct : Declared AccountsStruct) (processors : List (Declared Processor)) :
    AccountSlot.all known seeds struct processors =
      AccountSlot.all known seeds struct.placeless (processors.map Declared.placeless) := by
  unfold AccountSlot.all
  simp only [List.filter_map, List.flatMap_map]
  rfl

theorem accountSlots_placeless (known : KnownAddresses) (seeds : SeedTable)
    (declarations : Declarations) (instruction : String) (selection : Discriminator.Selection) :
    accountSlots known seeds declarations instruction selection =
      accountSlots known seeds declarations.placeless instruction selection := by
  have dispatch : dispatchOf? declarations.placeless.dispatches selection =
      dispatchOf? declarations.dispatches selection := by
    simp only [dispatchOf?, Declarations.placeless, List.map_map]
    rfl
  unfold accountSlots
  rw [dispatch]
  cases dispatchOf? declarations.dispatches selection with
  | none => rfl
  | some dispatch =>
      have found : declarations.placeless.accountsStructs.find?
          (fun struct => struct.name = dispatch.accounts) =
            (declarations.accountsStructs.find? fun struct =>
              struct.name = dispatch.accounts).map Declared.placeless :=
        List.find?_map
      dsimp only
      rw [found]
      cases declarations.accountsStructs.find? fun struct => struct.name = dispatch.accounts with
      | none => rfl
      | some struct =>
          exact congrArg pure (slots_placeless known seeds struct declarations.processors)

theorem instructionsFrom_placeless (known : KnownAddresses) (seeds : SeedTable)
    (declarations : Declarations) (discriminators : List Discriminator) (seen : List String)
    (declared : List (Declared TaggedStruct)) :
    (instructionsFrom known seeds declarations discriminators seen declared).Alike
      (instructionsFrom known seeds declarations.placeless discriminators seen
        (declared.map Declared.placeless)) := by
  induction declared generalizing seen with
  | nil => exact .refl _
  | cons first rest inductionHypothesis =>
      have selects := Discriminator.select_placeless discriminators first
        (Discriminator.namedVariant first)
      rw [List.map_cons, instructionsFrom, instructionsFrom]
      apply Reporting.Alike.bind (.lift selects)
      intro selection
      apply Reporting.Alike.ite Iff.rfl
      · exact .refl _
      · rw [← accountSlots_placeless]
        exact .bind (.refl _) fun _ => .bind (inductionHypothesis _) fun _ => .refl _

/-! ## Whole programs -/

/-- Declarations without sites lead to what the declarations lead to, apart from the locations in
failures and debugging notices. -/
theorem assembleDeclarations_placeless (known : KnownAddresses) (name : String)
    (declarations : Declarations) :
    (assembleDeclarations known name declarations).Alike
      (assembleDeclarations known name declarations.placeless) := by
  have texts : declarations.placeless.constantTexts = declarations.constantTexts := by
    simp only [Declarations.constantTexts, Declarations.placeless, List.map_map]
    rfl
  have codes : errorCodes declarations.placeless.errors = errorCodes declarations.errors := by
    simp only [errorCodes, Declarations.placeless, List.flatMap_map]
    rfl
  rw [assembleDeclarations, assembleDeclarations, texts, codes]
  apply Reporting.Alike.bind (programAddress_placeless declarations.programIds)
  intro address
  apply Reporting.Alike.bind (.lift (Discriminator.allFrom_placeless [] _))
  intro discriminators
  apply Reporting.Alike.bind (.lift ((layOut_placeless declarations discriminators).outcome {}))
  intro layouts
  dsimp only
  rw [Pda.extract_placeless]
  apply Reporting.Alike.bind (.refl _)
  intro pdas
  apply Reporting.Alike.bind (instructionsFrom_placeless known _ declarations discriminators [] _)
  intro instructions
  exact .refl _

/-- Declarations that differ in their sites only lead to the same program and the same warnings. -/
theorem assembleDeclarations_alike (known : KnownAddresses) (name : String)
    {declarations others : Declarations} (same : declarations.placeless = others.placeless) :
    (assembleDeclarations known name declarations).Alike
      (assembleDeclarations known name others) := by
  apply (assembleDeclarations_placeless known name declarations).trans
  rw [same]
  exact (assembleDeclarations_placeless known name others).symm

end ProgramIdl
