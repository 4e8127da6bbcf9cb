import ProgramIdl.Pda
import ProgramIdl.Proofs.Pass

/-!
# Where derived addresses come from

Every derived address of a program is that of a seed macro or of a call with an array of seeds, and
its seeds are the classified elements of that macro or call.  Every macro and every call whose first
seed is a constant finds its name among the addresses (`extract_extracts`).
-/

set_option autoImplicit false

namespace ProgramIdl

/-- A step over a list is a list of steps. -/
theorem Reporting.outcome_mapM_eq_ok_iff {α β : Type} {step : α → Reporting β} {values : List α}
    {results : List β} :
    (values.mapM step).outcome = .ok results ↔
      List.Forall₂ (fun value result => (step value).outcome = .ok result) values results := by
  induction values generalizing results with
  | nil => simp [eq_comm]
  | cons value rest inductionHypothesis =>
      rw [List.mapM_cons, List.forall₂_cons_left_iff]
      simp only [outcome_bind, bind_eq_ok_iff, inductionHypothesis]
      constructor
      · rintro ⟨result, here, others, later, same⟩
        exact ⟨result, others, here, later, (Except.ok.inj same).symm⟩
      · rintro ⟨result, others, here, later, rfl⟩
        exact ⟨result, here, others, later, rfl⟩

namespace Pda

variable {table : SeedTable} {macroCalls : List (Declared SeedCall)}

/-- What the first call of a macro binds its parameters to. -/
def boundBy (macroCalls : List (Declared SeedCall)) (definition : Declared SeedMacro) :
    String → Option String :=
  bindingsOf definition.content.params
    (match macroCalls.find? fun call => call.name = definition.name with
      | some call => call.content.arguments
      | none => [])

structure OfMacro (table : SeedTable) (macroCalls : List (Declared SeedCall))
    (definition : Declared SeedMacro) (pda : Pda) : Prop where
  name : pda.name = nameOfMacro definition.name
  docs : pda.docs = definition.docs
  seeds : List.Forall₂ (fun expression seed =>
    (table.classify (boundBy macroCalls definition) expression).outcome = .ok seed)
    definition.content.seeds pda.seeds

/-- The constant that the first of some seeds is. -/
def leadingConstant? (table : SeedTable) (seeds : List String) : Option String :=
  (seeds.head?.bind table.byteConstant?).map (·.1)

structure OfCall (table : SeedTable) (call : Declared PdaCall) (pda : Pda) : Prop where
  name : (leadingConstant? table call.content.seeds).map nameOfConstant = some pda.name
  docs : pda.docs = []
  seeds : List.Forall₂ (fun expression seed =>
    (table.classifyUnbound expression).outcome = .ok seed) call.content.seeds pda.seeds

theorem taken_iff {pdas : List Pda} {name : String} :
    taken pdas name = true ↔ ∃ pda ∈ pdas, pda.name = name := by
  simp [taken]

theorem taken_append {pdas : List Pda} {name : String} (present : taken pdas name = true)
    (added : List Pda) : taken (pdas ++ added) name = true := by
  obtain ⟨pda, listed, named⟩ := taken_iff.mp present
  exact taken_iff.mpr ⟨pda, List.mem_append_left added listed, named⟩

/-! ## One step -/

/-- What a step adds for a value: addresses that come from it, and its name if it has one. -/
structure Adds {α : Type} (nameOf : α → Option String) (Source : α → Pda → Prop)
    (values : List α) (pdas next : List Pda) : Prop where
  sources : ∃ added, next = pdas ++ added ∧ ∀ pda ∈ added, ∃ value ∈ values, Source value pda
  named : ∀ value ∈ values, ∀ name, nameOf value = some name → taken next name = true

theorem addMacro_adds {pdas next : List Pda} {definition : Declared SeedMacro}
    (added : (addMacro table macroCalls pdas definition).outcome = .ok next) :
    Adds (fun definition => some (nameOfMacro definition.name)) (OfMacro table macroCalls)
      [definition] pdas next := by
  rw [addMacro] at added
  dsimp only at added
  by_cases present : taken pdas (nameOfMacro definition.name) = true
  · rw [if_pos present] at added
    obtain rfl := Except.ok.inj added
    exact ⟨⟨[], by simp, by simp⟩, by simpa using present⟩
  · rw [if_neg present, Reporting.outcome_bind, bind_eq_ok_iff] at added
    obtain ⟨seeds, classified, same⟩ := added
    obtain rfl := Except.ok.inj same
    have found : OfMacro table macroCalls definition
        ⟨nameOfMacro definition.name, seeds, definition.docs⟩ :=
      ⟨rfl, rfl, Reporting.outcome_mapM_eq_ok_iff.mp classified⟩
    refine ⟨⟨_, rfl, by simpa using found⟩, ?_⟩
    simp [taken]

theorem addCall_adds {pdas next : List Pda} {call : Declared PdaCall}
    (added : (addCall table pdas call).outcome = .ok next) :
    Adds (fun call => (leadingConstant? table call.content.seeds).map nameOfConstant)
      (OfCall table) [call] pdas next := by
  rw [addCall] at added
  cases leading : call.content.seeds.head?.bind table.byteConstant? with
  | none =>
      have unnamed : leadingConstant? table call.content.seeds = none := by
        rw [leadingConstant?, leading]
        rfl
      rw [leading] at added
      obtain rfl := Except.ok.inj added
      exact ⟨⟨[], by simp, by simp⟩, by simp [unnamed]⟩
  | some entry =>
      obtain ⟨constant, bytes⟩ := entry
      have named : leadingConstant? table call.content.seeds = some constant := by
        rw [leadingConstant?, leading]
        rfl
      rw [leading] at added
      dsimp only at added
      by_cases present : taken pdas (nameOfConstant constant) = true
      · rw [if_pos present] at added
        obtain rfl := Except.ok.inj added
        exact ⟨⟨[], by simp, by simp⟩, by simpa [named] using present⟩
      · rw [if_neg present, Reporting.outcome_bind, bind_eq_ok_iff] at added
        obtain ⟨seeds, classified, same⟩ := added
        obtain rfl := Except.ok.inj same
        have found : OfCall table call ⟨nameOfConstant constant, seeds, []⟩ :=
          ⟨by rw [named]; rfl, rfl, Reporting.outcome_mapM_eq_ok_iff.mp classified⟩
        refine ⟨⟨_, rfl, by simpa using found⟩, ?_⟩
        simp [named, taken]

/-! ## Whole runs -/

theorem foldlM_adds {α : Type} {nameOf : α → Option String} {Source : α → Pda → Prop}
    {add : List Pda → α → Reporting (List Pda)}
    (step : ∀ pdas value next, (add pdas value).outcome = .ok next →
      Adds nameOf Source [value] pdas next)
    {values : List α} {pdas final : List Pda}
    (folded : (values.foldlM add pdas).outcome = .ok final) :
    Adds nameOf Source values pdas final := by
  induction values generalizing pdas with
  | nil =>
      obtain rfl := Except.ok.inj folded
      exact ⟨⟨[], by simp, by simp⟩, by simp⟩
  | cons value rest inductionHypothesis =>
      rw [List.foldlM_cons, Reporting.outcome_bind, bind_eq_ok_iff] at folded
      obtain ⟨next, here, later⟩ := folded
      obtain ⟨⟨first, nextEq, firstFrom⟩, firstNamed⟩ := step pdas value next here
      obtain ⟨⟨others, finalEq, othersFrom⟩, othersNamed⟩ := inductionHypothesis later
      constructor
      · refine ⟨first ++ others, by rw [finalEq, nextEq, List.append_assoc], ?_⟩
        intro pda listed
        rcases List.mem_append.mp listed with early | late
        · obtain ⟨source, member, comes⟩ := firstFrom pda early
          obtain rfl := List.mem_singleton.mp member
          exact ⟨source, List.mem_cons_self, comes⟩
        · obtain ⟨source, member, comes⟩ := othersFrom pda late
          exact ⟨source, List.mem_cons_of_mem value member, comes⟩
      · intro source member name named
        rcases List.mem_cons.mp member with rfl | member
        · rw [finalEq]
          exact taken_append (firstNamed source List.mem_cons_self name named) others
        · exact othersNamed source member name named

/-- Addresses that come from some macros and calls, among them one for each name that these give. -/
structure Extracts (table : SeedTable) (macros : List (Declared SeedMacro))
    (macroCalls : List (Declared SeedCall)) (calls : List (Declared PdaCall))
    (pdas : List Pda) : Prop where
  sources : ∀ pda ∈ pdas, (∃ definition ∈ macros, OfMacro table macroCalls definition pda) ∨
    ∃ call ∈ calls, OfCall table call pda
  ofMacro : ∀ definition ∈ macros, ∃ pda ∈ pdas, pda.name = nameOfMacro definition.name
  ofCall : ∀ call ∈ calls, ∀ constant, leadingConstant? table call.content.seeds = some constant →
    ∃ pda ∈ pdas, pda.name = nameOfConstant constant

theorem extract_extracts {macros : List (Declared SeedMacro)} {calls : List (Declared PdaCall)}
    {pdas : List Pda} (extracted : (extract table macros macroCalls calls).outcome = .ok pdas) :
    Extracts table macros macroCalls calls pdas := by
  rw [extract, Reporting.outcome_bind, bind_eq_ok_iff] at extracted
  obtain ⟨first, byMacros, byCalls⟩ := extracted
  obtain ⟨⟨_, rfl, macroSources⟩, macroNames⟩ :=
    foldlM_adds (fun _ _ _ => addMacro_adds) byMacros
  obtain ⟨⟨others, rfl, callSources⟩, callNames⟩ := foldlM_adds (fun _ _ _ => addCall_adds) byCalls
  refine ⟨?_, ?_, ?_⟩
  · intro pda listed
    rcases List.mem_append.mp listed with early | late
    · exact .inl (macroSources pda early)
    · exact .inr (callSources pda late)
  · intro definition listed
    exact taken_iff.mp (taken_append (macroNames definition listed _ rfl) others)
  · intro call listed constant leads
    exact taken_iff.mp (callNames call listed _ (by rw [leads]; rfl))

end Pda

end ProgramIdl
