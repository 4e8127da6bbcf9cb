import Mathlib.Data.List.Forall2
import Mathlib.Data.List.Nodup
import ProgramIdl.Notice

/-!
# Passes over declarations

A program is assembled in passes that go through declarations one by one and stop at the first
fault.  What comes of a pass does not depend on the notices it leaves, and a pass that carries the
names it has seen asks that all names are different (`fresh_cons_iff`).
-/

set_option autoImplicit false

namespace ProgramIdl

section Outcomes

variable {α β ε : Type}

theorem bind_eq_ok_iff {first : Except ε α} {next : α → Except ε β} {value : β} :
    (first >>= next) = .ok value ↔ ∃ middle, first = .ok middle ∧ next middle = .ok value := by
  cases first with
  | ok middle => simp [bind, Except.bind]
  | error failure => simp [bind, Except.bind]

/-- A test that an outcome passes is passed by its value. -/
theorem exists_ok_of_any {outcome : Except ε α} {test : α → Bool}
    (passed : outcome.toOption.any test = true) :
    ∃ value, outcome = .ok value ∧ test value = true := by
  cases outcome with
  | ok value => exact ⟨value, rfl, passed⟩
  | error failure => cases passed

/-- A step behind a check. -/
theorem ensure_eq_ok_iff {condition : Prop} [Decidable condition] {failure : ε}
    {next : Unit → Except ε β} {value : β} :
    (if condition then (throw failure : Except ε Unit) >>= next else next ()) = .ok value ↔
      ¬ condition ∧ next () = .ok value := by
  split
  · rename_i holds
    simp [holds, bind, Except.bind, throw, throwThe, MonadExceptOf.throw]
  · rename_i fails
    simp [fails]

namespace Reporting

@[simp] theorem outcome_pure (value : α) : (pure value : Reporting α).outcome = .ok value := rfl

@[simp] theorem outcome_throw (failure : Failure) :
    (throw failure : Reporting α).outcome = .error failure := rfl

@[simp] theorem outcome_report (notice : Notice) : (report notice).outcome = .ok () := rfl

@[simp] theorem outcome_lift (outcome : Except Failure α) :
    (liftM outcome : Reporting α).outcome = outcome := rfl

/-- What comes of two steps is what comes of their outcomes. -/
@[simp] theorem outcome_bind (first : Reporting α) (next : α → Reporting β) :
    (first >>= next).outcome = first.outcome >>= fun value => (next value).outcome := by
  change (first.andThen next).outcome = _
  rw [andThen]
  cases first.outcome <;> rfl

theorem outcome_ensure_eq_ok_iff {condition : Prop} [Decidable condition] {failure : Failure}
    {next : Unit → Reporting β} {value : β} :
    (if condition then (throw failure : Reporting Unit) >>= next else next ()).outcome =
        .ok value ↔ ¬ condition ∧ (next ()).outcome = .ok value := by
  split
  · rename_i holds
    simp [holds, bind_eq_ok_iff]
  · rename_i fails
    simp [fails]

instance : LawfulMonad Reporting := by
  refine LawfulMonad.mk' Reporting ?_ ?_ ?_
  · intro α step
    rcases step with ⟨notices, outcome⟩
    cases outcome <;> simp [Functor.map, andThen]
  · intro α β value next
    simp [bind, pure, andThen]
  · intro α β γ step next last
    rcases step with ⟨notices, outcome⟩
    cases outcome with
    | error failure => rfl
    | ok value =>
        simp only [bind, andThen]
        cases (next value).outcome <;> simp

/-- A step that cannot fail. -/
def Succeeds (step : Reporting α) : Prop :=
  ∃ value, step.outcome = .ok value

theorem Succeeds.bind {first : Reporting α} {next : α → Reporting β} (succeeds : first.Succeeds)
    (later : ∀ value, (next value).Succeeds) : (first >>= next).Succeeds := by
  obtain ⟨value, outcome⟩ := succeeds
  obtain ⟨result, final⟩ := later value
  refine ⟨result, ?_⟩
  rw [outcome_bind, outcome]
  exact final

theorem succeeds_pure (value : α) : (pure value : Reporting α).Succeeds :=
  ⟨value, rfl⟩

theorem succeeds_mapM {step : α → Reporting β} (succeeds : ∀ value, (step value).Succeeds)
    (values : List α) : (values.mapM step).Succeeds := by
  induction values with
  | nil => exact succeeds_pure []
  | cons value rest inductionHypothesis =>
      rw [List.mapM_cons]
      exact (succeeds value).bind fun _ => inductionHypothesis.bind fun _ => succeeds_pure _

theorem succeeds_foldlM {step : β → α → Reporting β}
    (succeeds : ∀ state value, (step state value).Succeeds) (state : β) (values : List α) :
    (values.foldlM step state).Succeeds := by
  induction values generalizing state with
  | nil => exact succeeds_pure state
  | cons value rest inductionHypothesis =>
      rw [List.foldlM_cons]
      exact (succeeds state value).bind inductionHypothesis

end Reporting

end Outcomes

/-! ## Names seen before -/

/-- Names that differ from each other and from those seen before. -/
def Fresh {α : Type} (seen names : List α) : Prop :=
  names.Nodup ∧ ∀ name ∈ names, name ∉ seen

theorem fresh_nil {α : Type} (seen : List α) : Fresh seen [] :=
  ⟨List.nodup_nil, by simp⟩

theorem fresh_cons_iff {α : Type} {seen names : List α} {name : α} :
    Fresh seen (name :: names) ↔ name ∉ seen ∧ Fresh (name :: seen) names := by
  simp only [Fresh, List.nodup_cons, List.mem_cons, forall_eq_or_imp, not_or]
  constructor
  · rintro ⟨⟨absent, distinct⟩, new, others⟩
    refine ⟨new, distinct, fun other member => ⟨?_, others other member⟩⟩
    rintro rfl
    exact absent member
  · rintro ⟨new, distinct, others⟩
    exact ⟨⟨fun member => (others name member).1 rfl, distinct⟩, new,
      fun other member => (others other member).2⟩

theorem fresh_top_iff {α : Type} {names : List α} : Fresh [] names ↔ names.Nodup := by
  simp [Fresh]

/-! ## One result for each -/

section Results

variable {α β : Type} {relation : α → β → Prop} {values : List α} {results : List β}

/-- Results can be found for some values together if each has one. -/
theorem exists_forall₂_iff :
    (∃ results, List.Forall₂ relation values results) ↔
      ∀ value ∈ values, ∃ result, relation value result := by
  induction values with
  | nil => simp
  | cons value rest inductionHypothesis =>
      rw [List.forall_mem_cons, ← inductionHypothesis]
      constructor
      · rintro ⟨results, related⟩
        cases related with
        | cons head tail => exact ⟨⟨_, head⟩, _, tail⟩
      · rintro ⟨⟨result, head⟩, others, tail⟩
        exact ⟨result :: others, .cons head tail⟩

theorem exists_right_of_forall₂ (related : List.Forall₂ relation values results) {value : α}
    (listed : value ∈ values) : ∃ result ∈ results, relation value result := by
  induction related with
  | nil => cases listed
  | cons head tail inductionHypothesis =>
      rcases List.mem_cons.mp listed with rfl | listed
      · exact ⟨_, List.mem_cons_self, head⟩
      · obtain ⟨result, found, holds⟩ := inductionHypothesis listed
        exact ⟨result, List.mem_cons_of_mem _ found, holds⟩

/-- A step over a list that stops at the first fault. -/
theorem mapM_eq_ok_iff {ε : Type} {step : α → Except ε β} :
    values.mapM step = .ok results ↔
      List.Forall₂ (fun value result => step value = .ok result) values results := by
  induction values generalizing results with
  | nil => simp [pure, Except.pure, eq_comm]
  | cons value rest inductionHypothesis =>
      rw [List.mapM_cons, List.forall₂_cons_left_iff]
      simp only [bind_eq_ok_iff, inductionHypothesis]
      constructor
      · rintro ⟨result, here, others, later, same⟩
        exact ⟨result, others, here, later, (Except.ok.inj same).symm⟩
      · rintro ⟨result, others, here, later, rfl⟩
        exact ⟨result, here, others, later, rfl⟩

theorem map_eq_of_forall₂ {γ : Type} {left : α → γ} {right : β → γ}
    (related : List.Forall₂ relation values results)
    (same : ∀ value result, relation value result → left value = right result) :
    values.map left = results.map right := by
  induction related with
  | nil => rfl
  | cons head tail inductionHypothesis =>
      rw [List.map_cons, List.map_cons, same _ _ head, inductionHypothesis]

theorem exists_left_of_forall₂ (related : List.Forall₂ relation values results) {result : β}
    (listed : result ∈ results) : ∃ value ∈ values, relation value result := by
  obtain ⟨value, found, holds⟩ := exists_right_of_forall₂ related.flip listed
  exact ⟨value, found, holds⟩

end Results

/-! ## Tables -/

theorem mem_of_lookup {α β : Type} [BEq α] [LawfulBEq α] {table : List (α × β)} {key : α}
    {value : β} (found : table.lookup key = some value) : (key, value) ∈ table := by
  obtain ⟨before, behind, split, _⟩ := List.lookup_eq_some_iff.mp found
  rw [split]
  simp

end ProgramIdl
