import ProgramIdl.Program.Assemble
import ProgramIdl.Proofs.Layout.Resolve

/-!
# Laying out a program

Accounts, events and the arguments of instructions are laid out one after the other by one resolver.
What comes of it is described struct by struct, without what the resolver remembers: each has the
fields that the typing rules give it, and each account and event selects a variant
(`layOut_finds`).
-/

set_option autoImplicit false

namespace ProgramIdl

open Resolving

variable {discriminators : List Discriminator} {types : TypeTable}

/-- An account or an event that a struct stands for. -/
def StandsFor (discriminators : List Discriminator) (types : TypeTable)
    (declared : Declared TaggedStruct) (layout : TaggedLayout) : Prop :=
  ∃ selection fields,
    Discriminator.select discriminators declared (selfNamedVariant declared) = .ok selection ∧
      types.FieldsHaveType declared.content.fields fields ∧
        layout = .ofSelection declared.name declared.docs selection fields

/-- The arguments that a struct lists, with its name. -/
def ListsArguments (types : TypeTable) (declared : Declared TaggedStruct)
    (entry : String × List (Member Layout)) : Prop :=
  entry.1 = declared.name ∧ types.FieldsHaveType declared.content.fields entry.2

theorem taggedLayouts_finds (category : String) (seen : List String)
    (declared : List (Declared TaggedStruct)) :
    Finds types (taggedLayouts category discriminators types seen declared) fun layouts =>
      Fresh seen (declared.map (·.name)) ∧
        List.Forall₂ (StandsFor discriminators types) declared layouts := by
  induction declared generalizing seen with
  | nil =>
      refine (Finds.pure []).congr fun layouts => ?_
      simp [fresh_nil, eq_comm]
  | cons struct rest inductionHypothesis =>
      rw [taggedLayouts]
      refine Finds.congr (Finds.ensure ((Finds.lift _).bind fun selection _ =>
        (types.resolveFields_finds struct.owner struct.content.fields).bind fun fields _ =>
          (inductionHypothesis (struct.name :: seen)).bind fun others _ =>
            Finds.pure _)) fun layouts => ?_
      rw [List.map_cons, fresh_cons_iff, List.forall₂_cons_left_iff]
      constructor
      · rintro ⟨absent, selection, selected, fields, typed, others, ⟨fresh, stand⟩, rfl⟩
        exact ⟨⟨absent, fresh⟩, _, others, ⟨selection, fields, selected, typed, rfl⟩, stand, rfl⟩
      · rintro ⟨⟨absent, fresh⟩, _, others, ⟨selection, fields, selected, typed, rfl⟩, stand, rfl⟩
        exact ⟨absent, selection, selected, fields, typed, others, ⟨fresh, stand⟩, rfl⟩

theorem argumentLayouts_finds (declared : List (Declared TaggedStruct)) :
    Finds types (argumentLayouts types declared) fun arguments =>
      List.Forall₂ (ListsArguments types) declared arguments := by
  induction declared with
  | nil =>
      refine (Finds.pure []).congr fun arguments => ?_
      simp [eq_comm]
  | cons struct rest inductionHypothesis =>
      rw [argumentLayouts]
      refine ((types.resolveFields_finds struct.owner struct.content.fields).bind fun fields _ =>
        inductionHypothesis.bind fun others _ => Finds.pure _).congr fun arguments => ?_
      rw [List.forall₂_cons_left_iff]
      constructor
      · rintro ⟨fields, typed, others, list, rfl⟩
        exact ⟨_, others, ⟨rfl, typed⟩, list, rfl⟩
      · rintro ⟨⟨_, fields⟩, others, ⟨rfl, typed⟩, list, rfl⟩
        exact ⟨fields, typed, others, list, rfl⟩

/-- What the declarations of a program lay out. -/
structure Layouts.Follow (declarations : Declarations) (discriminators : List Discriminator)
    (layouts : Layouts) : Prop where
  accounts_nodup : (declarations.accounts.map (·.name)).Nodup
  accounts : List.Forall₂ (StandsFor discriminators declarations.typeTable)
    declarations.accounts layouts.accounts
  events_nodup : (declarations.events.map (·.name)).Nodup
  events : List.Forall₂ (StandsFor discriminators declarations.typeTable)
    declarations.events layouts.events
  arguments : List.Forall₂ (ListsArguments declarations.typeTable)
    declarations.instructions layouts.arguments.reverse

/-- A program is laid out exactly as its declarations say. -/
theorem layOut_finds (declarations : Declarations) (discriminators : List Discriminator) :
    Finds declarations.typeTable (layOut declarations discriminators)
      (Layouts.Follow declarations discriminators) := by
  rw [layOut]
  refine ((taggedLayouts_finds "account" [] declarations.accounts).bind fun accounts _ =>
    (taggedLayouts_finds "event" [] declarations.events).bind fun events _ =>
      (argumentLayouts_finds declarations.instructions).bind fun arguments _ =>
        Finds.pure _).congr fun layouts => ?_
  simp only [fresh_top_iff]
  constructor
  · rintro ⟨accounts, ⟨accountsDiffer, accountsStand⟩, events, ⟨eventsDiffer, eventsStand⟩,
      arguments, list, rfl⟩
    exact ⟨accountsDiffer, accountsStand, eventsDiffer, eventsStand, by
      rwa [List.reverse_reverse]⟩
  · intro follow
    exact ⟨layouts.accounts, ⟨follow.accounts_nodup, follow.accounts⟩, layouts.events,
      ⟨follow.events_nodup, follow.events⟩, layouts.arguments.reverse, follow.arguments, by
        rw [List.reverse_reverse]⟩

theorem layOut_eq_ok_iff {declarations : Declarations} {layouts : Layouts} :
    (layOut declarations discriminators).outcome = .ok layouts ↔
      Layouts.Follow declarations discriminators layouts :=
  (layOut_finds declarations discriminators).outcome

end ProgramIdl
