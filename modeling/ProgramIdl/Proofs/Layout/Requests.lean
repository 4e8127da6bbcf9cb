import ProgramIdl.Proofs.Layout.Resolve

/-!
# Requests to one resolver

A resolver is asked for many layouts, one after another, and keeps what it remembers between them,
also behind requests that fail half-way.  No request notices: each is answered as if it were the
first one (`TypeTable.respondAll_eq_fresh`).  Below a request the same holds of every token that is
needed for the pending structs, because a struct with a layout needs only smaller ones.
-/

set_option autoImplicit false

namespace ProgramIdl

namespace TypeTable

open Resolving

variable {table : TypeTable} {pending : List String} {depth : Nat}

/-! ## Tokens that pending structs need -/

/-- The pending structs have layouts only if the token has one, which is smaller than theirs. -/
def Needed (table : TypeTable) (pending : List String) (token : String) : Prop :=
  ∀ name ∈ pending, ∀ outer, table.LaysOut name outer →
    ∃ layout, table.HasType token layout ∧ sizeOf layout < sizeOf outer

theorem needed_top (token : String) : table.Needed [] token := by
  intro name listed
  cases listed

theorem Needed.fitsInside {token : String} {layout : Layout} (needed : table.Needed pending token)
    (typed : table.HasType token layout) : table.FitsInside pending layout := by
  intro name listed outer laysOut
  obtain ⟨found, again, smaller⟩ := needed name listed outer laysOut
  rw [typed.unique again] at smaller
  exact smaller

theorem FieldsHaveType.exists_member {fields : List Field} {members : List (Member Layout)}
    (typed : table.FieldsHaveType fields members) {field : Field} (listed : field ∈ fields) :
    ∃ member ∈ members, table.HasType field.type member.type := by
  induction fields generalizing members with
  | nil => cases listed
  | cons first fields inductionHypothesis =>
      cases typed with
      | cons head tail =>
          rcases List.mem_cons.mp listed with rfl | listed
          · exact ⟨_, List.mem_cons_self, head⟩
          · obtain ⟨member, inside, has⟩ := inductionHypothesis tail listed
            exact ⟨member, List.mem_cons_of_mem _ inside, has⟩

/-- A struct has a layout only if the types of its fields have smaller ones. -/
theorem LaysOut.exists_smaller {name : String} {fields : List Field} {outer : Layout}
    (laysOut : table.LaysOut name outer) (declared : table.records.lookup name = some fields)
    {field : Field} (listed : field ∈ fields) :
    ∃ layout, table.HasType field.type layout ∧ sizeOf layout < sizeOf outer := by
  cases laysOut with
  | intro _ sameDeclared typed =>
      obtain rfl := Option.some.inj (declared.symm.trans sameDeclared)
      obtain ⟨member, inside, has⟩ := typed.exists_member listed
      exact ⟨member.type, has, sizeOf_type_lt inside⟩

/-- What a struct needs is needed for itself and for all that need the struct. -/
theorem Needed.enter {token name : String} {fields : List Field}
    (needed : table.Needed pending token) (reads : table.read token = .record name fields)
    {field : Field} (listed : field ∈ fields) : table.Needed (name :: pending) field.type := by
  have declared := (declared_of_read_record reads).2
  intro other among outer laysOut
  rcases List.mem_cons.mp among with rfl | among
  · exact laysOut.exists_smaller declared listed
  · obtain ⟨middle, typed, smaller⟩ := needed other among outer laysOut
    have laid := (hasType_of_read_record reads).mp typed
    obtain ⟨layout, has, smallest⟩ := laid.exists_smaller declared listed
    exact ⟨layout, has, Nat.lt_trans smallest smaller⟩

/-! ## What is remembered does not show -/

theorem Needed.resolveWithin_of_hasType {token : String} {layout : Layout}
    (needed : table.Needed pending token) (room : table.Room pending depth)
    (typed : table.HasType token layout) (owner : Owner) {memory : LayoutMemory}
    (sound : memory.Sound table) (same : memory.pending = pending) :
    ((table.resolveWithin depth owner token).run memory).1 = .ok layout := by
  have answers := (resolveWithin_meets room owner token memory sound same).2.2
  cases outcome : ((table.resolveWithin depth owner token).run memory).1 with
  | ok found =>
      rw [outcome] at answers
      rw [HasType.unique answers typed]
  | error failure =>
      rw [outcome] at answers
      exact absurd (needed.fitsInside typed) (answers.2 layout typed)

theorem layOutWith_agrees {resolve : Owner → String → Resolving Layout} {fields : List Field}
    (keeps : ∀ owner token, Meets table pending (resolve owner token) fun _ => True)
    (agrees : ∀ owner, ∀ field ∈ fields, ∀ memory other : LayoutMemory, memory.Sound table →
      other.Sound table → memory.pending = pending → other.pending = pending →
        ((resolve owner field.type).run memory).1 = ((resolve owner field.type).run other).1)
    (owner : Owner) (memory other : LayoutMemory) (sound : memory.Sound table)
    (otherSound : other.Sound table) (same : memory.pending = pending)
    (otherSame : other.pending = pending) :
    ((layOutWith resolve owner fields).run memory).1 =
      ((layOutWith resolve owner fields).run other).1 := by
  induction fields generalizing memory other with
  | nil => rfl
  | cons field fields inductionHypothesis =>
      have first := agrees owner field List.mem_cons_self memory other sound otherSound same otherSame
      obtain ⟨after, samePending, _⟩ := keeps owner field.type memory sound same
      obtain ⟨otherAfter, otherPending, _⟩ := keeps owner field.type other otherSound otherSame
      rw [layOutWith, run_bind, run_bind]
      rcases ran : (resolve owner field.type).run memory with ⟨outcome, behind⟩
      rcases otherRan : (resolve owner field.type).run other with ⟨otherOutcome, otherBehind⟩
      rw [ran] at after samePending first
      rw [otherRan] at otherAfter otherPending first
      dsimp only at first
      subst first
      cases outcome with
      | error failure => rfl
      | ok layout =>
          have rest := inductionHypothesis
            (fun owner field listed => agrees owner field (List.mem_cons_of_mem _ listed))
            behind otherBehind after otherAfter samePending otherPending
          dsimp only
          rw [run_bind, run_bind]
          rcases later : (layOutWith resolve owner fields).run behind with ⟨members, final⟩
          rcases otherLater : (layOutWith resolve owner fields).run otherBehind with
            ⟨otherMembers, otherFinal⟩
          rw [later, otherLater] at rest
          dsimp only at rest
          subst rest
          cases members <;> rfl

theorem lookup_eq_none_of_untyped {token name : String} {fields : List Field}
    (reads : table.read token = .record name fields)
    (untyped : ∀ layout, ¬ table.HasType token layout) {memory : LayoutMemory}
    (sound : memory.Sound table) : memory.finished.lookup name = none := by
  cases found : memory.finished.lookup name with
  | none => rfl
  | some layout =>
      exact absurd ((hasType_of_read_record reads).mpr (sound name layout found)) (untyped layout)

/-- Two sound memories with the same structs pending lead to one outcome, be it a layout or a
failure. -/
theorem resolveWithin_agrees (room : table.Room pending depth) (owner : Owner) {token : String}
    (needed : table.Needed pending token) {memory other : LayoutMemory}
    (sound : memory.Sound table) (otherSound : other.Sound table)
    (same : memory.pending = pending) (otherSame : other.pending = pending) :
    ((table.resolveWithin depth owner token).run memory).1 =
      ((table.resolveWithin depth owner token).run other).1 := by
  induction depth using Nat.strongRecOn generalizing pending owner token memory other with
  | _ depth inductionHypothesis =>
  by_cases typed : ∃ layout, table.HasType token layout
  · obtain ⟨layout, has⟩ := typed
    rw [needed.resolveWithin_of_hasType room has owner sound same,
      needed.resolveWithin_of_hasType room has owner otherSound otherSame]
  · have untyped : ∀ layout, ¬ table.HasType token layout := fun layout has => typed ⟨layout, has⟩
    cases reads : table.read token with
    | known layout => exact absurd ((hasType_of_read_known reads).mpr rfl) (untyped layout)
    | unknown =>
        rw [resolveWithin, reads]
        rfl
    | record name fields =>
        obtain ⟨_, declared⟩ := declared_of_read_record reads
        -- Without a layout the struct is finished in neither memory.
        rw [run_resolveWithin_record reads, run_resolveWithin_record reads,
          lookup_eq_none_of_untyped reads untyped sound,
          lookup_eq_none_of_untyped reads untyped otherSound, same, otherSame]
        dsimp only
        by_cases listed : name ∈ pending
        · rw [if_pos listed, if_pos listed]
        · rw [if_neg listed, if_neg listed]
          cases depth with
          | zero => exact absurd rfl (room.depth_ne_zero declared listed)
          | succ depth =>
              have inner := room.enter declared listed
              have keeps : ∀ owner token, Meets table (name :: pending)
                  (table.resolveWithin depth owner token) fun _ => True := fun owner token =>
                (resolveWithin_meets inner owner token).mono fun _ _ => trivial
              have agrees := layOutWith_agrees keeps
                (fun owner field inside memory other sound otherSound same otherSame =>
                  inductionHypothesis depth (Nat.lt_succ_self depth) inner owner
                    (needed.enter reads inside) sound otherSound same otherSame)
                ⟨name, table.sites.lookup name⟩ (memory.enter name) (other.enter name) sound
                otherSound
                (by rw [LayoutMemory.enter, same]) (by rw [LayoutMemory.enter, otherSame])
              simp only [run_within]
              rw [agrees]
              cases ((layOutWith (table.resolveWithin depth)
                ⟨name, table.sites.lookup name⟩ fields).run (other.enter name)).1 <;> rfl

/-! ## Requests -/

/-- What a resolver is asked for: the layout of one token, or of the fields of a declaration. -/
inductive Request where
  | token (owner : Owner) (token : String)
  | fields (owner : Owner) (fields : List Field)

/-- What a resolver finds. -/
inductive Reply where
  | layout (layout : Layout)
  | members (members : List (Member Layout))

/-- The answer to one request. -/
def respond (table : TypeTable) : Request → Resolving Reply
  | .token owner token => do return .layout (← table.resolve owner token)
  | .fields owner fields => do return .members (← table.resolveFields owner fields)

/-- The outcomes of requests made one after another, each with what is remembered behind it. -/
def respondAll (table : TypeTable) (memory : LayoutMemory) :
    List Request → List (Except Failure Reply × LayoutMemory)
  | [] => []
  | request :: rest =>
      let ran := (table.respond request).run memory
      ran :: table.respondAll ran.2 rest

/-- An outcome that is a value or an unsupported type. -/
def Supported {α : Type} (outcome : Except Failure α) : Prop :=
  (∃ value, outcome = .ok value) ∨ ∃ context token location,
    outcome = .error (.unsupportedType context token location)

theorem supported_of_answers {token : String} {outcome : Except Failure Layout}
    (answers : table.Answers pending token outcome) : Supported outcome := by
  cases outcome with
  | ok layout => exact Or.inl ⟨layout, rfl⟩
  | error failure =>
      obtain ⟨⟨context, culprit, location, rfl⟩, _⟩ := answers
      exact Or.inr ⟨context, culprit, location, rfl⟩

theorem supported_of_answersFields {fields : List Field}
    {outcome : Except Failure (List (Member Layout))}
    (answers : table.AnswersFields pending fields outcome) : Supported outcome := by
  cases outcome with
  | ok members => exact Or.inl ⟨members, rfl⟩
  | error failure =>
      obtain ⟨⟨context, culprit, location, rfl⟩, _⟩ := answers
      exact Or.inr ⟨context, culprit, location, rfl⟩

theorem Supported.failure {α β : Type} {failure : Failure}
    (supported : Supported (.error failure : Except Failure α)) :
    Supported (.error failure : Except Failure β) := by
  obtain ⟨value, impossible⟩ | ⟨context, token, location, same⟩ := supported
  · cases impossible
  · exact Or.inr ⟨context, token, location, by rw [Except.error.inj same]⟩

/-- Between requests nothing is pending. -/
theorem respond_meets (table : TypeTable) (request : Request) :
    Meets table [] (table.respond request) Supported := by
  cases request with
  | token owner token =>
      refine (table.resolve_meets owner token).bind ?_ ?_
      · intro layout _
        exact .pure (Or.inl ⟨_, rfl⟩)
      · intro failure answers
        exact (supported_of_answers answers).failure
  | fields owner fields =>
      refine (layOutWith_meets table.resolve_meets owner fields).bind ?_ ?_
      · intro members _
        exact .pure (Or.inl ⟨_, rfl⟩)
      · intro failure answers
        exact (supported_of_answersFields answers).failure

theorem run_bind_pure_fst {α β : Type} (step : Resolving α) (wrap : α → β) (memory : LayoutMemory) :
    ((do return wrap (← step) : Resolving β).run memory).1 = (step.run memory).1.map wrap := by
  rw [run_bind]
  rcases step.run memory with ⟨outcome, after⟩
  cases outcome <;> rfl

/-- Every sound memory without pending structs answers a request as an empty one does. -/
theorem respond_agrees (table : TypeTable) (request : Request) {memory : LayoutMemory}
    (sound : memory.Sound table) (idle : memory.pending = []) :
    ((table.respond request).run memory).1 = ((table.respond request).run {}).1 := by
  have fresh := LayoutMemory.sound_empty table
  have resolves : ∀ owner token, ∀ memory other : LayoutMemory, memory.Sound table →
      other.Sound table → memory.pending = [] → other.pending = [] →
        ((table.resolve owner token).run memory).1 = ((table.resolve owner token).run other).1 := by
    intro owner token memory other sound otherSound same otherSame
    exact resolveWithin_agrees table.room_top owner (needed_top token) sound otherSound same otherSame
  cases request with
  | token owner token =>
      rw [respond, run_bind_pure_fst, run_bind_pure_fst,
        resolves owner token memory {} sound fresh idle rfl]
  | fields owner fields =>
      rw [respond, run_bind_pure_fst, run_bind_pure_fst, resolveFields,
        layOutWith_agrees (fun owner token => (table.resolve_meets owner token).mono
          fun _ _ => trivial) (fun owner field _ => resolves owner field.type) owner memory {}
          sound fresh idle rfl]

theorem respondAll_agrees (table : TypeTable) (requests : List Request) {memory : LayoutMemory}
    (sound : memory.Sound table) (idle : memory.pending = []) :
    ((table.respondAll memory requests).map Prod.fst =
      requests.map fun request => ((table.respond request).run {}).1) ∧
    ∀ ran ∈ table.respondAll memory requests, Supported ran.1 ∧ ran.2.pending = [] := by
  induction requests generalizing memory with
  | nil => simp [respondAll]
  | cons request rest inductionHypothesis =>
      obtain ⟨after, stillIdle, supported⟩ := respond_meets table request memory sound idle
      obtain ⟨outcomes, later⟩ := inductionHypothesis after stillIdle
      rw [respondAll]
      refine ⟨?_, ?_⟩
      · rw [List.map_cons, List.map_cons, outcomes, respond_agrees table request sound idle]
      · intro ran listed
        rcases List.mem_cons.mp listed with rfl | listed
        · exact ⟨supported, stillIdle⟩
        · exact later ran listed

/-- A resolver that is asked for many layouts answers each request, with a layout or with an
unsupported type, as a resolver that was never asked before; behind each request nothing is
pending. -/
theorem respondAll_eq_fresh (table : TypeTable) (requests : List Request) :
    ((table.respondAll {} requests).map Prod.fst =
      requests.map fun request => ((table.respond request).run {}).1) ∧
    ∀ ran ∈ table.respondAll {} requests, Supported ran.1 ∧ ran.2.pending = [] :=
  respondAll_agrees table requests (LayoutMemory.sound_empty table) rfl

end TypeTable

end ProgramIdl
