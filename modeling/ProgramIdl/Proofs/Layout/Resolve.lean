import ProgramIdl.Proofs.Layout.Typing
import ProgramIdl.Proofs.Pass

/-!
# Laying out tokens

The resolver of tokens remembers finished structs, refuses structs that are still pending, and goes
down only so many structs.  None of this shows in what it accepts: from any sound memory it finds
the layout that the typing rules give a token, and it fails only if they give it none that fits
inside the pending structs (`TypeTable.resolveWithin_meets`).  A struct with a layout never meets
itself while it is being laid out, because its own layout would have to be smaller than itself.
-/

set_option autoImplicit false

namespace ProgramIdl

/-! ## Steps and what they remember -/

/-- A memory in which every finished struct has the layout that the typing rules give it. -/
def LayoutMemory.Sound (table : TypeTable) (memory : LayoutMemory) : Prop :=
  ∀ name layout, memory.finished.lookup name = some layout → table.LaysOut name layout

theorem LayoutMemory.sound_empty (table : TypeTable) : LayoutMemory.Sound table {} := by
  intro name layout found
  cases found

theorem LayoutMemory.Sound.keep {table : TypeTable} {memory : LayoutMemory} {name : String}
    {layout : Layout} (sound : memory.Sound table) (laid : table.LaysOut name layout) :
    (memory.keep name layout).Sound table := by
  intro other found lookup
  rw [LayoutMemory.keep, List.lookup_cons] at lookup
  split at lookup
  · rename_i same
    obtain rfl := eq_of_beq same
    obtain rfl := Option.some.inj lookup
    exact laid
  · exact sound other found lookup

namespace Resolving

variable {α β : Type} {table : TypeTable} {pending : List String}

theorem run_bind (step : Resolving α) (next : α → Resolving β) (memory : LayoutMemory) :
    (step >>= next).run memory =
      match step.run memory with
      | (.ok value, after) => (next value).run after
      | (.error failure, after) => (.error failure, after) := by
  have shape : (step >>= next).run memory =
      ExceptT.bindCont next (step.run memory).1 (step.run memory).2 := rfl
  rw [shape]
  rcases step.run memory with ⟨outcome, after⟩
  cases outcome <;> rfl

theorem run_within (name : String) (step : Resolving α) (memory : LayoutMemory) :
    (within name step).run memory =
      ((step.run (memory.enter name)).1, (step.run (memory.enter name)).2.leave) := rfl

/-- From every sound memory with certain structs pending, a step ends in such a memory, and what
comes of it is as described. -/
def Meets (table : TypeTable) (pending : List String) (step : Resolving α)
    (post : Except Failure α → Prop) : Prop :=
  ∀ memory : LayoutMemory, memory.Sound table → memory.pending = pending →
    (step.run memory).2.Sound table ∧ (step.run memory).2.pending = pending ∧
      post (step.run memory).1

theorem Meets.pure {post : Except Failure α → Prop} {value : α} (holds : post (.ok value)) :
    Meets table pending (Pure.pure value) post :=
  fun _ sound same => ⟨sound, same, holds⟩

theorem Meets.throw {post : Except Failure α → Prop} {failure : Failure}
    (holds : post (.error failure)) :
    Meets table pending (MonadExcept.throw failure : Resolving α) post :=
  fun _ sound same => ⟨sound, same, holds⟩

theorem Meets.mono {step : Resolving α} {post weaker : Except Failure α → Prop}
    (meets : Meets table pending step post) (implies : ∀ outcome, post outcome → weaker outcome) :
    Meets table pending step weaker := by
  intro memory sound same
  obtain ⟨after, samePending, holds⟩ := meets memory sound same
  exact ⟨after, samePending, implies _ holds⟩

theorem Meets.and {step : Resolving α} {post other : Except Failure α → Prop}
    (meets : Meets table pending step post) (also : Meets table pending step other) :
    Meets table pending step fun outcome => post outcome ∧ other outcome := by
  intro memory sound same
  obtain ⟨after, samePending, holds⟩ := meets memory sound same
  exact ⟨after, samePending, holds, (also memory sound same).2.2⟩

theorem Meets.bind {step : Resolving α} {next : α → Resolving β}
    {middle : Except Failure α → Prop} {post : Except Failure β → Prop}
    (first : Meets table pending step middle)
    (later : ∀ value, middle (.ok value) → Meets table pending (next value) post)
    (failed : ∀ failure, middle (.error failure) → post (.error failure)) :
    Meets table pending (step >>= next) post := by
  intro memory sound same
  obtain ⟨after, samePending, holds⟩ := first memory sound same
  rw [run_bind]
  rcases ran : step.run memory with ⟨outcome, behind⟩
  rw [ran] at after samePending holds
  cases outcome with
  | ok value => exact later value holds behind after samePending
  | error failure => exact ⟨after, samePending, failed failure holds⟩

theorem Meets.within {step : Resolving α} {name : String} {post : Except Failure α → Prop}
    (meets : Meets table (name :: pending) step post) :
    Meets table pending (within name step) post := by
  intro memory sound same
  obtain ⟨after, samePending, holds⟩ := meets (memory.enter name) sound
    (by rw [LayoutMemory.enter, same])
  refine ⟨after, ?_, holds⟩
  rw [run_within, LayoutMemory.leave, samePending, List.tail_cons]

/-- What comes of a step that starts without anything remembered. -/
theorem Meets.outcome {step : Resolving α} {post : Except Failure α → Prop}
    (meets : Meets table [] step post) : post (step.run {}).1 :=
  (meets {} (LayoutMemory.sound_empty table) rfl).2.2

/-- Whatever is remembered, a step finds exactly the values that are described. -/
def Finds (table : TypeTable) (step : Resolving α) (describes : α → Prop) : Prop :=
  Meets table [] step fun outcome => ∀ value, outcome = .ok value ↔ describes value

theorem Finds.congr {step : Resolving α} {describes alike : α → Prop}
    (finds : Finds table step describes) (same : ∀ value, describes value ↔ alike value) :
    Finds table step alike :=
  Meets.mono finds fun _ exact value => (exact value).trans (same value)

theorem Finds.pure (value : α) : Finds table (Pure.pure value) fun found => value = found :=
  Meets.pure fun _ => by rw [Except.ok.injEq]

theorem Finds.throw (failure : Failure) :
    Finds table (MonadExcept.throw failure : Resolving α) fun _ => False :=
  Meets.throw fun _ => by simp

/-- A step that remembers nothing. -/
theorem Finds.lift (outcome : Except Failure α) :
    Finds table (liftM outcome : Resolving α) fun value => outcome = .ok value :=
  fun _ sound same => ⟨sound, same, fun _ => Iff.rfl⟩

theorem Finds.bind {step : Resolving α} {next : α → Resolving β} {describes : α → Prop}
    {behind : α → β → Prop} (first : Finds table step describes)
    (later : ∀ value, describes value → Finds table (next value) (behind value)) :
    Finds table (step >>= next) fun result => ∃ value, describes value ∧ behind value result := by
  intro memory sound same
  obtain ⟨after, samePending, exact⟩ := first memory sound same
  rw [run_bind]
  rcases ran : step.run memory with ⟨outcome, middle⟩
  simp only [ran] at after samePending exact
  cases outcome with
  | error failure =>
      refine ⟨after, samePending, fun result => ?_⟩
      simp only [reduceCtorEq, false_iff, not_exists, not_and]
      intro value described
      cases (exact value).mpr described
  | ok value =>
      have described := (exact value).mp rfl
      obtain ⟨afterBoth, samePendingBoth, exactBoth⟩ :=
        later value described middle after samePending
      refine ⟨afterBoth, samePendingBoth, fun result => ?_⟩
      rw [exactBoth result]
      constructor
      · intro found
        exact ⟨value, described, found⟩
      · rintro ⟨other, otherDescribed, found⟩
        obtain rfl := Except.ok.inj ((exact other).mpr otherDescribed)
        exact found

/-- A step behind a check. -/
theorem Finds.ensure {condition : Prop} [Decidable condition] {failure : Failure}
    {next : Unit → Resolving β} {describes : β → Prop} (finds : Finds table (next ()) describes) :
    Finds table (if condition then MonadExcept.throw failure >>= next else next ())
      fun found => ¬ condition ∧ describes found := by
  split
  · rename_i holds
    have stops : (MonadExcept.throw failure : Resolving Unit) >>= next =
        MonadExcept.throw failure := rfl
    rw [stops]
    exact (Finds.throw failure).congr fun found => by simp [holds]
  · rename_i fails
    exact finds.congr fun found => by simp [fails]

theorem Finds.outcome {step : Resolving α} {describes : α → Prop}
    (finds : Finds table step describes) {value : α} :
    (step.run {}).1 = .ok value ↔ describes value :=
  Meets.outcome finds value

end Resolving

namespace TypeTable

open Resolving

variable {table : TypeTable} {pending : List String} {depth : Nat}

/-! ## One struct after another -/

theorem run_resolveWithin_record {owner : Owner} {token name : String} {fields : List Field}
    (reads : table.read token = .record name fields) (memory : LayoutMemory) :
    (table.resolveWithin depth owner token).run memory =
      match memory.finished.lookup name with
      | some layout => (.ok layout, memory)
      | none =>
          if name ∈ memory.pending then (.error (owner.unsupported token), memory)
          else
            match depth with
            | 0 => (.error (owner.unsupported token), memory)
            | depth + 1 =>
                match (within name (layOutWith (table.resolveWithin depth)
                    ⟨name, table.sites.lookup name⟩ fields)).run memory with
                | (.ok members, after) =>
                    (.ok (.ofFields name members), after.keep name (.ofFields name members))
                | (.error failure, after) => (.error failure, after) := by
  unfold TypeTable.resolveWithin
  simp only [reads]
  rw [run_bind]
  change (match memory.finished.lookup name with
    | some layout => _
    | none => _ : Resolving Layout).run memory = _
  cases memory.finished.lookup name with
  | some layout => rfl
  | none =>
      simp only
      split
      · rfl
      · cases depth with
        | zero => rfl
        | succ depth =>
            simp only
            rw [run_bind]
            rcases (within name (layOutWith (table.resolveWithin depth)
              ⟨name, table.sites.lookup name⟩ fields)).run memory with ⟨outcome, after⟩
            cases outcome <;> rfl

/-- The structs that are being laid out are different structs of the table, and there is room for
the others. -/
structure Room (table : TypeTable) (pending : List String) (depth : Nat) : Prop where
  nodup : pending.Nodup
  declared : ∀ name ∈ pending, name ∈ table.records.map Prod.fst
  enough : table.records.length ≤ pending.length + depth

theorem room_top (table : TypeTable) : table.Room [] table.records.length :=
  ⟨List.nodup_nil, by simp, by simp⟩

theorem mem_of_declared {name : String} {fields : List Field}
    (declared : table.records.lookup name = some fields) :
    name ∈ table.records.map Prod.fst :=
  List.mem_map_of_mem (mem_of_lookup declared)

theorem Room.enter {name : String} {fields : List Field} (room : table.Room pending (depth + 1))
    (declared : table.records.lookup name = some fields) (fresh : name ∉ pending) :
    table.Room (name :: pending) depth := by
  refine ⟨List.nodup_cons.mpr ⟨fresh, room.nodup⟩, ?_, ?_⟩
  · intro other member
    rcases List.mem_cons.mp member with rfl | member
    · exact mem_of_declared declared
    · exact room.declared other member
  · have := room.enough
    simp only [List.length_cons]
    omega

/-- A further struct always finds room: the pending ones and it are different structs. -/
theorem Room.depth_ne_zero {name : String} {fields : List Field} (room : table.Room pending depth)
    (declared : table.records.lookup name = some fields) (fresh : name ∉ pending) :
    depth ≠ 0 := by
  rintro rfl
  have distinct : (name :: pending).Nodup := List.nodup_cons.mpr ⟨fresh, room.nodup⟩
  have inside : name :: pending ⊆ table.records.map Prod.fst := by
    intro other member
    rcases List.mem_cons.mp member with rfl | member
    · exact mem_of_declared declared
    · exact room.declared other member
  have bound := distinct.length_le_of_subset inside
  have enough := room.enough
  simp only [List.length_cons, List.length_map] at bound
  omega

/-! ## What the resolver answers -/

/-- A layout is smaller than those of all pending structs, so that it may lie inside them. -/
def FitsInside (table : TypeTable) (pending : List String) (layout : Layout) : Prop :=
  ∀ name ∈ pending, ∀ outer, table.LaysOut name outer → sizeOf layout < sizeOf outer

/-- What comes of laying out a token: its layout, or else a token that is not supported, and then
the token has no layout that fits inside the pending structs. -/
def Answers (table : TypeTable) (pending : List String) (token : String) :
    Except Failure Layout → Prop
  | .ok layout => table.HasType token layout
  | .error failure =>
      (∃ context culprit location, failure = .unsupportedType context culprit location) ∧
        ∀ layout, table.HasType token layout → ¬ table.FitsInside pending layout

/-- What comes of laying out some fields, in the same way. -/
def AnswersFields (table : TypeTable) (pending : List String) (fields : List Field) :
    Except Failure (List (Member Layout)) → Prop
  | .ok members => table.FieldsHaveType fields members
  | .error failure =>
      (∃ context culprit location, failure = .unsupportedType context culprit location) ∧
        ∀ members, table.FieldsHaveType fields members →
          ¬ ∀ member ∈ members, table.FitsInside pending member.type

theorem answers_unsupported {owner : Owner} {token : String}
    (none : ∀ layout, table.HasType token layout → ¬ table.FitsInside pending layout) :
    table.Answers pending token (.error (owner.unsupported token)) :=
  ⟨⟨owner.name, token, owner.site, rfl⟩, none⟩

theorem layOutWith_meets {resolve : Owner → String → Resolving Layout}
    (answers : ∀ owner token, Meets table pending (resolve owner token)
      (table.Answers pending token)) (owner : Owner) (fields : List Field) :
    Meets table pending (layOutWith resolve owner fields)
      (table.AnswersFields pending fields) := by
  induction fields with
  | nil => exact .pure .nil
  | cons field fields inductionHypothesis =>
      rw [layOutWith]
      refine (answers owner field.type).bind ?_ ?_
      · intro layout head
        refine inductionHypothesis.bind ?_ ?_
        · intro members tail
          exact .pure (.cons head tail)
        · rintro failure ⟨unsupported, none⟩
          refine ⟨unsupported, ?_⟩
          intro members typed fits
          cases typed with
          | cons _ tail =>
              exact none _ tail fun member inside => fits member (List.mem_cons_of_mem _ inside)
      · rintro failure ⟨unsupported, none⟩
        refine ⟨unsupported, ?_⟩
        intro members typed fits
        cases typed with
        | cons head _ => exact none _ head (fits _ List.mem_cons_self)

/-- The members of a struct fit inside it, and inside all structs that it fits inside. -/
theorem FitsInside.member {name : String} {members : List (Member Layout)}
    (laid : table.LaysOut name (.ofFields name members))
    (fits : table.FitsInside pending (.ofFields name members)) {member : Member Layout}
    (inside : member ∈ members) : table.FitsInside (name :: pending) member.type := by
  intro other listed outer laysOut
  have smaller : sizeOf member.type < sizeOf (Layout.ofFields name members) :=
    sizeOf_type_lt inside
  rcases List.mem_cons.mp listed with rfl | listed
  · rw [laid.unique laysOut]
    exact smaller
  · exact Nat.lt_trans smaller (fits other listed outer laysOut)

/-- A struct whose fields have no layouts that fit inside it has none that fits inside the pending
structs. -/
theorem not_fitsInside_of_fields {name : String} {fields : List Field}
    (declared : table.records.lookup name = some fields)
    (none : ∀ members, table.FieldsHaveType fields members →
      ¬ ∀ member ∈ members, table.FitsInside (name :: pending) member.type) {layout : Layout}
    (laid : table.LaysOut name layout) : ¬ table.FitsInside pending layout := by
  intro fits
  cases laid with
  | @intro same members unknown sameDeclared typed =>
      obtain rfl := Option.some.inj (declared.symm.trans sameDeclared)
      exact none members typed fun member inside =>
        fits.member (.intro unknown declared typed) inside

/-- The resolver finds the layout that a token has, and fails only if it has none that fits inside
the pending structs. -/
theorem resolveWithin_meets (room : table.Room pending depth) (owner : Owner) (token : String) :
    Meets table pending (table.resolveWithin depth owner token)
      (table.Answers pending token) := by
  induction depth using Nat.strongRecOn generalizing pending owner token with
  | _ depth inductionHypothesis =>
  cases reads : table.read token with
  | known layout =>
      rw [resolveWithin, reads]
      exact .pure ((hasType_of_read_known reads).mpr rfl)
  | unknown =>
      rw [resolveWithin, reads]
      exact .throw (answers_unsupported fun layout typed =>
        absurd typed (not_hasType_of_read_unknown reads layout))
  | record name fields =>
      obtain ⟨unknown, declared⟩ := declared_of_read_record reads
      intro memory sound same
      rw [run_resolveWithin_record reads]
      cases finished : memory.finished.lookup name with
      | some layout =>
          exact ⟨sound, same, (hasType_of_read_record reads).mpr (sound name layout finished)⟩
      | none =>
          simp only
          split
          · rename_i listed
            refine ⟨sound, same, answers_unsupported ?_⟩
            intro layout typed fits
            -- The layout would be smaller than itself.
            have laid := (hasType_of_read_record reads).mp typed
            exact Nat.lt_irrefl _ (fits name (same ▸ listed) layout laid)
          · rename_i fresh
            rw [same] at fresh
            cases depth with
            | zero => exact absurd rfl (room.depth_ne_zero declared fresh)
            | succ depth =>
                have answers := inductionHypothesis depth (Nat.lt_succ_self depth)
                  (room.enter declared fresh)
                obtain ⟨after, samePending, holds⟩ := (layOutWith_meets answers
                  ⟨name, table.sites.lookup name⟩ fields).within memory sound same
                simp only
                rcases ran : (within name (layOutWith (table.resolveWithin depth)
                  ⟨name, table.sites.lookup name⟩ fields)).run memory with ⟨outcome, behind⟩
                rw [ran] at after samePending holds
                cases outcome with
                | ok members =>
                    have laid : table.LaysOut name (.ofFields name members) :=
                      .intro unknown declared holds
                    exact ⟨after.keep laid, samePending, (hasType_of_read_record reads).mpr laid⟩
                | error failure =>
                    obtain ⟨unsupported, none⟩ := holds
                    refine ⟨after, samePending, unsupported, ?_⟩
                    intro layout typed
                    exact not_fitsInside_of_fields declared none
                      ((hasType_of_read_record reads).mp typed)

theorem fitsInside_top (layout : Layout) : table.FitsInside [] layout := by
  intro name listed
  cases listed

/-- Between the calls of the resolver nothing is pending, and then it finds the layout of every
token that has one. -/
theorem resolve_meets (table : TypeTable) (owner : Owner) (token : String) :
    Meets table [] (table.resolve owner token) (table.Answers [] token) :=
  resolveWithin_meets table.room_top owner token

theorem resolve_finds (table : TypeTable) (owner : Owner) (token : String) :
    Finds table (table.resolve owner token) (table.HasType token) := by
  refine (table.resolve_meets owner token).mono ?_
  rintro (failure | found) answers layout
  · simp only [reduceCtorEq, false_iff]
    intro typed
    exact answers.2 layout typed (fitsInside_top layout)
  · constructor
    · rintro ⟨⟩
      exact answers
    · intro typed
      rw [HasType.unique answers typed]

theorem resolveFields_finds (table : TypeTable) (owner : Owner) (fields : List Field) :
    Finds table (table.resolveFields owner fields) (table.FieldsHaveType fields) := by
  rw [resolveFields]
  induction fields with
  | nil =>
      refine (Finds.pure []).congr fun members => ?_
      constructor
      · rintro rfl
        exact .nil
      · rintro ⟨⟩
        rfl
  | cons field fields inductionHypothesis =>
      rw [layOutWith]
      refine ((table.resolve_finds owner field.type).bind fun layout _ =>
        inductionHypothesis.bind fun members _ => Finds.pure _).congr fun members => ?_
      constructor
      · rintro ⟨layout, head, rest, tail, rfl⟩
        exact .cons head tail
      · rintro ⟨⟩
        rename_i head tail
        exact ⟨_, head, _, tail, rfl⟩

/-! ## The bound on the depth is never met -/

theorem run_layOutWith_congr {resolve deeper : Owner → String → Resolving Layout}
    (keeps : ∀ owner token, Meets table pending (resolve owner token) fun _ => True)
    (agree : ∀ owner token memory, memory.Sound table → memory.pending = pending →
      (deeper owner token).run memory = (resolve owner token).run memory)
    (owner : Owner) (fields : List Field) (memory : LayoutMemory) (sound : memory.Sound table)
    (same : memory.pending = pending) :
    (layOutWith deeper owner fields).run memory = (layOutWith resolve owner fields).run memory := by
  induction fields generalizing memory with
  | nil => rfl
  | cons field fields inductionHypothesis =>
      rw [layOutWith, layOutWith, run_bind, run_bind, agree owner field.type memory sound same]
      obtain ⟨after, samePending, _⟩ := keeps owner field.type memory sound same
      rcases ran : (resolve owner field.type).run memory with ⟨outcome, behind⟩
      rw [ran] at after samePending
      cases outcome with
      | error failure => rfl
      | ok layout =>
          simp only
          rw [run_bind, run_bind, inductionHypothesis behind after samePending]

/-- A resolver that may go down further than there are structs does the same. -/
theorem run_resolveWithin_add (room : table.Room pending depth) (extra : Nat) (owner : Owner)
    (token : String) (memory : LayoutMemory) (sound : memory.Sound table)
    (same : memory.pending = pending) :
    (table.resolveWithin (depth + extra) owner token).run memory =
      (table.resolveWithin depth owner token).run memory := by
  induction depth using Nat.strongRecOn generalizing pending owner token memory with
  | _ depth inductionHypothesis =>
  cases reads : table.read token with
  | known layout => rw [resolveWithin, resolveWithin, reads]
  | unknown => rw [resolveWithin, resolveWithin, reads]
  | record name fields =>
      obtain ⟨_, declared⟩ := declared_of_read_record reads
      rw [run_resolveWithin_record reads, run_resolveWithin_record reads]
      cases memory.finished.lookup name with
      | some layout => rfl
      | none =>
          simp only
          split
          · rfl
          · rename_i fresh
            rw [same] at fresh
            cases depth with
            | zero => exact absurd rfl (room.depth_ne_zero declared fresh)
            | succ depth =>
                have inner := room.enter declared fresh
                have agree := run_layOutWith_congr
                  (fun owner token => (resolveWithin_meets inner owner token).mono
                    fun _ _ => trivial)
                  (inductionHypothesis depth (Nat.lt_succ_self depth) inner)
                  ⟨name, table.sites.lookup name⟩ fields (memory.enter name) sound
                  (by rw [LayoutMemory.enter, same])
                rw [Nat.add_right_comm]
                simp only [run_within, agree]

/-- The resolver, started without anything remembered, lays out exactly the tokens that have a
layout by the typing rules, and finds that layout; every other token ends in an unsupported type.
It never has to go down further than there are structs. -/
theorem resolve_exact (table : TypeTable) (owner : Owner) (token : String) :
    (∀ layout, ((table.resolve owner token).run {}).1 = .ok layout ↔
      table.HasType token layout) ∧
    ((∃ layout, table.HasType token layout) ∨
      ∃ context culprit location, ((table.resolve owner token).run {}).1 =
        .error (.unsupportedType context culprit location)) ∧
    ∀ extra, (table.resolveWithin (table.records.length + extra) owner token).run {} =
      (table.resolve owner token).run {} := by
  refine ⟨fun layout => (table.resolve_finds owner token).outcome, ?_, fun extra =>
    run_resolveWithin_add table.room_top extra owner token {} (LayoutMemory.sound_empty table) rfl⟩
  have answers := (table.resolve_meets owner token).outcome
  cases outcome : ((table.resolve owner token).run {}).1 with
  | ok found =>
      rw [outcome] at answers
      exact Or.inl ⟨found, answers⟩
  | error failure =>
      rw [outcome] at answers
      obtain ⟨⟨context, culprit, location, rfl⟩, _⟩ := answers
      exact Or.inr ⟨context, culprit, location, rfl⟩

end TypeTable

end ProgramIdl
