import ProgramIdl.Proofs.Syntax.Steady.Type

/-!
# Conditions on generics in front of a block

A parser reaches a group if it stops in front of it; then it does so whatever stands behind the
group.  The conditions behind `where` only do this much: a list of them goes on as long as conditions
can be read, and one that would take the block is no condition here but may be one elsewhere.
-/

set_option autoImplicit false

namespace ProgramIdl.Syntax

open ProgramIdl.Syntax.Parser

variable {α β : Type} {stop : Stop} {passing : Bool}

namespace Parser

/-- Where the parser stops in front of the one group, it does so in front of the other. -/
structure Reaches (stop : Stop) (parser : Parser α) : Prop where
  settles : Settles parser
  reaches {front : List Tree} {value : α} :
    parser (stop.short front) = some (value, [stop.here]) →
      parser (stop.long front) = some (value, stop.there :: stop.rest)

section Reaches

variable {parser : Parser α} {next : α → Parser β}

/-- The trees in front of a group at which a parser stops are settled. -/
theorem Settles.closed (settles : Settles parser) {front : List Tree} {value : α}
    (read : parser (stop.short front) = some (value, [stop.here])) : AnglesClosed front := by
  obtain ⟨taken, split, settled⟩ := settles _ _ _ read
  obtain rfl := List.append_cancel_right split
  exact settled.closed

theorem Settles.length_le (settles : Settles parser) {trees left : List Tree} {value : α}
    (read : parser trees = some (value, left)) : left.length ≤ trees.length := by
  obtain ⟨taken, rfl, _⟩ := settles _ _ _ read
  simp

theorem SteadyBefore.reaches (steady : SteadyBefore stop true parser) : Reaches stop parser where
  settles := steady.settles
  reaches {front value} read := by
    have continued := steady.continues front (steady.settles.closed read)
    rw [read] at continued
    generalize ends : some (value, [stop.here]) = result at continued
    generalize parser (stop.long front) = result' at continued
    cases continued with
    | failed => cases ends
    | within _ =>
        obtain ⟨rfl, same⟩ := Prod.mk.inj (Option.some.inj ends)
        obtain rfl := Stop.short_eq_here same.symm
        rfl
    | past _ => cases ends

theorem Reaches.bind (first : SteadyBefore stop true parser) (second : ∀ value, Reaches stop (next value)) :
    Reaches stop (parser >>= next) where
  settles := first.settles.bind fun value => (second value).settles
  reaches {front value} read := by
    have settles := first.settles.bind fun value => (second value).settles
    have continued := first.continues front (settles.closed read)
    change (parser (stop.short front)).bind _ = _ at read
    change (parser (stop.long front)).bind _ = _
    generalize parser (stop.short front) = result at continued read
    generalize parser (stop.long front) = result' at continued
    cases continued with
    | failed => cases read
    | within _ => exact (second _).reaches read
    | past _ => cases (second _).settles.of_nil read

theorem reaches_pure (value : α) : Reaches stop (pure value : Parser α) :=
  (steady_pure value).reaches

theorem Reaches.thenPure (reaches : Reaches stop parser) (result : α → β) :
    Reaches stop (parser >>= fun value => pure (result value)) where
  settles := reaches.settles.bind fun _ => settles_pure _
  reaches {front value} read := by
    obtain ⟨⟨found, left⟩, readFirst, same⟩ := Option.bind_eq_some_iff.mp read
    obtain ⟨rfl, rfl⟩ := Prod.mk.inj (Option.some.inj same)
    change (parser (stop.long front)).bind _ = _
    rw [reaches.reaches readFirst]
    rfl

/-- Two steps that leave the group leave the other one too. -/
theorem exists_of_bind (first : SteadyBefore stop true parser)
    (second : ∀ value, SteadyBefore stop true (next value)) {front left : List Tree} {value : β}
    (closed : AnglesClosed front) (read : (parser >>= next) (stop.short front) = some (value, left))
    (some_ : left ≠ []) : ∃ behind, left = stop.short behind ∧ AnglesClosed behind ∧
      (parser >>= next) (stop.long front) = some (value, stop.long behind) := by
  have continued := first.continues front closed
  change (parser (stop.short front)).bind _ = _ at read
  change ∃ behind, _ ∧ _ ∧ (parser (stop.long front)).bind _ = _
  generalize parser (stop.short front) = result at continued read
  generalize parser (stop.long front) = result' at continued ⊢
  cases continued with
  | failed => cases read
  | past _ => exact absurd ((second _).settles.of_nil read) some_
  | @within middle between closedBetween =>
      have later := (second middle).continues between closedBetween
      change next middle (stop.short between) = _ at read
      rw [read] at later
      generalize ends : some (value, left) = last at later
      change ∃ behind, _ ∧ _ ∧ next middle (stop.long between) = _
      generalize next middle (stop.long between) = last' at later ⊢
      cases later with
      | failed => cases ends
      | within closed =>
          obtain ⟨rfl, rfl⟩ := Prod.mk.inj (Option.some.inj ends)
          exact ⟨_, rfl, closed, rfl⟩
      | past _ =>
          obtain ⟨_, rfl⟩ := Prod.mk.inj (Option.some.inj ends)
          exact absurd rfl some_

end Reaches

end Parser

namespace Grammar

variable {g : Grammar}

/-! ## Conditions on generics -/

/-- No type starts with a block. -/
theorem type_block (depth : Nat) (opening closing : Token) (inner rest : List Tree) :
    (ofDepth depth).type (.group .brace opening inner closing :: rest) = none := by
  cases depth with
  | zero => rfl
  | succ depth => rfl

section Conditions

variable (braces : stop.delimiter = .brace) {depth : Nat}

theorem genericCondition_block (opening closing : Token) (inner rest : List Tree) :
    genericCondition (ofDepth depth) (.group .brace opening inner closing :: rest) = none := by
  change ((skip (ofDepth depth).type (.group .brace opening inner closing :: rest)).bind _) = _
  change (((ofDepth depth).type (.group .brace opening inner closing :: rest)).bind _).bind _ = _
  rw [type_block]
  rfl

/-- A further condition stands behind a comma. -/
theorem furtherCondition_cons (token : Token) (trees : List Tree) :
    (mark ',' *> genericCondition (ofDepth depth)) (.leaf token :: trees) =
      if (Tree.leaf token).isMark ',' then genericCondition (ofDepth depth) trees else none := by
  change ((mark ',') (.leaf token :: trees)).bind _ = _
  rw [mark, Parser.token]
  split <;> rfl

include braces

theorem settles_genericCondition : Settles (genericCondition (ofDepth depth)) := by
  have types := steady_type braces depth
  refine (steady_lifetime.skip.orElse types.skip).settles.bind fun _ => ?_
  exact (@steady_mark stop false ':' (by decide)).settles.bind fun _ =>
    (steady_bounds braces types).maybe.skip.settles

/-- A condition that leaves the group leaves the other one too. -/
theorem exists_of_genericCondition {front left : List Tree} {value : Unit}
    (closed : AnglesClosed front)
    (read : genericCondition (ofDepth depth) (stop.short front) = some (value, left))
    (some_ : left ≠ []) : ∃ behind, left = stop.short behind ∧ AnglesClosed behind ∧
      genericCondition (ofDepth depth) (stop.long front) = some (value, stop.long behind) := by
  have types := steady_type braces depth
  refine exists_of_bind (steady_lifetime.skip.orElse types.skip) (fun _ => ?_) closed read some_
  exact (steady_mark (by decide)).bind fun _ => (steady_bounds braces types).maybe.skip

/-- Conditions between commas of which nothing is left but the group, perhaps behind a comma. -/
theorem upTo_furtherCondition {count count' : Nat} {front behind : List Tree}
    {conditions : List Unit} (closed : AnglesClosed front) (short : behind.length ≤ 1)
    (enough : front.length < count) (enough' : front.length < count')
    (read : upTo (mark ',' *> genericCondition (ofDepth depth)) count (stop.short front) =
      some (conditions, stop.short behind)) :
    upTo (mark ',' *> genericCondition (ofDepth depth)) count' (stop.long front) =
      some (conditions, stop.long behind) := by
  induction count generalizing count' front conditions with
  | zero => omega
  | succ count inductionHypothesis =>
      obtain ⟨count', rfl⟩ : ∃ fewer, count' = fewer + 1 := ⟨count' - 1, by omega⟩
      have block (rest : List Tree) : genericCondition (ofDepth depth) (stop.there :: rest) = none := by
        rw [Stop.there, braces]
        exact genericCondition_block _ _ _ _
      cases found : (mark ',' *> genericCondition (ofDepth depth)) (stop.short front) with
      | none =>
          rw [upTo_of_failed found] at read
          obtain ⟨rfl, same⟩ := Prod.mk.inj (Option.some.inj read)
          obtain rfl := List.append_cancel_right same
          refine upTo_of_failed ?_ _
          rcases front with _ | ⟨tree, front⟩
          · rfl
          · obtain rfl : front = [] := List.length_eq_zero_iff.mp (by simpa using short)
            cases tree with
            | group _ _ _ _ => rfl
            | leaf token =>
                rw [Stop.long_cons, furtherCondition_cons, Stop.long_nil, block, ite_self]
      | some result =>
          obtain ⟨value, left⟩ := result
          rw [upTo_of_read found] at read
          obtain ⟨⟨more, last⟩, readMore, same⟩ := Option.bind_eq_some_iff.mp read
          obtain ⟨rfl, rfl⟩ := Prod.mk.inj (Option.some.inj same)
          have settles : Settles (mark ',' *> genericCondition (ofDepth depth)) :=
            (@steady_mark stop false ',' (by decide)).settles.bind fun _ =>
              settles_genericCondition braces
          have some_ : left ≠ [] := by
            rintro rfl
            exact stop.short_ne_nil behind ((settles.upTo count).of_nil readMore)
          rcases front with _ | ⟨tree, front⟩
          · cases found
          cases tree with
          | group _ _ _ _ => cases found
          | leaf token =>
              rw [Stop.short_cons, furtherCondition_cons] at found
              split at found
              · rename_i comma
                obtain ⟨between, rfl, closedBetween, foundLong⟩ :=
                  exists_of_genericCondition braces closed.tail found some_
                have fewer := (settles_genericCondition braces).length_le found
                rw [Stop.length_short, Stop.length_short] at fewer
                rw [List.length_cons] at enough enough'
                have later := @inductionHypothesis count' between _ closedBetween (by omega)
                  (by omega) readMore
                have foundHere : (mark ',' *> genericCondition (ofDepth depth))
                    (stop.long (.leaf token :: front)) = some (value, stop.long between) := by
                  rw [Stop.long_cons, furtherCondition_cons, if_pos comma, foundLong]
                rw [upTo_of_read foundHere]
                change (upTo _ count' (stop.long between)).bind _ = _
                rw [later]
                rfl
              · cases found

omit braces in
/-- At most a comma is left in front of the group. -/
theorem maybe_comma {left : List Tree} {found : Option Token}
    (read : maybe (mark ',') left = some (found, [stop.here])) :
    ∃ behind, left = stop.short behind ∧ behind.length ≤ 1 ∧
      maybe (mark ',') (stop.long behind) = some (found, stop.there :: stop.rest) := by
  rw [Parser.maybe] at read
  split at read
  · rename_i token rest comma
    obtain ⟨rfl, rfl⟩ := Prod.mk.inj (Option.some.inj read)
    obtain ⟨rfl, isComma⟩ := token_eq_some comma
    refine ⟨[.leaf token], rfl, Nat.le_refl _, ?_⟩
    rw [Stop.long_cons, Parser.maybe, mark, Parser.token, if_pos isComma]
    rfl
  · obtain ⟨rfl, rfl⟩ := Prod.mk.inj (Option.some.inj read)
    exact ⟨[], rfl, Nat.zero_le _, rfl⟩

theorem reaches_conditions :
    Reaches stop (commaSeparated (genericCondition (ofDepth depth))) := by
  have condition := @settles_genericCondition stop braces depth
  have comma : Settles (mark ',') := (@steady_mark stop false ',' (by decide)).settles
  have further : Settles (mark ',' *> genericCondition (ofDepth depth)) :=
    comma.bind fun _ => condition
  have rest (first : Unit) : Settles (do
      let more ← many (mark ',' *> genericCondition (ofDepth depth))
      let _ ← maybe (mark ',')
      return first :: more) :=
    further.many.bind fun _ => comma.maybe.bind fun _ => settles_pure _
  have whole : Settles (commaSeparated (genericCondition (ofDepth depth))) := by
    refine condition.maybe.bind fun found => ?_
    cases found with
    | none => exact settles_pure []
    | some first => exact rest first
  refine ⟨whole, ?_⟩
  · intro front conditions read
    have readWhole := read
    change (maybe (genericCondition (ofDepth depth)) (stop.short front)).bind _ = _ at read
    change (maybe (genericCondition (ofDepth depth)) (stop.long front)).bind _ = _
    rw [Parser.maybe] at read ⊢
    split at read
    · rename_i first left found
      have readRest : (do
          let more ← many (mark ',' *> genericCondition (ofDepth depth))
          let _ ← maybe (mark ',')
          return first :: more : Parser _) left = some (conditions, [stop.here]) := read
      obtain ⟨⟨more, leftMore⟩, readMore, readComma⟩ := Option.bind_eq_some_iff.mp readRest
      obtain ⟨⟨last, leftLast⟩, readLast, same⟩ := Option.bind_eq_some_iff.mp readComma
      obtain ⟨rfl, rfl⟩ := Prod.mk.inj (Option.some.inj same)
      have some_ : left ≠ [] := by
        rintro rfl
        cases (rest first).of_nil read
      obtain ⟨between, rfl, closed, foundLong⟩ := exists_of_genericCondition braces
        ((whole.closed readWhole)) found some_
      obtain ⟨behind, rfl, short, commaLong⟩ := maybe_comma readLast
      have moreLong : many (mark ',' *> genericCondition (ofDepth depth)) (stop.long between) =
          some (more, stop.long behind) :=
        upTo_furtherCondition braces closed short (by simp) (by simp [Stop.long]) readMore
      rw [foundLong]
      change (many (mark ',' *> genericCondition (ofDepth depth)) (stop.long between)).bind _ = _
      rw [moreLong]
      change (maybe (mark ',') (stop.long behind)).bind _ = _
      rw [commaLong]
      rfl
    · rename_i missing
      obtain ⟨rfl, same⟩ := Prod.mk.inj (Option.some.inj read)
      obtain rfl := Stop.short_eq_here same
      have none : genericCondition (ofDepth depth) (stop.long []) = none := by
        rw [Stop.long_nil, Stop.there, braces]
        exact genericCondition_block _ _ _ _
      rw [none]
      rfl

theorem reaches_whereClause : Reaches stop (whereClause (ofDepth depth)) := by
  have conditions := @reaches_conditions stop braces depth
  have settles : Settles (whereClause (ofDepth depth)) :=
    ((@steady_word stop false "where").settles.bind fun _ => conditions.settles).maybe.bind
      fun _ => settles_pure _
  refine ⟨settles, ?_⟩
  intro front value read
  obtain ⟨⟨found, left⟩, readMaybe, same⟩ := Option.bind_eq_some_iff.mp read
  obtain ⟨_, rfl⟩ := Prod.mk.inj (Option.some.inj same)
  change (maybe _ (stop.long front)).bind _ = _
  rw [Parser.maybe] at readMaybe ⊢
  split at readMaybe
  · rename_i value rest readWhere
    obtain ⟨rfl, rfl⟩ := Prod.mk.inj (Option.some.inj readMaybe)
    obtain ⟨⟨token, between⟩, readWord, readList⟩ := Option.bind_eq_some_iff.mp readWhere
    obtain ⟨split, isWhere⟩ := token_eq_some readWord
    rcases front with _ | ⟨tree, front⟩
    · cases split
    · obtain ⟨rfl, rfl⟩ := List.cons.inj split
      have long : (word "where" *> commaSeparated (genericCondition (ofDepth depth)))
          (stop.long (.leaf token :: front)) = some (value, stop.there :: stop.rest) := by
        change ((word "where") (.leaf token :: stop.long front)).bind _ = _
        rw [word, Parser.token, if_pos isWhere]
        exact conditions.reaches readList
      rw [long]
      rfl
  · obtain ⟨rfl, here⟩ := Prod.mk.inj (Option.some.inj readMaybe)
    obtain rfl := Stop.short_eq_here here
    rfl

end Conditions

end Grammar

end ProgramIdl.Syntax
