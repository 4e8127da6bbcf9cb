import ProgramIdl.Proofs.Syntax.Agreement.Type
import ProgramIdl.Proofs.Syntax.Steady
import ProgramIdl.Syntax.Grammar.Item

/-!
# Types in front of a block

The rules for types are steady in front of a block in braces: a type does not reach into the block,
unless it is the call of a macro that takes the block for its arguments.
-/

set_option autoImplicit false

namespace ProgramIdl.Syntax

open ProgramIdl.Syntax.Parser

variable {α β : Type} {stop : Stop} {passing : Bool}

namespace Parser

/-! ## Progress -/

section Progress

variable {parser other : Parser α} {next : α → Parser β}

/-- A token is the first tree. -/
theorem token_eq_some {condition : Tree → Bool} {trees left : List Tree} {found : Token}
    (read : token condition trees = some (found, left)) :
    trees = .leaf found :: left ∧ condition (.leaf found) = true := by
  cases trees with
  | nil => cases read
  | cons tree rest =>
      cases tree with
      | group _ _ _ _ => cases read
      | leaf first =>
          rw [token] at read
          split at read
          · rename_i accepted
            obtain ⟨rfl, rfl⟩ := Prod.mk.inj (Option.some.inj read)
            exact ⟨rfl, accepted⟩
          · cases read

theorem progresses_token (condition : Tree → Bool) : Progresses (token condition) := by
  intro trees found left read
  obtain ⟨rfl, _⟩ := token_eq_some read
  exact Nat.lt_succ_self _

theorem Progresses.bind (first : Progresses parser) (second : ∀ value, Settles (next value)) :
    Progresses (parser >>= next) := by
  intro trees value left read
  obtain ⟨⟨middle, between⟩, readFirst, readSecond⟩ := Option.bind_eq_some_iff.mp read
  obtain ⟨taken, rfl, _⟩ := second _ _ _ _ readSecond
  have shorter := first _ _ _ readFirst
  rw [List.length_append] at shorter
  omega

theorem Progresses.orElse (first : Progresses parser) (second : Progresses other) :
    Progresses (parser <|> other) := by
  intro trees value left read
  change (parser trees).orElse (fun _ => other trees) = _ at read
  cases found : parser trees with
  | none =>
      rw [found] at read
      exact second _ _ _ read
  | some result =>
      rw [found] at read
      obtain rfl := Option.some.inj read
      exact first _ _ _ found

theorem progresses_symbol {spelling : String} (some_ : spelling ≠ "") :
    Progresses (symbol spelling) := by
  intro trees value left read
  rw [symbol] at read
  split at read
  · rename_i starts
    obtain ⟨rfl, rfl⟩ := Prod.mk.inj (Option.some.inj read)
    have length : 0 < spelling.length := by
      rw [← String.length_toList]
      exact List.length_pos_iff.mpr (by simpa using some_)
    cases trees with
    | nil =>
        cases spelled : spelling.toList with
        | nil => simp_all
        | cons c rest => simp [spelled, startsWithSymbol] at starts
    | cons tree rest =>
        rw [List.length_drop, List.length_cons]
        omega
  · cases read

end Progress

/-! ## Symbols, groups and angle brackets -/

/-- A symbol is steady if its marks are settled. -/
theorem steady_symbol {spelling : String}
    (settled : ∀ trees, startsWithSymbol spelling.toList trees = true →
      Settled (trees.take spelling.length)) : SteadyBefore stop passing (symbol spelling) where
  settles trees value left read := by
    rw [symbol] at read
    split at read
    · rename_i starts
      obtain ⟨rfl, rfl⟩ := Prod.mk.inj (Option.some.inj read)
      exact ⟨_, (List.take_append_drop _ _).symm, settled trees starts⟩
    · cases read
  continues front closed := by
    obtain ⟨same, within⟩ := @startsWithSymbol_front stop spelling.toList front
    rw [symbol, symbol, ← same]
    split
    · rename_i starts
      have enough := within starts
      rw [String.length_toList] at enough
      rw [Stop.short, Stop.long, List.drop_append_of_le_length enough,
        List.drop_append_of_le_length enough]
      refine .within (@AnglesClosed.behind (front.take spelling.length) _ ?_)
      rwa [List.take_append_drop]
    · exact .failed

theorem settled_pair {first second : Tree} (quiet : first.isQuiet = true)
    (quiet' : second.isQuiet = true) : Settled [first, second] :=
  (settled_quiet quiet).append (settled_quiet quiet')

theorem steady_colons : SteadyBefore stop passing (symbol "::") := by
  refine steady_symbol fun trees starts => ?_
  match trees with
  | [] | [_] => simp [startsWithSymbol] at starts
  | first :: second :: rest =>
      have marks : first.isMark ':' = true ∧ second.first.isJoint = true ∧
          second.isMark ':' = true := by simpa using starts
      exact settled_pair (isQuiet_of_isMark marks.1 (by decide))
        (isQuiet_of_isMark marks.2.2 (by decide))

theorem steady_arrow : SteadyBefore stop passing (symbol "->") := by
  refine steady_symbol fun trees starts => ?_
  match trees with
  | [] | [_] => simp [startsWithSymbol] at starts
  | first :: second :: rest =>
      have marks : first.isMark '-' = true ∧ second.first.isJoint = true ∧
          second.isMark '>' = true := by simpa using starts
      exact settled_arrow marks.1 marks.2.2 marks.2.1

theorem isQuiet_group (delimiter : Delimiter) (opening closing : Token) (inner : List Tree) :
    (Tree.group delimiter opening inner closing).isQuiet = true :=
  rfl

theorem inside_eq_some {delimiter : Delimiter} {parser : Parser α} {trees left : List Tree} {value : α}
    (read : inside delimiter parser trees = some (value, left)) :
    ∃ opening inner closing, trees = .group delimiter opening inner closing :: left := by
  cases trees with
  | nil => cases read
  | cons tree rest =>
      cases tree with
      | leaf _ => cases read
      | group other opening inner closing =>
          rw [inside] at read
          split at read
          · rename_i same
            obtain ⟨_, _, same⟩ := Option.map_eq_some_iff.mp read
            obtain ⟨rfl, rfl⟩ := Prod.mk.inj same
            exact ⟨opening, inner, closing, by rw [‹other = delimiter›]⟩
          · cases read

theorem settles_inside (delimiter : Delimiter) (parser : Parser α) :
    Settles (inside delimiter parser) := by
  intro trees value left read
  obtain ⟨opening, inner, closing, rfl⟩ := inside_eq_some read
  exact ⟨[_], rfl, settled_quiet (isQuiet_group delimiter opening closing inner)⟩

/-- A group with other delimiters is another group. -/
theorem steady_inside {delimiter : Delimiter} (differ : delimiter ≠ stop.delimiter)
    (parser : Parser α) : SteadyBefore stop passing (inside delimiter parser) where
  settles := settles_inside delimiter parser
  continues front closed := by
    cases front with
    | nil =>
        simp only [Stop.short_nil, Stop.long_nil, Stop.here, Stop.there, inside, if_neg differ.symm]
        exact .failed
    | cons tree front =>
        cases tree with
        | leaf _ => exact .failed
        | group other opening inner closing =>
            simp only [Stop.short_cons, Stop.long_cons, inside]
            split
            · cases all parser inner with
              | none => exact .failed
              | some value => exact .within closed.tail
            · exact .failed

/-- The same group is read the same. -/
theorem steady_inside_same {delimiter : Delimiter} (same : stop.inner = stop.inner')
    (parser : Parser α) : SteadyBefore stop true (inside delimiter parser) where
  settles := settles_inside delimiter parser
  continues front closed := by
    cases front with
    | nil =>
        simp only [Stop.short_nil, Stop.long_nil, Stop.here, Stop.there, inside, same]
        split
        · cases all parser stop.inner' with
          | none => exact .failed
          | some value => exact .past rfl
        · exact .failed
    | cons tree front =>
        cases tree with
        | leaf _ => exact .failed
        | group other opening inner closing =>
            simp only [Stop.short_cons, Stop.long_cons, inside]
            split
            · cases all parser inner with
              | none => exact .failed
              | some value => exact .within closed.tail
            · exact .failed

theorem steady_anyGroup : SteadyBefore stop true anyGroup where
  settles := by
    intro trees value left read
    cases trees with
    | nil => cases read
    | cons tree rest =>
        cases tree with
        | leaf _ => cases read
        | group other opening inner closing =>
            obtain ⟨rfl, rfl⟩ := Prod.mk.inj (Option.some.inj read)
            exact ⟨[_], rfl, settled_quiet (isQuiet_group other opening closing inner)⟩
  continues front closed := by
    cases front with
    | nil => exact .past rfl
    | cons tree front =>
        cases tree with
        | leaf _ => exact .failed
        | group _ _ _ _ => exact .within closed.tail

theorem settles_angles : Settles angles := by
  intro trees value left read
  cases trees with
  | nil => cases read
  | cons tree rest =>
      rw [angles] at read
      split at read
      · rename_i opens
        obtain ⟨behind, found, same⟩ := Option.map_eq_some_iff.mp read
        obtain ⟨rfl, rfl⟩ := Prod.mk.inj same
        obtain ⟨taken, rfl, ends⟩ := exists_of_closeAngles found
        exact ⟨tree :: taken, rfl, settled_angles opens ends (anglesClosed_of_closeAngles ends)⟩
      · cases read

/-- Open brackets in front of the group are closed there. -/
theorem steady_angles : SteadyBefore stop passing angles where
  settles := settles_angles
  continues front closed := by
    cases front with
    | nil => exact .failed
    | cons tree front =>
        simp only [Stop.short_cons, Stop.long_cons, angles]
        split
        · rename_i opens
          obtain ⟨left, ends⟩ := closed [] tree front rfl opens
          obtain ⟨taken, rfl, _⟩ := exists_of_closeAngles ends
          simp only [Stop.short, Stop.long, closeAngles_append ends, Option.map_some]
          exact .within (@AnglesClosed.behind (tree :: taken) _ closed)
        · exact .failed

theorem progresses_angles : Progresses angles := by
  intro trees value left read
  cases trees with
  | nil => cases read
  | cons tree rest =>
      rw [angles] at read
      split at read
      · obtain ⟨behind, found, same⟩ := Option.map_eq_some_iff.mp read
        obtain ⟨rfl, rfl⟩ := Prod.mk.inj same
        obtain ⟨taken, rfl, _⟩ := exists_of_closeAngles found
        simp only [List.length_cons, List.length_append]
        omega
      · cases read

end Parser

namespace Grammar

variable {g : Grammar}

/-! ## Paths and macro calls -/

theorem steady_furtherSegments : SteadyBefore stop passing furtherSegments := by
  have one : SteadyBefore stop false (symbol "::" *> (skip segment <|> angles)) :=
    steady_colons.bind fun _ => steady_segment.skip.orElse steady_angles
  have progresses : Progresses (symbol "::" *> (skip segment <|> angles)) :=
    (progresses_symbol (by decide)).bind fun _ =>
      ((@steady_segment stop false).skip.orElse steady_angles).settles
  exact (one.many progresses).skip.passed

theorem steady_plainPath : SteadyBefore stop passing plainPath :=
  steady_colons.maybe.bind fun _ => steady_segment.bind fun _ => steady_furtherSegments

theorem steady_macroArguments : SteadyBefore stop true macroArguments :=
  (steady_mark (by decide)).bind fun _ => steady_anyGroup.thenPure fun group => sourceText [group]

theorem steady_macroCallAt (start line : Nat) : SteadyBefore stop true (macroCallAt start line) :=
  steady_plainPath.withText.bind fun read =>
    steady_macroArguments.thenPure fun arguments => Fragment.macroCall read.2 arguments start line

/-- No macro call starts with a group. -/
theorem macroCall_group (delimiter : Delimiter) (opening closing : Token) (inner rest : List Tree) :
    macroCall (.group delimiter opening inner closing :: rest) = none := by
  rw [macroCall_cons, macroCallAt_of_failed rfl, ite_self]

theorem steady_macroCall : SteadyBefore stop true macroCall where
  settles := by
    intro trees value left read
    cases trees with
    | nil => cases read
    | cons tree rest =>
        rw [macroCall_cons] at read
        split at read
        · cases read
        · exact (@steady_macroCallAt stop _ _).settles _ _ _ read
  continues front closed := by
    cases front with
    | nil =>
        rw [Stop.short_nil, Stop.long_nil, Stop.here, Stop.there, macroCall_group, macroCall_group]
        exact .failed
    | cons tree front =>
        rw [Stop.short_cons, Stop.long_cons, macroCall_cons, macroCall_cons]
        split
        · exact .failed
        · exact (steady_macroCallAt _ _).continues (tree :: front) closed

/-! ## Types -/

theorem closeAngles_tip {tip : Tree} (closes : tip.isMark '>' = true) (rest : List Tree) :
    closeAngles 0 false (tip :: rest) = some rest := by
  simp [closeAngles, closes, Tree.isMark_other closes (show '>' ≠ '<' by decide)]

/-- What is read between angle brackets does not reach the group: its own brackets are closed, and so
the bracket in front of it would stay open. -/
theorem steady_enclosed {parser : Parser α} (inner : SteadyBefore stop true parser) :
    SteadyBefore stop false (mark '<' >>= fun _ => parser >>= fun _ => skip (mark '>')) where
  settles := by
    intro trees value left read
    obtain ⟨⟨opening, _⟩, readOpening, readMore⟩ := Option.bind_eq_some_iff.mp read
    obtain ⟨rfl, opens⟩ := token_eq_some readOpening
    obtain ⟨⟨_, _⟩, readInner, readClosing⟩ := Option.bind_eq_some_iff.mp readMore
    obtain ⟨taken, rfl, settled⟩ := inner.settles _ _ _ readInner
    obtain ⟨⟨closing, _⟩, readTip, same⟩ := Option.bind_eq_some_iff.mp readClosing
    obtain ⟨rfl, closes⟩ := token_eq_some readTip
    obtain ⟨_, rfl⟩ := Prod.mk.inj (Option.some.inj same)
    refine ⟨.leaf opening :: (taken ++ [.leaf closing]), by simp, settled_angles opens ?_ ?_⟩
    · rw [settled.passed, Bool.false_and, closeAngles_tip closes]
    · exact settled.closed.append <| anglesClosed_of_unopened fun tree listed => by
        obtain rfl := List.mem_singleton.mp listed
        exact Tree.isMark_other closes (by decide)
  continues front closed := by
    have opening := @continues_token stop false (Tree.isMark '<') front closed
    change Continued stop false ((token (Tree.isMark '<') (stop.short front)).bind _)
      ((token (Tree.isMark '<') (stop.long front)).bind _)
    generalize read : token (Tree.isMark '<') (stop.short front) = result at opening ⊢
    generalize token (Tree.isMark '<') (stop.long front) = result' at opening ⊢
    cases opening with
    | failed => exact .failed
    | past passes => cases passes
    | @within found behind closedBehind =>
        obtain ⟨split, opens⟩ := token_eq_some read
        rw [← Stop.short_cons] at split
        obtain rfl := List.append_cancel_right split
        have continued := inner.continues behind closedBehind
        change Continued stop false ((parser (stop.short behind)).bind _)
          ((parser (stop.long behind)).bind _)
        generalize readInner : parser (stop.short behind) = middle at continued ⊢
        generalize parser (stop.long behind) = middle' at continued ⊢
        cases continued with
        | failed => exact .failed
        | within closedMore =>
            have closing := @continues_token stop false (Tree.isMark '>') _ closedMore
            change Continued stop false ((token (Tree.isMark '>') _).bind _)
              ((token (Tree.isMark '>') _).bind _)
            generalize token (Tree.isMark '>') (stop.short _) = last at closing ⊢
            generalize token (Tree.isMark '>') (stop.long _) = last' at closing ⊢
            cases closing with
            | failed => exact .failed
            | within closed => exact .within closed
            | past passes => cases passes
        | past _ =>
            obtain ⟨taken, split, settled⟩ := inner.settles _ _ _ readInner
            obtain ⟨left, ends⟩ := closed [] _ behind rfl opens
            have open_ := settled.passed 0 false []
            rw [← split, Stop.short, closeAngles_append ends] at open_
            cases open_

section Types

variable (braces : stop.delimiter = .brace) (types : SteadyBefore stop true g.type)

include types

/-- The type that a path starts from ends in front of the group, since its bracket is closed
there. -/
theorem steady_startingType : SteadyBefore stop false (startingType g) := by
  have inner : SteadyBefore stop true (g.type >>= fun _ => maybe (word "as" *> g.type)) :=
    types.bindTotal (fun _ => ((steady_word "as").bind fun _ => types).maybe) fun _ => total_maybe _
  have enclosed := steady_enclosed inner
  simp only [bind_assoc] at enclosed
  exact enclosed

theorem steady_resultType : SteadyBefore stop true (resultType g) := by
  refine steady_ahead (overlooks_symbol _) fun answer => .ite ?_ (steady_pure _)
  exact steady_arrow.bind fun _ => types

include braces

theorem steady_typeArguments : SteadyBefore stop true (typeArguments g) := by
  refine steady_ahead (overlooks_isMark _) fun answer => .ite ?_ ?_
  · exact steady_angles.bind fun _ => steady_pure _
  · refine (steady_inside (by simp [braces]) _).bind fun parameters => ?_
    exact (steady_resultType types).thenPure fun result => parameters.flatten ++ result

theorem steady_pathTypeSegments : SteadyBefore stop true (pathTypeSegments g) := by
  have arguments := (steady_typeArguments braces types).maybe
  refine steady_segment.bind fun _ => arguments.bindTotal (fun first => ?_) fun _ => ?_
  · have one : SteadyBefore stop true (do
        symbol "::"
        let _ ← maybe segment
        return (← maybe (typeArguments g)).getD []) :=
      steady_colons.bind fun _ => steady_segment.maybe.bind fun _ => arguments.thenPure _
    refine (one.many ?_).thenPure fun more => first.getD [] ++ more.flatten
    exact (progresses_symbol (by decide)).bind fun _ =>
      (@steady_segment stop false).settles.maybe.bind fun _ =>
        arguments.settles.bind fun _ => settles_pure _
  · exact (total_many _).bind fun _ => total_pure _

theorem steady_pathType : SteadyBefore stop true (pathType g) := by
  have segments := steady_pathTypeSegments braces types
  refine steady_macroCall.maybeCases (fun fragment => ⟨_, rfl⟩) ?_
  refine steady_ahead (overlooks_isMark _) fun answer => .ite ?_ ?_
  · exact (steady_startingType types).bind fun _ => steady_colons.bind fun _ => segments
  · exact steady_colons.maybe.bind fun _ => segments

theorem steady_bound : SteadyBefore stop true (Grammar.bound g) := by
  refine steady_ahead (overlooks_isKind _) fun answer => .ite ?_ ?_
  · exact steady_lifetime.bind fun _ => steady_pure _
  · have marked {c : Char} (quiet : c ∉ ['<', '>', ';', '-']) : SteadyBefore stop false (skip (mark c)) :=
      (steady_mark quiet).skip
    have skipped (name : String) : SteadyBefore stop false (skip (word name)) := (steady_word name).skip
    have angled (name : String) : SteadyBefore stop false (word name *> angles) :=
      (steady_word name).bind fun _ => steady_angles
    have modifiers := (marked (c := '?') (by decide)).orElse <|
      (marked (c := '~') (by decide)).orElse <| (skipped "const").orElse <|
        (skipped "async").orElse <| (angled "for").orElse (angled "use")
    have progresses (condition : Tree → Bool) : Progresses (skip (token condition)) :=
      (progresses_token condition).bind fun _ => settles_pure _
    have angledProgresses (name : String) : Progresses (word name *> angles) :=
      (progresses_token _).bind fun _ => settles_angles
    have repeated := modifiers.many <| (progresses _).orElse <| (progresses _).orElse <|
      (progresses _).orElse <| (progresses _).orElse <|
        (angledProgresses "for").orElse (angledProgresses "use")
    refine repeated.bind fun _ => steady_ahead (overlooks_isGroup _) fun answer => .ite ?_ ?_
    · exact steady_inside (by simp [braces]) _
    · exact steady_pathType braces types

theorem steady_bounds : SteadyBefore stop true (bounds g) := by
  have one := steady_bound braces types
  have plus : SteadyBefore stop false (mark '+') := steady_mark (by decide)
  refine one.bindTotal (fun first => ?_) fun _ => ?_
  · have more := (plus.bind fun _ => one).many <|
      (progresses_token _).bind fun _ => one.settles
    refine more.bindTotal (fun _ => plus.passed.maybe.thenPure _) fun _ => ?_
    exact (total_maybe _).bind fun _ => total_pure _
  · exact (total_many _).bind fun _ => (total_maybe _).bind fun _ => total_pure _

theorem steady_pointerType : SteadyBefore stop true (pointerType g) := by
  have qualifier := (@steady_word stop false "unsafe").skip.orElse <|
    (steady_word "extern").bind fun _ => steady_literal.maybe.skip
  have progresses : Progresses
      (skip (word "unsafe") <|> (word "extern" *> skip (maybe literal))) :=
    ((progresses_token _).bind fun _ => settles_pure _).orElse <|
      (progresses_token _).bind fun _ =>
        (@steady_literal stop false).maybe.skip.settles
  refine (qualifier.many progresses).bind fun _ => (steady_word _).bind fun _ => ?_
  refine (steady_inside (by simp [braces]) _).bind fun parameters => ?_
  exact (steady_resultType types).thenPure fun result => parameters.flatten ++ result

theorem steady_typeRule : SteadyBefore stop true (typeRule g) := by
  have mark {c : Char} (quiet : c ∉ ['<', '>', ';', '-']) : SteadyBefore stop false (mark c) :=
    steady_mark quiet
  refine steady_get_ite (overlooks_isMark _) (steady_get ?_) ?_
  · exact (mark (by decide)).bind fun _ => steady_lifetime.maybe.bind fun _ =>
      (steady_word _).maybe.bind fun _ => types
  refine steady_get_ite (overlooks_isMark _) (steady_get ?_) ?_
  · refine (mark (by decide)).bind fun _ => ?_
    exact ((steady_word _).skip.orElse (steady_word _).skip).bind fun _ => types
  refine steady_get_ite (overlooks_isMark _) (steady_get ?_) ?_
  · exact (mark (by decide)).bind fun _ => steady_pure _
  refine steady_get_ite (overlooks_isGroup _) (steady_get ?_) ?_
  · exact (steady_inside (by simp [braces]) _).bind fun _ => steady_pure _
  refine steady_get_ite (overlooks_isGroup _) (steady_get ?_) ?_
  · exact steady_inside (by simp [braces]) _
  refine steady_get_ite (overlooks_isWord _) (steady_get ?_) ?_
  · exact steady_anyWord.bind fun _ => steady_bounds braces types
  refine steady_get_ite (overlooks_isWord _) (steady_get ?_) ?_
  · exact (steady_word _).bind fun _ => steady_angles.bind fun _ => types
  refine steady_get_ite (overlooks_isWord _) (steady_get ?_) ?_
  · exact steady_pointerType braces types
  refine steady_get_ite (overlooks_isWord _) (steady_get ?_) ?_
  · exact steady_anyWord.bind fun _ => steady_pure _
  exact steady_get (steady_pathType braces types)

end Types

theorem steady_type (braces : stop.delimiter = .brace) (depth : Nat) :
    SteadyBefore stop true (ofDepth depth).type := by
  induction depth with
  | zero => exact steady_failure
  | succ depth inductionHypothesis => exact steady_typeRule braces inductionHypothesis

end Grammar

end ProgramIdl.Syntax
