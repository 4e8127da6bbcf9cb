import ProgramIdl.Proofs.Syntax.Agreement.Expression
import ProgramIdl.Proofs.Syntax.Chains.Type

/-!
# Chains in expressions and statements

An operand is a chain (`operand_yields`), and so is a statement or the value of a match arm that goes
on behind a block.  The other rules put the chains of their parts one behind the other.
-/

set_option autoImplicit false

namespace ProgramIdl.Syntax

open ProgramIdl.Syntax.Parser

namespace Grammar

variable {whole start left rest : List Tree} {g : Grammar} (reads : g.ReadsChains)

include reads

/-! ## Parts of expressions -/

theorem block_yields : Yields whole (Chained whole) (block g) :=
  (reads.statements whole).inside

theorem argument_yields : Yields whole (fun read => Chained whole read.2) (argument g) := by
  refine attributes_yields.bind fun _ _ => ?_
  exact (reads.expression whole true).withText.bind fun _ chained => yields_pure chained

theorem maybeExpression_yields (structs : Bool) :
    Yields whole (Chained whole) (maybeExpression g structs) := by
  refine yields_ahead fun _ => .ite ?_ (yields_pure chained_nil)
  exact (reads.expression whole structs).bind fun _ chained => yields_pure chained

theorem operations_yields (structs : Bool) {expression : Expression}
    (chained : Chained whole expression.fragments) :
    Yields whole (fun expression => Chained whole expression.fragments)
      (operations g structs expression) := by
  refine (yields_word.seqRight (reads.type whole)).many.bind fun casts castsChained => ?_
  have front := chained.append (chained_flatten castsChained)
  refine yields_get fun trees => ?_
  split
  · exact .ite (yields_pure chained) (yields_pure front)
  · rename_i operator _
    refine yields_symbol.bind fun _ _ => ?_
    refine .ite ?_ ?_
    · exact (maybeExpression_yields reads structs).bind fun _ more => yields_pure (front.append more)
    · have right := (reads.expression whole structs).map fun _ chained => chained
      exact right.bind fun _ more => yields_pure (front.append more)

/-! ## Chains -/

/-- The calls of what is read behind a block or a macro call are those of a chain. -/
theorem blockChain_chained {depth : Nat} {fragments : List Fragment} {expression : Expression}
    (stands : StandsIn whole start) (suffix : left <:+ start)
    (root : ReadsRoot (ofDepth depth) start fragments left) (inRoot : Chained whole fragments)
    (read : blockChain g start fragments left = some (expression, rest)) :
    rest <:+ left ∧ Chained whole expression.fragments := by
  obtain ⟨_, isOfDepth⟩ := reads.isOfDepth
  obtain ⟨⟨chain, middle⟩, linksRead, operationsRead⟩ := Option.bind_eq_some_iff.mp read
  obtain ⟨behind, chained⟩ := links_chained (argument_yields reads) (reads.expression whole true)
    isOfDepth stands suffix root inRoot linksRead
  obtain ⟨further, result⟩ := operations_yields reads true chained _ _ _
    (stands.suffix (behind.trans suffix)) operationsRead
  exact ⟨further.trans behind, result⟩

/-! ## Expressions that end with a block -/

theorem readsRoot_blockLike {fragments : List Fragment} (blockLike : startsBlockLike start = true)
    (read : g.blockLike start = some (fragments, rest)) :
    ∃ depth, ReadsRoot (ofDepth depth) start fragments rest := by
  obtain ⟨depth, rfl⟩ := reads.isOfDepth
  cases depth with
  | zero => cases read
  | succ depth =>
      refine ⟨depth, .inl ⟨true, ?_⟩⟩
      change (if startsBlockLike start then _ else _ : Parser _) start = _
      rw [if_pos blockLike]
      exact read

theorem armValue_yields : Yields whole (fun read => Chained whole read.1) (armValue g) := by
  intro trees value rest stands read
  change (if startsBlockLike trees then _ else _ : Parser _) trees = _ at read
  split at read
  · rename_i blockLike
    obtain ⟨⟨fragments, behind⟩, blockRead, result⟩ := Option.bind_eq_some_iff.mp read
    obtain ⟨suffix, inRoot⟩ := reads.blockLike whole _ _ _ stands blockRead
    change (if continuesChain behind then _ else _ : Parser _) behind = _ at result
    split at result
    · obtain ⟨⟨expression, left⟩, chainRead, same⟩ := Option.bind_eq_some_iff.mp result
      obtain ⟨rfl, rfl⟩ := Prod.mk.inj (Option.some.inj same)
      obtain ⟨depth, root⟩ := readsRoot_blockLike reads blockLike blockRead
      obtain ⟨further, chained⟩ := blockChain_chained reads stands suffix root inRoot chainRead
      exact ⟨further.trans suffix, chained⟩
    · obtain ⟨rfl, rfl⟩ := Prod.mk.inj (Option.some.inj result)
      exact ⟨suffix, inRoot⟩
  · have value := (reads.expression whole true).bind fun expression chained =>
      @yields_pure _ whole (fun read => Chained whole read.1) (expression.fragments, false) chained
    exact value _ _ _ stands read

theorem matchArm_yields : Yields whole (Chained whole) (matchArm g) := by
  refine yields_get fun _ => ?_
  refine attributes_yields.bind fun _ _ => ?_
  refine (Yields.withText (show Yields whole (Chained whole) _ from ?_)).bind fun _ front => ?_
  · refine (nestedPattern_yields reads).bind fun pattern chained => ?_
    refine (yields_word.seqRight (reads.expression whole true)).maybe.bind fun guard more => ?_
    cases guard with
    | some guard => exact yields_pure (chained.append (more guard rfl))
    | none => exact yields_pure chained
  refine yields_symbol.bind fun _ _ => ?_
  refine (armValue_yields reads).withText.bind fun _ back => ?_
  have fragments := front.append back
  have noCall {pattern value : String} {line : Nat} : (Fragment.arm pattern value line).NoCall := nofun
  refine .ite ?_ ?_
  · exact yields_mark.maybe.skip.bind fun _ _ => yields_pure (fragments.cons noCall)
  · exact yields_separator.bind fun _ _ => yields_pure (fragments.cons noCall)

theorem condition_yields : Yields whole (Chained whole) (condition g) :=
  (reads.expression whole false).bind fun _ chained => yields_pure chained

theorem conditional_yields : Yields whole (Chained whole) (conditional g) := by
  refine (condition_yields reads).bind fun _ condition => ?_
  refine (block_yields reads).bind fun _ body => ?_
  have front := condition.append body
  refine yields_ahead fun _ => .ite ?_ (yields_pure front)
  refine yields_word.bind fun _ _ => ?_
  refine yields_ahead fun _ => .ite ?_ ?_
  · exact (reads.blockLike whole).bind fun _ more => yields_pure (front.append more)
  · exact (block_yields reads).bind fun _ more => yields_pure (front.append more)

theorem blockLikeRule_yields : Yields whole (Chained whole) (blockLikeRule g) := by
  have block := @block_yields whole g reads
  have condition := @condition_yields whole g reads
  refine yields_get fun trees => ?_
  refine .ite ?_ (.ite ?_ (.ite ?_ (.ite ?_ (.ite ?_ (.ite ?_ (.ite ?_ (.ite ?_ ?_)))))))
  · exact block
  · refine yields_lifetime.bind fun _ _ => ?_
    exact yields_mark.bind fun _ _ => reads.blockLike whole
  · exact yields_word.bind fun _ _ => conditional_yields reads
  · refine yields_word.bind fun _ _ => ?_
    refine condition.bind fun _ scrutinee => ?_
    have arms := (@innerAttribute_yields whole g).many.bind fun _ _ => (matchArm_yields reads).many
    exact arms.inside.bind fun _ arms => yields_pure (scrutinee.append (chained_flatten arms))
  · refine yields_word.bind fun _ _ => ?_
    refine condition.bind fun _ front => ?_
    exact block.bind fun _ body => yields_pure (front.append body)
  · refine yields_word.bind fun _ _ => ?_
    refine (nestedPattern_yields reads).bind fun _ pattern => ?_
    refine yields_word.bind fun _ _ => ?_
    refine condition.bind fun _ values => ?_
    exact block.bind fun _ body => yields_pure ((pattern.append values).append body)
  · exact yields_anyWord.bind fun _ _ => block
  · refine yields_word.bind fun _ _ => ?_
    exact yields_word.maybe.bind fun _ _ => block
  · exact yields_failure

/-! ## Operands -/

theorem element_yields : Yields whole (fun expression => Chained whole expression.fragments)
    (attributes g *> g.expression true) :=
  attributes_yields.seqRight (reads.expression whole true)

theorem arrayElements_yields : Yields whole (Chained whole) (arrayElements g) := by
  have repeated := (@element_yields whole g reads).bind fun element first =>
    (@yields_mark whole ';').bind fun _ _ =>
      (reads.expression whole true).bind fun number second =>
        @yields_pure _ whole (fun parts => ∀ part ∈ parts, Chained whole part.fragments)
          [element, number] (by simp [first, second])
  refine repeated.maybe.bind fun found chained => ?_
  cases found with
  | some parts => exact yields_pure (chained_flatMap (chained parts rfl))
  | none =>
      exact (element_yields reads).commaSeparated.bind fun _ parts =>
        yields_pure (chained_flatMap parts)

theorem fieldValue_yields : Yields whole (Chained whole) (fieldValue g) := by
  refine attributes_yields.bind fun _ _ => ?_
  refine yields_ahead fun _ => .ite ?_ ?_
  · refine yields_symbol.bind fun _ _ => ?_
    refine (reads.expression whole true).maybe.bind fun base chained => ?_
    cases base with
    | some base => exact yields_pure (chained base rfl)
    | none => exact yields_pure chained_nil
  · refine (yields_anyWord.skip.orElse yields_literal.skip).bind fun _ _ => ?_
    refine (yields_mark.seqRight (reads.expression whole true)).maybe.bind fun value chained => ?_
    cases value with
    | some value => exact yields_pure (chained value rfl)
    | none => exact yields_pure chained_nil

theorem closureParameter_yields : Yields whole (Chained whole) (closureParameter g) := by
  refine attributes_yields.bind fun _ _ => ?_
  refine (reads.pattern whole).bind fun _ pattern => ?_
  refine (yields_mark.seqRight (reads.type whole)).maybe.bind fun type chained => ?_
  cases type with
  | some type => exact yields_pure (pattern.append (chained type rfl))
  | none => exact yields_pure pattern

theorem closure_yields (structs : Bool) : Yields whole (Chained whole) (closure g structs) := by
  refine yields_skipWhile.bind fun _ _ => ?_
  refine yields_mark.bind fun _ _ => ?_
  refine (closureParameter_yields reads).commaSeparated.bind fun _ parameters => ?_
  have front := chained_flatten parameters
  refine yields_mark.bind fun _ _ => ?_
  refine yields_ahead fun _ => .ite ?_ ?_
  · refine (resultType_yields reads).bind fun _ result => ?_
    exact (block_yields reads).bind fun _ body => yields_pure ((front.append result).append body)
  · exact (reads.expression whole structs).bind fun _ body => yields_pure (front.append body)

theorem pathExpression_yields (structs : Bool) :
    Yields whole (Chained whole) (pathExpression g structs) := by
  refine macroCall_yields.maybe.bind fun found noCall => ?_
  cases found with
  | some fragment => exact yields_pure (chained_nil.cons (noCall fragment rfl))
  | none =>
      refine (path_yields reads).bind fun _ _ => ?_
      refine yields_ahead fun _ => .ite ?_ (yields_pure chained_nil)
      exact (fieldValue_yields reads).commaSeparated.inside.bind fun _ fields =>
        yields_pure (chained_flatten fields)

theorem primary_yields (structs : Bool) : Yields whole (Chained whole) (primary g structs) := by
  have final := @maybeExpression_yields whole g reads structs
  refine yields_get fun trees => ?_
  refine .ite ?_ (.ite ?_ (.ite ?_ (.ite ?_ (.ite ?_ (.ite ?_ (.ite ?_ (.ite ?_ (.ite ?_ ?_))))))))
  · exact blockLikeRule_yields reads
  · exact closure_yields reads structs
  · exact yields_literal.bind fun _ _ => yields_pure chained_nil
  · exact (element_yields reads).commaSeparated.inside.bind fun _ parts =>
      yields_pure (chained_flatMap parts)
  · exact (arrayElements_yields reads).inside
  · exact yields_anyWord.bind fun _ _ => final
  · refine yields_word.bind fun _ _ => ?_
    exact yields_lifetime.maybe.bind fun _ _ => final
  · refine yields_word.bind fun _ _ => ?_
    exact yields_lifetime.maybe.bind fun _ _ => yields_pure chained_nil
  · refine yields_word.bind fun _ _ => ?_
    refine (nestedPattern_yields reads).bind fun _ pattern => ?_
    refine yields_mark.bind fun _ _ => ?_
    exact (reads.expression whole structs).bind fun _ value => yields_pure (pattern.append value)
  · exact pathExpression_yields reads structs

/-- An operand is a chain. -/
theorem operand_yields (structs : Bool) :
    Yields whole (fun expression => Chained whole expression.fragments) (operand g structs) := by
  intro trees expression rest stands read
  obtain ⟨⟨fragments, left⟩, primaryRead, linksRead⟩ := Option.bind_eq_some_iff.mp read
  obtain ⟨suffix, inRoot⟩ := primary_yields reads structs _ _ _ stands primaryRead
  obtain ⟨depth, isOfDepth⟩ := reads.isOfDepth
  obtain ⟨behind, chained⟩ := links_chained (argument_yields reads) (reads.expression whole true)
    isOfDepth stands suffix (.inl ⟨structs, isOfDepth ▸ primaryRead⟩) inRoot linksRead
  exact ⟨behind.trans suffix, chained⟩

/-! ## Whole expressions -/

omit reads in
theorem prefixOperators_yields : Yields whole Whatever prefixOperators := by
  have kind := (@yields_word whole "raw").seqRight
    ((@yields_word whole "const").orElse (@yields_word whole "mut"))
  have reference := (@yields_mark whole '&').seqRight
    (kind.skip.orElse (@yields_word whole "mut").maybe.skip)
  have operator := (@yields_mark whole '-').skip.orElse <| (@yields_mark whole '!').skip.orElse <|
    (@yields_mark whole '*').skip.orElse reference
  exact operator.many.bind fun _ _ => yields_pure trivial

theorem expressionRule_yields (structs : Bool) :
    Yields whole (fun expression => Chained whole expression.fragments)
      (expressionRule g structs) := by
  refine attributes_yields.bind fun _ _ => ?_
  refine prefixOperators_yields.bind fun _ _ => ?_
  refine yields_ahead fun _ => .ite ?_ ?_
  · refine yields_symbol.maybe.bind fun found _ => ?_
    cases found with
    | some _ =>
        exact (reads.expression whole structs).bind fun _ chained => yields_pure chained
    | none =>
        refine yields_symbol.bind fun _ _ => ?_
        exact (maybeExpression_yields reads structs).bind fun _ chained => yields_pure chained
  · refine (operand_yields reads structs).bind fun _ chained => ?_
    refine (operations_yields reads structs chained).bind fun _ chained => ?_
    exact .ite (yields_pure chained) (yields_pure chained)

/-! ## Statements -/

omit reads in
theorem bracedMacro_yields : Yields whole Fragment.NoCall bracedMacro := by
  refine macroCall_yields.bind fun fragment noCall => ?_
  cases fragment with
  | macroCall path arguments start line => exact .ite (yields_pure noCall) yields_failure
  | binding _ _ _ => exact yields_failure
  | call _ _ _ _ => exact yields_failure
  | arm _ _ _ => exact yields_failure

theorem behindOpening_chained {depth : Nat} {fragments result : List Fragment}
    (stands : StandsIn whole start) (suffix : left <:+ start)
    (root : ReadsRoot (ofDepth depth) start fragments left) (inRoot : Chained whole fragments)
    (read : behindOpening g start (some fragments) left = some (result, rest)) :
    rest <:+ left ∧ Chained whole result := by
  change (if continuesChain left then _ else _ : Parser _) left = _ at read
  split at read
  · obtain ⟨⟨expression, middle⟩, chainRead, behindChain⟩ := Option.bind_eq_some_iff.mp read
    obtain ⟨behind, chained⟩ := blockChain_chained reads stands suffix root inRoot chainRead
    have closing := (@yields_separator whole ';').bind fun _ _ =>
      @yields_pure _ whole (Chained whole) expression.fragments chained
    obtain ⟨further, result⟩ := closing _ _ _ (stands.suffix (behind.trans suffix)) behindChain
    exact ⟨further.trans behind, result⟩
  · obtain ⟨rfl, rfl⟩ := Prod.mk.inj (Option.some.inj read)
    exact ⟨List.suffix_refl _, inRoot⟩

theorem expressionStatement_yields : Yields whole (Chained whole) (expressionStatement g) := by
  intro trees result rest stands read
  obtain ⟨depth, isOfDepth⟩ := reads.isOfDepth
  change (if startsBlockLike trees then some <$> blockLikeRule g >>= behindOpening g trees
    else (maybe bracedMacro).map _ >>= behindOpening g trees : Parser _) trees = _ at read
  split at read
  · rename_i blockLike
    obtain ⟨⟨opening, left⟩, openingRead, behindRead⟩ := Option.bind_eq_some_iff.mp read
    obtain ⟨⟨fragments, left⟩, blockRead, same⟩ := Option.bind_eq_some_iff.mp openingRead
    obtain ⟨rfl, rfl⟩ := Prod.mk.inj (Option.some.inj same)
    obtain ⟨suffix, inRoot⟩ := blockLikeRule_yields reads _ _ _ stands blockRead
    have root : ReadsRoot (ofDepth depth) trees fragments left := by
      refine .inl ⟨true, ?_⟩
      change (if startsBlockLike trees then _ else _ : Parser _) trees = _
      rw [if_pos blockLike, ← isOfDepth]
      exact blockRead
    obtain ⟨further, chained⟩ := behindOpening_chained reads stands suffix root inRoot behindRead
    exact ⟨further.trans suffix, chained⟩
  · rw [openingMacro_apply] at read
    split at read
    · rename_i fragment left macroRead
      obtain ⟨suffix, noCall⟩ := bracedMacro_yields _ _ _ stands macroRead
      have root : ReadsRoot (ofDepth depth) trees [fragment] left := .inr ⟨fragment, macroRead, rfl⟩
      obtain ⟨further, chained⟩ := behindOpening_chained reads stands suffix root
        (chained_nil.cons noCall) read
      exact ⟨further.trans suffix, chained⟩
    · have statement : Yields whole (Chained whole) (behindOpening g trees none) :=
        (expressionRule_yields reads true).bind fun _ chained =>
          yields_separator.bind fun _ _ => yields_pure chained
      exact statement _ _ _ stands read

theorem letStatement_yields : Yields whole (Chained whole) (letStatement g) := by
  refine yields_word.bind fun _ _ => ?_
  refine yields_word.maybe.bind fun _ _ => ?_
  refine (nestedPattern_yields reads).bind fun pattern patternChained => ?_
  refine (yields_mark.seqRight (reads.type whole)).maybe.bind fun type typeChained => ?_
  refine (yields_mark.seqRight (reads.expression whole true).withText).maybe.bind
    fun value valueChained => ?_
  refine (yields_word.seqRight (block_yields reads)).maybe.bind fun otherwise otherwiseChained => ?_
  refine yields_mark.bind fun _ _ => ?_
  have front := patternChained.append (chained_getD typeChained)
  cases value with
  | none => exact yields_pure front
  | some read =>
      have fragments := (front.append (valueChained read rfl)).append (chained_getD otherwiseChained)
      obtain ⟨expression, text⟩ := read
      obtain ⟨binding, inPattern⟩ := pattern
      cases binding with
      | none => exact yields_pure fragments
      | some name => exact yields_pure (fragments.cons nofun)

end Grammar

end ProgramIdl.Syntax
