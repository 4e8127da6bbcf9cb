import ProgramIdl.Proofs.Declaration.Leaves
import ProgramIdl.Proofs.Syntax.Agreement.Type
import ProgramIdl.Proofs.Syntax.Chains.Reading

/-!
# Chains in types and patterns

The rules for types and patterns pass on the chains of what is nested in them.
-/

set_option autoImplicit false

namespace ProgramIdl.Syntax

open ProgramIdl.Syntax.Parser

/-! ## Grammars that read chains -/

/-- The content of a block that stands in some trees, and what the grammar reads of it. -/
structure BlockIn (whole inner : List Tree) (body : List Fragment) : Prop where
  stands : ∃ opening closing rest, StandsIn whole (.group .brace opening inner closing :: rest)
  read : ∃ depth, (Grammar.ofDepth depth).statements inner = some (body, [])

/-- The body of a function whose block stands in some trees. -/
def BodyIn (whole : List Tree) (body : List Fragment) : Prop :=
  ∃ inner, BlockIn whole inner body ∧ Chained inner body

/-- The functions of an item, those in modules included, have bodies that stand in some trees. -/
def Item.BodiesIn (whole : List Tree) (item : Item) : Prop :=
  ∀ depth annotations line, ∀ leaf ∈ itemLeaves depth annotations line item,
    ∀ body ∈ leaf.2.value.bodies, BodyIn whole body

structure ParsedItem.ReadIn (whole : List Tree) (parsed : ParsedItem) : Prop where
  fragments : Chained whole parsed.fragments
  bodies : parsed.item.BodiesIn whole

/-- Every call that a grammar reads is one of a chain that stands in the trees that are read. -/
structure Grammar.ReadsChains (g : Grammar) : Prop where
  isOfDepth : ∃ depth, g = Grammar.ofDepth depth
  type (whole : List Tree) : Yields whole (Chained whole) g.type
  pattern (whole : List Tree) :
    Yields whole (fun pattern => Chained whole pattern.fragments) g.pattern
  expression (whole : List Tree) (structs : Bool) :
    Yields whole (fun expression => Chained whole expression.fragments) (g.expression structs)
  blockLike (whole : List Tree) : Yields whole (Chained whole) g.blockLike
  statements (whole : List Tree) : Yields whole (Chained whole) g.statements
  items (whole : List Tree) :
    Yields whole (fun items => ∀ item ∈ items, item.value.ReadIn whole) g.items

namespace Grammar

variable {whole : List Tree} {g : Grammar}

/-! ## Attributes, paths and macro calls -/

theorem outerAttribute_yields : Yields whole Whatever (outerAttribute g) := by
  intro trees value rest _ read
  unfold outerAttribute at read
  split at read
  · split at read
    · obtain ⟨_, _, same⟩ := Option.map_eq_some_iff.mp read
      obtain ⟨rfl, rfl⟩ := Prod.mk.inj same
      exact ⟨List.suffix_append [_, _] _, trivial⟩
    · cases read
  · cases read

theorem innerAttribute_yields : Yields whole Whatever (innerAttribute g) := by
  intro trees value rest _ read
  unfold innerAttribute at read
  split at read
  · split at read
    · obtain ⟨_, _, same⟩ := Option.map_eq_some_iff.mp read
      obtain ⟨rfl, rfl⟩ := Prod.mk.inj same
      exact ⟨List.suffix_append [_, _, _] _, trivial⟩
    · cases read
  · cases read

theorem attributes_yields : Yields whole Whatever (attributes g) :=
  (outerAttribute_yields.orElse innerAttribute_yields).many.bind fun _ _ => yields_pure trivial

theorem furtherSegments_yields : Yields whole Whatever furtherSegments :=
  (yields_symbol.seqRight (yields_segment.skip.orElse yields_angles)).many.skip

theorem plainPath_yields : Yields whole Whatever plainPath := by
  refine yields_symbol.maybe.bind fun _ _ => ?_
  exact yields_segment.bind fun _ _ => furtherSegments_yields

theorem macroArguments_yields : Yields whole Whatever macroArguments := by
  refine yields_mark.bind fun _ _ => ?_
  exact yields_anyGroup.bind fun _ _ => yields_pure trivial

theorem macroCall_yields : Yields whole Fragment.NoCall macroCall := by
  refine yields_get fun trees => ?_
  cases trees with
  | nil => exact yields_failure
  | cons tree trees =>
      refine .ite yields_failure ?_
      refine plainPath_yields.withText.bind fun _ _ => ?_
      exact macroArguments_yields.bind fun _ _ => yields_pure nofun

section Nested

variable (reads : g.ReadsChains)

include reads

theorem startingType_yields : Yields whole Whatever (startingType g) := by
  refine yields_mark.bind fun _ _ => ?_
  refine (reads.type whole).bind fun _ _ => ?_
  refine (yields_word.seqRight (reads.type whole)).maybe.bind fun _ _ => ?_
  exact yields_mark.bind fun _ _ => yields_pure trivial

theorem path_yields : Yields whole Whatever (path g) := by
  refine yields_ahead fun _ => .ite ?_ plainPath_yields
  refine (startingType_yields reads).bind fun _ _ => ?_
  refine yields_symbol.bind fun _ _ => ?_
  exact yields_segment.bind fun _ _ => furtherSegments_yields

/-! ## Types -/

theorem arrayType_yields : Yields whole (Chained whole) (arrayType g) := by
  refine (reads.type whole).bind fun _ element => ?_
  refine (yields_mark.seqRight (reads.expression whole true)).maybe.bind fun length more => ?_
  cases length with
  | none => exact yields_pure element
  | some length => exact yields_pure (element.append (more length rfl))

theorem resultType_yields : Yields whole (Chained whole) (resultType g) :=
  yields_ahead fun _ =>
    .ite (yields_symbol.bind fun _ _ => reads.type whole) (yields_pure chained_nil)

theorem typeArguments_yields : Yields whole (Chained whole) (typeArguments g) := by
  refine yields_ahead fun _ => .ite ?_ ?_
  · exact yields_angles.bind fun _ _ => yields_pure chained_nil
  · refine (reads.type whole).commaSeparated.inside.bind fun _ types => ?_
    exact (resultType_yields reads).bind fun _ result =>
      yields_pure ((chained_flatten types).append result)

theorem pathTypeSegments_yields : Yields whole (Chained whole) (pathTypeSegments g) := by
  have arguments := (@typeArguments_yields whole g reads).maybe
  refine yields_segment.bind fun _ _ => ?_
  refine arguments.bind fun first firstChained => ?_
  have step := (@yields_symbol whole "::").bind fun _ _ =>
    (@yields_segment whole).maybe.bind fun _ _ =>
      arguments.bind fun found foundChained => yields_pure (chained_getD foundChained)
  refine step.many.bind fun more moreChained => ?_
  exact yields_pure ((chained_getD firstChained).append (chained_flatten moreChained))

theorem pathType_yields : Yields whole (Chained whole) (pathType g) := by
  have segments := @pathTypeSegments_yields whole g reads
  refine macroCall_yields.maybe.bind fun found noCall => ?_
  cases found with
  | some fragment => exact yields_pure (chained_nil.cons (noCall fragment rfl))
  | none =>
      refine yields_ahead fun _ => .ite ?_ ?_
      · refine (startingType_yields reads).bind fun _ _ => ?_
        exact yields_symbol.bind fun _ _ => segments
      · exact yields_symbol.maybe.bind fun _ _ => segments

theorem bound_yields : Yields whole (Chained whole) (bound g) := by
  refine yields_ahead fun _ => .ite ?_ ?_
  · exact yields_lifetime.bind fun _ _ => yields_pure chained_nil
  · have modifier := (@yields_mark whole '?').skip.orElse <| (@yields_mark whole '~').skip.orElse <|
      (@yields_word whole "const").skip.orElse <| (@yields_word whole "async").skip.orElse <|
        ((@yields_word whole "for").seqRight yields_angles).orElse
          ((@yields_word whole "use").seqRight yields_angles)
    refine modifier.many.bind fun _ _ => ?_
    exact yields_ahead fun _ => .ite (reads.type whole).inside (pathType_yields reads)

theorem bounds_yields : Yields whole (Chained whole) (bounds g) := by
  have one := @bound_yields whole g reads
  refine one.bind fun _ first => ?_
  refine (yields_mark.seqRight one).many.bind fun _ more => ?_
  exact yields_mark.maybe.bind fun _ _ => yields_pure (first.append (chained_flatten more))

theorem pointerParameter_yields : Yields whole (Chained whole) (pointerParameter g) := by
  refine attributes_yields.bind fun _ _ => ?_
  refine yields_ahead fun _ => .ite ?_ ?_
  · exact yields_symbol.bind fun _ _ => yields_pure chained_nil
  · have label : Yields whole Whatever (anyWord >>= fun _ => do
        if ← ahead (startsWithSymbol [':', ':']) then failure
        mark ':') := by
      refine yields_anyWord.bind fun _ _ => ?_
      refine yields_ahead fun _ => .ite ?_ yields_mark
      exact (@yields_failure _ whole Whatever).bind fun _ _ => yields_mark
    exact label.maybe.bind fun _ _ => reads.type whole

theorem pointerType_yields : Yields whole (Chained whole) (pointerType g) := by
  have qualifier := (@yields_word whole "unsafe").skip.orElse
    ((@yields_word whole "extern").seqRight yields_literal.maybe.skip)
  refine qualifier.many.bind fun _ _ => ?_
  refine yields_word.bind fun _ _ => ?_
  refine (pointerParameter_yields reads).commaSeparated.inside.bind fun _ parameters => ?_
  exact (resultType_yields reads).bind fun _ result =>
    yields_pure ((chained_flatten parameters).append result)

theorem typeRule_yields : Yields whole (Chained whole) (typeRule g) := by
  have type := reads.type whole
  refine yields_get fun trees => ?_
  refine .ite ?_ (.ite ?_ (.ite ?_ (.ite ?_ (.ite ?_ (.ite ?_ (.ite ?_ (.ite ?_ (.ite ?_ ?_))))))))
  · refine yields_mark.bind fun _ _ => ?_
    refine yields_lifetime.maybe.bind fun _ _ => ?_
    exact yields_word.maybe.bind fun _ _ => type
  · refine yields_mark.bind fun _ _ => ?_
    exact (yields_word.skip.orElse yields_word.skip).bind fun _ _ => type
  · exact yields_mark.bind fun _ _ => yields_pure chained_nil
  · exact type.commaSeparated.inside.bind fun _ types => yields_pure (chained_flatten types)
  · exact (arrayType_yields reads).inside
  · exact yields_anyWord.bind fun _ _ => bounds_yields reads
  · refine yields_word.bind fun _ _ => ?_
    exact yields_angles.bind fun _ _ => type
  · exact pointerType_yields reads
  · exact yields_anyWord.bind fun _ _ => yields_pure chained_nil
  · exact pathType_yields reads

/-! ## Patterns -/

theorem alternatives_yields {single : Parser Pattern}
    (one : Yields whole (fun pattern => Chained whole pattern.fragments) single) :
    Yields whole (fun pattern => Chained whole pattern.fragments) (alternatives g single) := by
  refine yields_mark.maybe.bind fun _ _ => ?_
  refine one.bind fun first firstChained => ?_
  refine (yields_mark.seqRight (reads.pattern whole)).many.bind fun more moreChained => ?_
  refine .ite (yields_pure firstChained) (yields_pure ?_)
  exact chained_flatMap (List.forall_mem_cons.mpr ⟨firstChained, moreChained⟩)

theorem nestedPattern_yields :
    Yields whole (fun pattern => Chained whole pattern.fragments) (nestedPattern g) :=
  alternatives_yields reads (reads.pattern whole)

theorem rangeEnd_yields : Yields whole Whatever (rangeEnd g) := by
  refine yields_mark.maybe.bind fun _ _ => ?_
  exact yields_literal.skip.orElse (path_yields reads)

theorem rangeTail_yields : Yields whole Whatever (rangeTail g) := by
  have finish := @rangeEnd_yields whole g reads
  exact ((yields_symbol.orElse yields_symbol).seqRight finish).orElse
    (yields_symbol.seqRight finish.maybe.skip)

theorem fieldPattern_yields :
    Yields whole (fun pattern => Chained whole pattern.fragments) (fieldPattern g) := by
  refine attributes_yields.bind fun _ _ => ?_
  refine yields_ahead fun _ => .ite ?_ ?_
  · exact yields_symbol.bind fun _ _ => yields_pure chained_nil
  · have label := (@yields_anyWord whole).skip.orElse yields_literal.skip
    have named := label.bind fun _ _ =>
      (@yields_mark whole ':').bind fun _ _ => nestedPattern_yields reads
    refine named.maybe.bind fun found chained => ?_
    cases found with
    | some pattern => exact yields_pure (chained pattern rfl)
    | none =>
        refine yields_word.maybe.bind fun _ _ => ?_
        refine yields_word.maybe.bind fun _ _ => ?_
        refine yields_word.maybe.bind fun _ _ => ?_
        exact yields_name.bind fun _ _ => yields_pure chained_nil

theorem behindPath_yields (binding : Option String) :
    Yields whole (fun pattern => Chained whole pattern.fragments) (behindPath g binding) := by
  refine yields_get fun trees => ?_
  refine .ite ?_ (.ite ?_ (.ite ?_ (.ite ?_ (yields_pure chained_nil))))
  · exact (nestedPattern_yields reads).commaSeparated.inside.bind fun _ fields =>
      yields_pure (chained_flatMap fields)
  · exact (fieldPattern_yields reads).commaSeparated.inside.bind fun _ fields =>
      yields_pure (chained_flatMap fields)
  · refine yields_mark.bind fun _ _ => ?_
    exact (reads.pattern whole).bind fun _ pattern => yields_pure pattern
  · exact (rangeTail_yields reads).bind fun _ _ => yields_pure chained_nil

theorem pathPattern_yields :
    Yields whole (fun pattern => Chained whole pattern.fragments) (pathPattern g) := by
  refine macroCall_yields.maybe.bind fun found noCall => ?_
  cases found with
  | some fragment => exact yields_pure (chained_nil.cons (noCall fragment rfl))
  | none =>
      refine yields_get fun start => ?_
      refine (path_yields reads).bind fun _ _ => ?_
      exact fun rest => behindPath_yields reads (pathBinding start rest) rest

theorem patternRule_yields :
    Yields whole (fun pattern => Chained whole pattern.fragments) (patternRule g) := by
  have nested := (@nestedPattern_yields whole g reads).commaSeparated
  have range := @rangeTail_yields whole g reads
  refine yields_get fun trees => ?_
  refine .ite ?_ (.ite ?_ (.ite ?_ (.ite ?_ (.ite ?_ (.ite ?_ (.ite ?_ (.ite ?_ ?_)))))))
  · refine yields_mark.bind fun _ _ => ?_
    refine yields_word.maybe.bind fun _ _ => ?_
    exact (reads.pattern whole).bind fun _ pattern => yields_pure pattern
  · exact nested.inside.bind fun _ parts => yields_pure (chained_flatMap parts)
  · exact nested.inside.bind fun _ parts => yields_pure (chained_flatMap parts)
  · refine yields_mark.maybe.bind fun _ _ => ?_
    refine yields_literal.bind fun _ _ => ?_
    exact range.maybe.bind fun _ _ => yields_pure chained_nil
  · exact range.bind fun _ _ => yields_pure chained_nil
  · refine yields_word.maybe.bind fun _ _ => ?_
    refine yields_word.maybe.bind fun _ _ => ?_
    refine yields_segment.bind fun _ _ => ?_
    refine (yields_mark.seqRight (reads.pattern whole)).maybe.bind fun found chained => ?_
    cases found with
    | some pattern => exact yields_pure (chained pattern rfl)
    | none => exact yields_pure chained_nil
  · refine yields_word.bind fun _ _ => ?_
    exact (reads.pattern whole).bind fun _ pattern => yields_pure pattern
  · refine yields_word.bind fun _ _ => ?_
    exact (reads.statements whole).inside.bind fun _ fragments => yields_pure fragments
  · exact pathPattern_yields reads

end Nested

end Grammar

end ProgramIdl.Syntax
