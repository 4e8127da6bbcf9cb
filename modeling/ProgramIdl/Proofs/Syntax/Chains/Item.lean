import ProgramIdl.Proofs.Syntax.Agreement.Item
import ProgramIdl.Proofs.Syntax.Chains.Expression

/-!
# Chains in function bodies

Whatever the items of a text are, each function body in them is read from a block of the text, and
every call in it is one of a chain that stands in that block (`bodyIn_of_itemsOfTrees`).
-/

set_option autoImplicit false

namespace ProgramIdl.Syntax

open ProgramIdl.Syntax.Parser

variable {whole : List Tree}

/-! ## Bodies of items -/

theorem Item.bodiesIn_of_single {item : Item} (single : ∀ items, item ≠ .module items)
    (bodies : ∀ body ∈ item.bodies, BodyIn whole body) : item.BodiesIn whole := by
  intro depth annotations line leaf listed body inside
  cases item with
  | module items => exact absurd rfl (single items)
  | _ =>
      obtain rfl := List.mem_singleton.mp listed
      exact bodies body inside

theorem bodyIn_of_leaves {items : List (Annotated ParsedItem)}
    (read : ∀ item ∈ items, item.value.ReadIn whole) (depth : Nat) :
    ∀ leaf ∈ leaves depth (Grammar.plainItems items), ∀ body ∈ leaf.2.value.bodies,
      BodyIn whole body := by
  induction items with
  | nil => nofun
  | cons item items inductionHypothesis =>
      obtain ⟨here, later⟩ := List.forall_mem_cons.mp read
      intro leaf listed
      rcases List.mem_append.mp listed with first | further
      · exact here.bodies depth item.annotations item.line leaf first
      · exact inductionHypothesis later leaf further

theorem ParsedItem.ReadIn.ofModule {items : List (Annotated ParsedItem)}
    (read : ∀ item ∈ items, item.value.ReadIn whole) :
    (⟨.module (Grammar.plainItems items), Grammar.itemFragments items⟩ : ParsedItem).ReadIn whole where
  fragments := chained_flatMap fun item listed => (read item listed).fragments
  bodies := fun depth _ _ => bodyIn_of_leaves read (depth + 1)

/-- An item without function bodies. -/
theorem ParsedItem.ReadIn.plain {item : Item} {fragments : List Fragment}
    (single : ∀ items, item ≠ .module items) (none : item.bodies = [])
    (chained : Chained whole fragments) : (⟨item, fragments⟩ : ParsedItem).ReadIn whole where
  fragments := chained
  bodies := Item.bodiesIn_of_single single (by rw [none]; nofun)

namespace Grammar

variable {g : Grammar}

/-! ## Annotations -/

theorem annotated_yields {α : Type} {wanted : α → Prop} {parser : Parser α}
    (yields : Yields whole wanted parser) (earlier : Annotations) :
    Yields whole (fun noted => wanted noted.value) (annotated g earlier parser) := by
  refine attributes_yields.bind fun _ _ => ?_
  refine yields_get fun trees => ?_
  cases trees with
  | nil => exact yields_failure
  | cons tree trees => exact yields.bind fun _ holds => yields_pure holds

theorem annotatedList_yields {α : Type} {wanted : α → Prop} {parser : Parser α}
    (yields : Yields whole wanted parser) :
    Yields whole (fun values => ∀ noted ∈ values, wanted noted.value)
      (annotatedList g parser) := by
  refine (annotated_yields yields []).maybe.bind fun found holds => ?_
  cases found with
  | none => exact yields_pure nofun
  | some first =>
      have one := (@yields_mark whole ',').bind fun comma _ =>
        @annotated_yields whole g α wanted parser yields comma.comments
      refine one.many.bind fun more rest => ?_
      refine yields_mark.maybe.bind fun _ _ => yields_pure ?_
      exact List.forall_mem_cons.mpr ⟨holds first rfl, rest⟩

/-! ## Parts of items -/

theorem visibility_yields : Yields whole Whatever visibility := by
  refine yields_word.maybe.bind fun found _ => ?_
  cases found with
  | none => exact yields_pure trivial
  | some _ =>
      have place := (@yields_word whole "crate").skip.orElse <|
        (@yields_word whole "self").skip.orElse <| (@yields_word whole "super").skip.orElse <|
          (@yields_word whole "in").seqRight plainPath_yields
      exact place.inside.maybe.skip

theorem generics_yields : Yields whole Whatever generics :=
  yields_angles.maybe.skip

section Nested

variable (reads : g.ReadsChains)

include reads

theorem boundsClause_yields : Yields whole Whatever (boundsClause g) :=
  (yields_mark.seqRight (bounds_yields reads).maybe).maybe.skip

theorem genericCondition_yields : Yields whole Whatever (genericCondition g) := by
  refine (yields_lifetime.skip.orElse (reads.type whole).skip).bind fun _ _ => ?_
  exact yields_mark.bind fun _ _ => (bounds_yields reads).maybe.skip

theorem whereClause_yields : Yields whole Whatever (whereClause g) :=
  (yields_word.seqRight (genericCondition_yields reads).commaSeparated).maybe.skip

theorem valueText_yields : Yields whole
    (fun found => ∀ value ∈ found, Chained whole value.1.fragments) (valueText g) :=
  (yields_mark.seqRight (reads.expression whole true).withText).maybe

theorem namedField_yields : Yields whole (fun read => Chained whole read.2) (namedField g) := by
  refine visibility_yields.bind fun _ _ => ?_
  refine yields_name.bind fun _ _ => ?_
  refine yields_mark.bind fun _ _ => ?_
  exact (reads.type whole).withText.bind fun _ chained => yields_pure chained

theorem namedFields_yields : Yields whole (fun read => Chained whole read.2) (namedFields g) :=
  (annotatedList_yields (namedField_yields reads)).inside.bind fun _ fields =>
    yields_pure (chained_flatMap fields)

theorem tupleFields_yields : Yields whole (Chained whole) (tupleFields g) := by
  have field := (@attributes_yields whole g).bind fun _ _ =>
    (@visibility_yields whole).bind fun _ _ => reads.type whole
  exact field.commaSeparated.inside.bind fun _ types => yields_pure (chained_flatten types)

omit reads in
theorem chained_value {found : Option (Expression × String)}
    (each : ∀ value ∈ found, Chained whole value.1.fragments) :
    Chained whole ((found.map fun value => value.1.fragments).getD []) := by
  cases found with
  | none => exact chained_nil
  | some value => exact each value rfl

theorem variantValue_yields (name : Token) {body : List Fragment} (chained : Chained whole body) :
    Yields whole (fun read => Chained whole read.2) (variantValue g name body) :=
  (valueText_yields reads).bind fun _ value => yields_pure (chained.append (chained_value value))

theorem variant_yields : Yields whole (fun read => Chained whole read.2) (variant g) := by
  refine visibility_yields.bind fun _ _ => ?_
  refine yields_name.bind fun name _ => ?_
  refine yields_ahead fun _ => yields_ahead fun _ => ?_
  refine .ite ?_ (.ite ?_ (variantValue_yields reads name chained_nil))
  · have fields := (@namedFields_yields whole g reads).map fun _ chained => chained
    exact fields.bind fun _ chained => variantValue_yields reads name chained
  · exact (tupleFields_yields reads).bind fun _ chained => variantValue_yields reads name chained

theorem parameter_yields : Yields whole (Chained whole) (parameter g) := by
  refine attributes_yields.bind fun _ _ => ?_
  have named : Yields whole (Chained whole) (nestedPattern g >>= fun pattern => do
      let _ ← mark ':'
      if ← ahead (startsWithSymbol ['.', '.', '.']) then
        symbol "..."
        return pattern.fragments
      else return pattern.fragments ++ (← g.type)) := by
    refine (nestedPattern_yields reads).bind fun _ pattern => ?_
    refine yields_mark.bind fun _ _ => ?_
    refine yields_ahead fun _ => .ite ?_ ?_
    · exact yields_symbol.bind fun _ _ => yields_pure pattern
    · exact (reads.type whole).bind fun _ type => yields_pure (pattern.append type)
  refine named.maybe.bind fun found chained => ?_
  cases found with
  | some fragments => exact yields_pure (chained fragments rfl)
  | none =>
      refine yields_ahead fun _ => .ite ?_ ?_
      · refine yields_word.bind fun _ _ => ?_
        exact yields_word.bind fun _ _ => yields_pure chained_nil
      · refine yields_ahead fun _ => .ite ?_ (reads.type whole)
        exact yields_symbol.bind fun _ _ => yields_pure chained_nil

/-! ## Items -/

theorem structRule_yields : Yields whole (ParsedItem.ReadIn whole) (structRule g) := by
  have condition := @whereClause_yields whole g reads
  refine yields_word.bind fun _ _ => ?_
  refine yields_name.bind fun _ _ => ?_
  refine generics_yields.bind fun _ _ => ?_
  refine condition.bind fun _ _ => ?_
  refine yields_ahead fun _ => .ite ?_ ?_
  · exact (namedFields_yields reads).bind fun _ fields => yields_pure (.plain nofun rfl fields)
  · refine yields_ahead fun _ => .ite ?_ ?_
    · refine (tupleFields_yields reads).bind fun _ fields => ?_
      refine condition.bind fun _ _ => ?_
      exact yields_mark.bind fun _ _ => yields_pure (.plain nofun rfl fields)
    · exact yields_mark.bind fun _ _ => yields_pure (.plain nofun rfl chained_nil)

theorem unionRule_yields : Yields whole (ParsedItem.ReadIn whole) (unionRule g) := by
  refine yields_word.bind fun _ _ => ?_
  refine yields_name.bind fun _ _ => ?_
  refine generics_yields.bind fun _ _ => ?_
  refine (whereClause_yields reads).bind fun _ _ => ?_
  exact (namedFields_yields reads).bind fun _ fields => yields_pure (.plain nofun rfl fields)

theorem enumRule_yields : Yields whole (ParsedItem.ReadIn whole) (enumRule g) := by
  refine yields_word.bind fun _ _ => ?_
  refine yields_name.bind fun _ _ => ?_
  refine generics_yields.bind fun _ _ => ?_
  refine (whereClause_yields reads).bind fun _ _ => ?_
  exact (annotatedList_yields (variant_yields reads)).inside.bind fun _ variants =>
    yields_pure (.plain nofun rfl (chained_flatMap variants))

theorem valueRule_yields : Yields whole (ParsedItem.ReadIn whole) (valueRule g) := by
  refine (yields_word.orElse yields_word).bind fun _ _ => ?_
  refine yields_word.maybe.bind fun _ _ => ?_
  refine yields_name.bind fun _ _ => ?_
  refine generics_yields.bind fun _ _ => ?_
  refine yields_mark.bind fun _ _ => ?_
  refine (reads.type whole).withText.bind fun _ type => ?_
  refine (valueText_yields reads).bind fun _ value => ?_
  refine yields_mark.bind fun _ _ => ?_
  have fragments := type.append (chained_value value)
  exact .ite (yields_pure (.plain nofun rfl fragments)) (yields_pure (.plain nofun rfl fragments))

/-- The body of a function is read from its own block. -/
theorem block_bodyIn :
    Yields whole (fun body => Chained whole body ∧ BodyIn whole body) (block g) := by
  intro trees body rest stands read
  obtain ⟨suffix, chained⟩ := block_yields reads _ _ _ stands read
  obtain ⟨opening, inner, closing, rfl, found⟩ := exists_of_inside read
  have within := (reads.statements inner _ _ _ .all found).2
  obtain ⟨depth, isOfDepth⟩ := reads.isOfDepth
  exact ⟨suffix, chained, inner, ⟨⟨opening, closing, rest, stands⟩, depth, isOfDepth ▸ found⟩, within⟩

theorem functionRule_yields : Yields whole (ParsedItem.ReadIn whole) (functionRule g) := by
  refine yields_skipWhile.bind fun _ _ => ?_
  refine yields_word.bind fun _ _ => ?_
  refine yields_name.bind fun _ _ => ?_
  refine generics_yields.bind fun _ _ => ?_
  refine (parameter_yields reads).commaSeparated.inside.bind fun _ parameters => ?_
  refine (resultType_yields reads).bind fun _ result => ?_
  have front := (chained_flatten parameters).append result
  refine (whereClause_yields reads).bind fun _ _ => ?_
  refine yields_ahead fun _ => .ite ?_ ?_
  · refine (block_bodyIn reads).bind fun body both => yields_pure ⟨front.append both.1, ?_⟩
    exact Item.bodiesIn_of_single nofun (List.forall_mem_singleton.mpr both.2)
  · exact yields_mark.bind fun _ _ => yields_pure (.plain nofun rfl front)

theorem itemBlock_yields :
    Yields whole (fun items => ∀ item ∈ items, item.value.ReadIn whole) (itemBlock g) :=
  (reads.items whole).inside

omit reads in
theorem itemFragments_chained {items : List (Annotated ParsedItem)}
    (read : ∀ item ∈ items, item.value.ReadIn whole) : Chained whole (itemFragments items) :=
  chained_flatMap fun item listed => (read item listed).fragments

omit reads in
theorem functionBodies_bodyIn {items : List (Annotated ParsedItem)}
    (read : ∀ item ∈ items, item.value.ReadIn whole) :
    ∀ body ∈ functionBodies items, BodyIn whole body := by
  intro body listed
  obtain ⟨⟨annotations, line, item, fragments⟩, member, found⟩ := List.mem_filterMap.mp listed
  cases item with
  | function name inner =>
      obtain rfl := Option.some.inj found
      exact (read _ member).bodies 0 [] 0 _ List.mem_cons_self _ List.mem_cons_self
  | _ => cases found

theorem implementationRule_yields :
    Yields whole (ParsedItem.ReadIn whole) (implementationRule g) := by
  refine yields_skipWhile.bind fun _ _ => ?_
  refine yields_word.bind fun _ _ => ?_
  refine generics_yields.bind fun _ _ => ?_
  refine yields_word.maybe.bind fun _ _ => ?_
  refine yields_mark.maybe.bind fun _ _ => ?_
  refine (reads.type whole).withText.bind fun _ first => ?_
  refine (yields_word.seqRight (reads.type whole).withText).maybe.bind fun second secondChained => ?_
  refine (whereClause_yields reads).bind fun _ _ => ?_
  refine (itemBlock_yields reads).bind fun items read => ?_
  have fragments := itemFragments_chained read
  have bodies := functionBodies_bodyIn read
  cases second with
  | some target =>
      refine yields_pure ⟨(first.append (secondChained target rfl)).append fragments, ?_⟩
      exact Item.bodiesIn_of_single nofun bodies
  | none =>
      exact yields_pure ⟨first.append fragments, Item.bodiesIn_of_single nofun bodies⟩

theorem traitRule_yields : Yields whole (ParsedItem.ReadIn whole) (traitRule g) := by
  refine yields_skipWhile.bind fun _ _ => ?_
  refine yields_word.bind fun _ _ => ?_
  refine yields_name.bind fun _ _ => ?_
  refine generics_yields.bind fun _ _ => ?_
  refine (boundsClause_yields reads).bind fun _ _ => ?_
  refine (whereClause_yields reads).bind fun _ _ => ?_
  refine yields_ahead fun _ => .ite ?_ ?_
  · refine yields_skipWhile.bind fun _ _ => ?_
    exact yields_mark.bind fun _ _ => yields_pure (.plain nofun rfl chained_nil)
  · exact (itemBlock_yields reads).bind fun _ read =>
      yields_pure (.plain nofun rfl (itemFragments_chained read))

theorem foreignRule_yields : Yields whole (ParsedItem.ReadIn whole) (foreignRule g) := by
  refine yields_word.maybe.bind fun _ _ => ?_
  refine yields_word.bind fun _ _ => ?_
  refine yields_ahead fun _ => .ite ?_ ?_
  · refine yields_word.bind fun _ _ => ?_
    refine yields_segment.bind fun _ _ => ?_
    refine (yields_word.seqRight yields_anyWord).maybe.bind fun _ _ => ?_
    exact yields_mark.bind fun _ _ => yields_pure (.plain nofun rfl chained_nil)
  · refine yields_literal.maybe.bind fun _ _ => ?_
    exact (itemBlock_yields reads).bind fun _ read =>
      yields_pure (.plain nofun rfl (itemFragments_chained read))

theorem moduleRule_yields : Yields whole (ParsedItem.ReadIn whole) (moduleRule g) := by
  refine yields_word.bind fun _ _ => ?_
  refine yields_name.bind fun _ _ => ?_
  refine yields_ahead fun _ => .ite ?_ ?_
  · exact yields_mark.bind fun _ _ => yields_pure (.plain nofun rfl chained_nil)
  · exact (itemBlock_yields reads).bind fun _ read => yields_pure (.ofModule read)

omit reads in
theorem importTree_yields (depth : Nat) : Yields whole Whatever (importTree depth) := by
  induction depth generalizing whole with
  | zero => exact yields_failure
  | succ depth inductionHypothesis =>
      refine yields_symbol.maybe.bind fun _ _ => ?_
      refine (yields_segment.seqRight yields_symbol).many.bind fun _ _ => ?_
      have several := (@inductionHypothesis whole).commaSeparated
      have renamed := (@yields_word whole "as").seqRight yields_anyWord
      exact yields_mark.skip.orElse
        (several.inside.skip.orElse (yields_segment.seqRight renamed.maybe.skip))

omit reads in
theorem useRule_yields : Yields whole (ParsedItem.ReadIn whole) useRule := by
  refine yields_word.bind fun _ _ => ?_
  refine yields_get fun _ => ?_
  refine (importTree_yields _).bind fun _ _ => ?_
  exact yields_mark.bind fun _ _ => yields_pure (.plain nofun rfl chained_nil)

theorem typeAliasRule_yields : Yields whole (ParsedItem.ReadIn whole) (typeAliasRule g) := by
  refine yields_word.bind fun _ _ => ?_
  refine yields_name.bind fun _ _ => ?_
  refine generics_yields.bind fun _ _ => ?_
  refine (boundsClause_yields reads).bind fun _ _ => ?_
  refine (whereClause_yields reads).bind fun _ _ => ?_
  refine (yields_mark.seqRight (reads.type whole)).maybe.bind fun _ type => ?_
  refine (whereClause_yields reads).bind fun _ _ => ?_
  exact yields_mark.bind fun _ _ => yields_pure (.plain nofun rfl (chained_getD type))

omit reads in
theorem macroRuleList_yields : Yields whole Whatever macroRuleList := by
  have rule := (@yields_anyGroup whole).bind fun matcher _ =>
    (@yields_symbol whole "=>").bind fun _ _ =>
      yields_anyGroup.bind fun body _ =>
        @yields_pure _ whole Whatever (⟨sourceText [matcher], sourceText [body]⟩ : MacroRule) trivial
  have ended := rule.bind fun rule _ =>
    (@yields_separator whole ';').bind fun _ _ => @yields_pure _ whole Whatever rule trivial
  exact ended.many.whatever

omit reads in
theorem macroRulesRule_yields : Yields whole (ParsedItem.ReadIn whole) macroRulesRule := by
  refine yields_word.bind fun _ _ => ?_
  refine yields_mark.bind fun _ _ => ?_
  refine yields_anyWord.bind fun _ _ => ?_
  refine yields_ahead fun _ => .ite ?_ ?_
  · exact macroRuleList_yields.inside.bind fun _ _ => yields_pure (.plain nofun rfl chained_nil)
  · refine (macroRuleList_yields.inside.orElse macroRuleList_yields.inside).bind fun _ _ => ?_
    exact yields_mark.maybe.bind fun _ _ => yields_pure (.plain nofun rfl chained_nil)

omit reads in
theorem macroDefinitionRule_yields : Yields whole (ParsedItem.ReadIn whole) macroDefinitionRule := by
  refine yields_word.bind fun _ _ => ?_
  refine yields_name.bind fun _ _ => ?_
  refine yields_anyGroup.bind fun _ _ => ?_
  exact yields_anyGroup.maybe.bind fun _ _ => yields_pure (.plain nofun rfl chained_nil)

omit reads in
theorem macroCallRule_yields : Yields whole (ParsedItem.ReadIn whole) macroCallRule := by
  refine macroCall_yields.bind fun fragment noCall => ?_
  cases fragment with
  | macroCall path arguments start line =>
      have fragments := (@chained_nil whole).cons noCall
      refine .ite ?_ (yields_pure (.plain nofun rfl fragments))
      exact yields_mark.maybe.skip.bind fun _ _ => yields_pure (.plain nofun rfl fragments)
  | binding _ _ _ => exact yields_failure
  | call _ _ _ _ => exact yields_failure
  | arm _ _ _ => exact yields_failure

theorem itemRule_yields : Yields whole (ParsedItem.ReadIn whole) (itemRule g) := by
  refine yields_ahead fun _ => .ite ?_ ?_
  · exact yields_mark.bind fun _ _ => yields_pure (.plain nofun rfl chained_nil)
  refine visibility_yields.bind fun _ _ => ?_
  refine yields_get fun trees => ?_
  refine .ite (functionRule_yields reads) ?_
  refine .ite macroRulesRule_yields ?_
  refine .ite (unionRule_yields reads) ?_
  refine .ite macroDefinitionRule_yields ?_
  refine .ite (structRule_yields reads) ?_
  refine .ite (enumRule_yields reads) ?_
  refine .ite (valueRule_yields reads) ?_
  refine .ite (moduleRule_yields reads) ?_
  refine .ite useRule_yields ?_
  refine .ite (typeAliasRule_yields reads) ?_
  refine .ite (implementationRule_yields reads) ?_
  refine .ite (traitRule_yields reads) ?_
  exact .ite (foreignRule_yields reads) macroCallRule_yields

theorem itemsRule_yields :
    Yields whole (fun items => ∀ item ∈ items, item.value.ReadIn whole) (itemsRule g) :=
  (annotated_yields (itemRule_yields reads) []).many.bind fun _ read =>
    attributes_yields.bind fun _ _ => yields_pure read

/-! ## Statements -/

theorem statementRule_yields : Yields whole (Chained whole) (statementRule g) := by
  refine attributes_yields.bind fun _ _ => ?_
  refine yields_get fun trees => ?_
  refine .ite ?_ (.ite (letStatement_yields reads) (.ite ?_ (expressionStatement_yields reads)))
  · exact yields_mark.bind fun _ _ => yields_pure chained_nil
  · exact (itemRule_yields reads).bind fun _ item => yields_pure item.fragments

theorem statementsRule_yields : Yields whole (Chained whole) (statementsRule g) :=
  (statementRule_yields reads).many.bind fun _ statements =>
    attributes_yields.bind fun _ _ => yields_pure (chained_flatten statements)

end Nested

/-! ## The whole grammar -/

theorem readsChains_empty : ReadsChains empty where
  isOfDepth := ⟨0, rfl⟩
  type _ := yields_failure
  pattern _ := yields_failure
  expression _ _ := yields_failure
  blockLike _ := yields_failure
  statements _ := yields_failure
  items _ := yields_failure

theorem readsChains_step {depth : Nat} (reads : ReadsChains (ofDepth depth)) :
    ReadsChains (ofDepth (depth + 1)) where
  isOfDepth := ⟨depth + 1, rfl⟩
  type _ := typeRule_yields reads
  pattern _ := patternRule_yields reads
  expression _ structs := expressionRule_yields reads structs
  blockLike _ := blockLikeRule_yields reads
  statements _ := statementsRule_yields reads
  items _ := itemsRule_yields reads

theorem readsChains_ofDepth (depth : Nat) : ReadsChains (ofDepth depth) := by
  induction depth with
  | zero => exact readsChains_empty
  | succ depth inductionHypothesis => exact readsChains_step inductionHypothesis

end Grammar

/-- Each function body in the items of some trees stands in these trees. -/
theorem bodyIn_of_itemsOfTrees {trees : List Tree} {items : List (Annotated Item)}
    (read : itemsOfTrees trees = some items) (depth : Nat) :
    ∀ leaf ∈ leaves depth items, ∀ body ∈ leaf.2.value.bodies, BodyIn trees body := by
  obtain ⟨parsed, taken, rfl⟩ := Option.map_eq_some_iff.mp read
  have reads := Grammar.readsChains_ofDepth ((Tree.allTokens trees).length + 1)
  unfold all at taken
  split at taken
  · rename_i found
    obtain rfl := Option.some.inj taken
    exact bodyIn_of_leaves (reads.items trees _ _ _ .all found).2 depth
  · cases taken

end ProgramIdl.Syntax
