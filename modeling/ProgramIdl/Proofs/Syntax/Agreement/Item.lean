import ProgramIdl.Proofs.Syntax.Agreement.Expression
import ProgramIdl.Syntax.Grammar.Item

/-!
# Items of like trees

The rules for items agree over grammars that agree, and so does the whole grammar: like lists of trees
are files of like items.
-/

set_option autoImplicit false

namespace ProgramIdl.Syntax

open ProgramIdl.Syntax.Parser

namespace Grammar

variable {like : Likeness} {opened : Bool} {bound : Nat} {g h : Grammar}

/-! ## Looking ahead -/

theorem startsFunction_respects : RespectsLists like opened startsFunction := by
  intro pairs tail tail' ends alike
  have words : Respects like opened (fun tree =>
      ["const", "async", "unsafe", "safe", "default", "extern", "gen"].any tree.isWord
        || tree.isKind .literal) :=
    (respects_anyWord (by decide)).or (respects_isKind fun _ => nofun)
  have function : Respects like opened (fun tree => ["fn"].any tree.isWord) :=
    respects_anyWord (by decide)
  rw [startsFunction, startsFunction]
  induction pairs with
  | nil =>
      cases ends with
      | nil => rfl
      | semicolon allowed kind kind' =>
          simp only [lefts_nil, rights_nil, behindQualifiers, words.final allowed _ kind,
            words.final allowed _ kind', Bool.false_eq_true, if_false, headIsWord, headIs,
            function.final allowed _ kind, function.final allowed _ kind']
  | cons pair pairs inductionHypothesis =>
      cases alike with
      | cons trees joint behind =>
          simp only [lefts_cons, rights_cons, behindQualifiers, words.same trees]
          split
          · exact inductionHypothesis behind.first
          · exact function.same trees

theorem behindModifiers_respects {names : List String} (known : ∀ name ∈ names, name ∈ keywords) :
    RespectsLists like opened (fun trees => headIsWord names (behindModifiers trees)) := by
  intro pairs tail tail' ends alike
  have words : Respects like opened (fun tree =>
      ["unsafe", "auto", "default"].any tree.isWord) := respects_anyWord (by decide)
  have wanted : Respects like opened (fun tree => names.any tree.isWord) := respects_anyWord known
  dsimp only [behindModifiers]
  induction pairs with
  | nil =>
      cases ends with
      | nil => rfl
      | semicolon allowed kind kind' =>
          simp only [lefts_nil, rights_nil, List.dropWhile_cons, words.final allowed _ kind,
            words.final allowed _ kind', Bool.false_eq_true, if_false, headIsWord, headIs,
            wanted.final allowed _ kind, wanted.final allowed _ kind']
  | cons pair pairs inductionHypothesis =>
      cases alike with
      | cons trees joint behind =>
          simp only [lefts_cons, rights_cons, List.dropWhile_cons, words.same trees]
          split
          · exact inductionHypothesis behind.first
          · exact wanted.same trees

theorem startsContextual_eq (keyword : String) (trees : List Tree) :
    startsContextual keyword trees =
      (headIs (Tree.isWord keyword) trees && headIs Tree.isSegment (trees.drop 1)) := by
  match trees with
  | [] => rfl
  | [tree] => simp [startsContextual, headIs]
  | tree :: next :: rest => rfl

theorem startsContextual_respects {keyword : String} (known : keyword ∈ keywords) :
    RespectsLists like opened (startsContextual keyword) := by
  rw [funext (startsContextual_eq keyword)]
  exact (respects_headIs respects_isSegment).behind (respects_isWord known)

theorem startsMacroRules_eq (trees : List Tree) :
    startsMacroRules trees =
      (headIs (Tree.isWord "macro_rules") trees && (headIs (Tree.isMark '!') (trees.drop 1)
        && headIs (Tree.isKind .word) ((trees.drop 1).drop 1))) := by
  match trees with
  | [] => rfl
  | [tree] => simp [startsMacroRules, headIs]
  | [tree, next] => simp [startsMacroRules, headIs]
  | tree :: next :: third :: rest => simp [startsMacroRules, headIs, Bool.and_assoc]

theorem startsMacroRules_respects : RespectsLists like opened startsMacroRules := by
  rw [funext startsMacroRules_eq]
  have words : RespectsLists like opened (headIs (Tree.isKind .word)) :=
    respects_headIs (respects_isKind fun _ => nofun)
  exact (words.behind (respects_isMark fun _ => by decide)).behind (respects_isWord (by decide))

theorem startsItem_eq (trees : List Tree) :
    startsItem trees =
      (startsFunction trees || startsMacroRules trees || startsContextual "union" trees
        || startsContextual "macro" trees
        || headIsWord ["struct", "enum", "mod", "use", "type", "pub"] trees
        || headIsWord ["trait", "impl", "extern"] (behindModifiers trees)
        || (headIs (fun tree => tree.isWord "const" || tree.isWord "static") trees
            && headIs (Tree.isKind .word) (trees.drop 1)
            && !startsClosure trees)) := by
  unfold startsItem
  congr 1
  match trees with
  | [] => rfl
  | [tree] => simp [headIs]
  | tree :: next :: rest => rfl

theorem startsItem_respects : RespectsLists like opened startsItem := by
  have words : RespectsLists like opened (headIs (Tree.isKind .word)) :=
    respects_headIs (respects_isKind fun _ => nofun)
  have constants : Respects like opened (fun tree => tree.isWord "const" || tree.isWord "static") :=
    (respects_isWord (by decide)).or (respects_isWord (by decide))
  rw [funext startsItem_eq]
  refine (((((startsFunction_respects.or startsMacroRules_respects).or
    (startsContextual_respects (by decide))).or (startsContextual_respects (by decide))).or
    (respects_headIsWord (by decide))).or (behindModifiers_respects (by decide))).or ?_
  exact (words.behind constants).and startsClosure_respects.not

/-! ## Parts of items -/

theorem visibility_agrees : Agrees like opened 0 bound Anything visibility visibility := by
  have word (bound : Nat) (name : String) (known : name ∈ keywords) :=
    (@agrees_word like false bound name known).skip
  refine (agrees_word (by decide)).maybe.bind ?_
  rintro _ _ (_ | _)
  · have path := (@agrees_word like false bound "in" (by decide)).seqAfter plainPath_agrees.zero
    have scope := (word bound "crate" (by decide)).orElse <| (word bound "self" (by decide)).orElse <|
      (word bound "super" (by decide)).orElse path
    exact (scope.inside.below (Nat.le_succ _)).maybe.skip
  · exact agrees_pure trivial

theorem generics_agrees : Agrees like opened 0 bound Anything generics generics :=
  agrees_angles.maybe.skip

theorem boundsClause_agrees (grammars : Agree like bound g h) :
    Agrees like opened 0 (bound + 1) Anything (boundsClause g) (boundsClause h) :=
  ((@agrees_mark like opened (bound + 1) ':' fun _ => by decide).seqAfter
    (bounds_agrees grammars).maybe).maybe.skip

theorem genericCondition_agrees (grammars : Agree like bound g h) :
    Agrees like opened 1 bound Anything (genericCondition g) (genericCondition h) := by
  refine (agrees_lifetime.skip.orElse (grammars.type opened).skip).bindAfter fun _ _ _ => ?_
  refine (agrees_mark fun _ => by decide).zero.bind fun _ _ _ => ?_
  exact ((bounds_agrees grammars).below (Nat.le_succ _)).maybe.skip

theorem whereClause_agrees (grammars : Agree like bound g h) :
    Agrees like opened 0 bound Anything (whereClause g) (whereClause h) :=
  ((@agrees_word like opened bound "where" (by decide)).seqAfter
    (genericCondition_agrees grammars).commaSeparated).maybe.skip

/-- Related values behind an equals sign. -/
abbrev ValueAlike (like : Likeness) (value value' : Expression × String) : Prop :=
  ExpressionAlike like.kept value.1 value'.1 ∧ TextAlike like value.2 value'.2

theorem valueText_agrees (grammars : Agree like bound g h) :
    Agrees like opened 0 bound (Option.Rel (ValueAlike like)) (valueText g) (valueText h) :=
  ((@agrees_mark like opened bound '=' fun _ => by decide).zero.seqRight
    (grammars.expression opened true).withText).maybe

/-- The fragments of a value behind an equals sign. -/
theorem valueFragments_alike {value value' : Option (Expression × String)}
    (alike : Option.Rel (ValueAlike like) value value') :
    FragmentsAlike like.kept ((value.map fun value => value.1.fragments).getD [])
      ((value'.map fun value => value.1.fragments).getD []) := by
  cases alike with
  | some read => exact read.1.fragments
  | none => exact .nil

theorem namedField_agrees (grammars : Agree like bound g h) :
    Agrees like false 1 bound (fun field field' => FieldAlike like.kept field.1 field'.1 ∧
      FragmentsAlike like.kept field.2 field'.2) (namedField g) (namedField h) := by
  refine visibility_agrees.bind fun _ _ _ => ?_
  refine agrees_name.bindAfter fun _ _ names => ?_
  refine (@agrees_mark like false bound ':' nofun).zero.bind fun _ _ _ => ?_
  refine (grammars.type false).withText.zero.bind ?_
  rintro ⟨_, _⟩ ⟨_, _⟩ ⟨fragments, types⟩
  exact agrees_pure ⟨⟨.of_tokens names, types⟩, fragments⟩

/-- Annotated things whose parts are related are related in their parts. -/
theorem annotated_unzip {α β γ δ : Type} {related : α → β → Prop} {fragmentsOf : γ → δ → Prop}
    {items : List (Annotated (α × γ))} {items' : List (Annotated (β × δ))}
    (alike : List.Forall₂ (AnnotatedAlike like.kept fun item item' => related item.1 item'.1 ∧
      fragmentsOf item.2 item'.2) items items') :
    List.Forall₂ (AnnotatedAlike like.kept related)
      (items.map fun item => ⟨item.annotations, item.line, item.value.1⟩)
      (items'.map fun item => ⟨item.annotations, item.line, item.value.1⟩) :=
  List.rel_map (fun _ _ item => ⟨item.notes, item.values.1⟩) alike

theorem namedFields_agrees (grammars : Agree like bound g h) :
    Agrees like opened 1 (bound + 1) (fun fields fields' =>
      List.Forall₂ (AnnotatedAlike like.kept (FieldAlike like.kept)) fields.1 fields'.1 ∧
        FragmentsAlike like.kept fields.2 fields'.2) (namedFields g) (namedFields h) := by
  refine (annotatedList_agrees grammars (Nat.le_succ _) (namedField_agrees grammars)).inside.bindAfter
    fun _ _ fields => ?_
  refine agrees_pure ⟨annotated_unzip fields, ?_⟩
  exact List.rel_flatMap fields fun _ _ field => field.values.2

theorem tupleFields_agrees (grammars : Agree like bound g h) :
    Agrees like opened 1 (bound + 1) (FragmentsAlike like.kept) (tupleFields g) (tupleFields h) := by
  have field := ((@attributes_agrees like false bound g h grammars).below (Nat.le_succ _)).bind
    fun _ _ _ => visibility_agrees.bind fun _ _ _ => grammars.type false
  exact field.commaSeparated.inside.bindAfter fun _ _ fields =>
    agrees_pure (fragmentsAlike_flatten fields)

/-- A variant behind its name and its fields. -/
def variantValue (g : Grammar) (name : Token) (body : List Fragment) :
    Parser (VariantItem × List Fragment) := do
  let value ← valueText g
  return (⟨given name, value.map Prod.snd⟩,
    body ++ (value.map fun value => value.1.fragments).getD [])

theorem variantValue_agrees (grammars : Agree like bound g h) {name name' : Token}
    (names : like.token false name name') {body body' : List Fragment}
    (bodies : FragmentsAlike like.kept body body') :
    Agrees like opened 0 bound (fun variant variant' => VariantAlike like.kept variant.1 variant'.1 ∧
      FragmentsAlike like.kept variant.2 variant'.2) (variantValue g name body)
      (variantValue h name' body') := by
  refine (valueText_agrees grammars).bind fun value value' values => agrees_pure ?_
  refine ⟨⟨.of_tokens names, ?_⟩, List.rel_append bodies (valueFragments_alike values)⟩
  cases values with
  | some read => exact .some read.2
  | none => exact .none

theorem variant_agrees (grammars : Agree like bound g h) :
    Agrees like false 1 bound (fun variant variant' => VariantAlike like.kept variant.1 variant'.1 ∧
      FragmentsAlike like.kept variant.2 variant'.2) (variant g) (variant h) := by
  refine visibility_agrees.bind fun _ _ _ => ?_
  refine agrees_name.bindAfter fun name name' names => ?_
  refine agrees_ahead (respects_headIs (respects_isGroup _)) fun braces => ?_
  refine agrees_ahead (respects_headIs (respects_isGroup _)) fun parentheses => ?_
  refine .ite Iff.rfl ?_ (.ite Iff.rfl ?_ (variantValue_agrees grammars names .nil))
  · refine (((namedFields_agrees grammars).below (Nat.le_succ _)).zero.map
      fun _ _ fields => fields.2).bind fun _ _ fields => ?_
    exact variantValue_agrees grammars names fields
  · exact ((tupleFields_agrees grammars).below (Nat.le_succ _)).zero.bind fun _ _ fields =>
      variantValue_agrees grammars names fields

theorem parameter_agrees (grammars : Agree like bound g h) :
    Agrees like false 1 bound (FragmentsAlike like.kept) (parameter g) (parameter h) := by
  refine ((attributes_agrees grammars).below (Nat.le_succ _)).bind fun _ _ _ => ?_
  have dots := @agrees_symbol like false bound "..." (by decide) (by decide)
  have named : Agrees like false 1 bound (FragmentsAlike like.kept)
      (nestedPattern g >>= fun pattern => do
        let _ ← mark ':'
        if ← ahead (startsWithSymbol ['.', '.', '.']) then
          symbol "..."
          return pattern.fragments
        else return pattern.fragments ++ (← g.type))
      (nestedPattern h >>= fun pattern => do
        let _ ← mark ':'
        if ← ahead (startsWithSymbol ['.', '.', '.']) then
          symbol "..."
          return pattern.fragments
        else return pattern.fragments ++ (← h.type)) := by
    refine (nestedPattern_agrees grammars).bindAfter fun _ _ pattern => ?_
    refine (@agrees_mark like false bound ':' nofun).zero.bind fun _ _ _ => ?_
    refine agrees_ahead (respects_symbol (by decide)) fun answer => ?_
    refine .ite Iff.rfl ?_ ?_
    · exact dots.zero.bind fun _ _ _ => agrees_pure pattern.fragments
    · exact (grammars.type false).zero.bind fun _ _ type =>
        agrees_pure (List.rel_append pattern.fragments type)
  refine named.maybe_cases (fun _ _ fragments => agrees_pure fragments) ?_
  refine agrees_ahead (respects_headIsWord (by decide)) fun answer => ?_
  refine .ite Iff.rfl ?_ ?_
  · refine (agrees_word (by decide)).bindAfter fun _ _ _ => ?_
    exact (agrees_word (by decide)).zero.bind fun _ _ _ => agrees_pure .nil
  · refine agrees_ahead (respects_symbol (by decide)) fun answer => ?_
    refine .ite Iff.rfl ?_ (grammars.type false)
    exact dots.bindAfter fun _ _ _ => agrees_pure .nil

/-! ## Items -/

theorem structRule_agrees (grammars : Agree like bound g h) :
    Agrees like false 1 (bound + 1) (ParsedAlike like.kept) (structRule g) (structRule h) := by
  have condition := @whereClause_agrees like false bound g h grammars
  refine (agrees_word (by decide)).andThen fun _ _ _ => ?_
  refine agrees_name.zero.bind fun _ _ names => ?_
  have named := NameAlike.of_tokens names
  refine generics_agrees.bind fun _ _ _ => ?_
  refine condition.bind fun _ _ _ => ?_
  refine agrees_ahead (respects_headIs (respects_isGroup _)) fun answer => ?_
  refine .ite Iff.rfl ?_ ?_
  · refine ((namedFields_agrees grammars).below (Nat.le_succ _)).zero.bind ?_
    rintro ⟨_, _⟩ ⟨_, _⟩ ⟨fields, fragments⟩
    exact agrees_pure ⟨.record named (.named fields), fragments⟩
  · refine agrees_ahead (respects_headIs (respects_isGroup _)) fun answer => ?_
    refine .ite Iff.rfl ?_ ?_
    · refine ((tupleFields_agrees grammars).below (Nat.le_succ _)).zero.bind fun _ _ fragments => ?_
      refine condition.bind fun _ _ _ => ?_
      exact agrees_semicolon.zero.bind fun _ _ _ => agrees_pure ⟨.record named .tuple, fragments⟩
    · exact agrees_semicolon.zero.bind fun _ _ _ => agrees_pure ⟨.record named .unit, .nil⟩

theorem unionRule_agrees (grammars : Agree like bound g h) :
    Agrees like false 1 (bound + 1) (ParsedAlike like.kept) (unionRule g) (unionRule h) := by
  refine (agrees_word (by decide)).andThen fun _ _ _ => ?_
  refine agrees_name.zero.bind fun _ _ _ => ?_
  refine generics_agrees.bind fun _ _ _ => ?_
  refine (whereClause_agrees grammars).bind fun _ _ _ => ?_
  exact ((namedFields_agrees grammars).below (Nat.le_succ _)).zero.bind fun _ _ fields =>
    agrees_pure ⟨.other, fields.2⟩

theorem enumRule_agrees (grammars : Agree like bound g h) :
    Agrees like false 1 (bound + 1) (ParsedAlike like.kept) (enumRule g) (enumRule h) := by
  refine (agrees_word (by decide)).andThen fun _ _ _ => ?_
  refine agrees_name.zero.bind fun _ _ names => ?_
  refine generics_agrees.bind fun _ _ _ => ?_
  refine (whereClause_agrees grammars).bind fun _ _ _ => ?_
  have list := annotatedList_agrees grammars (Nat.le_succ _) (variant_agrees grammars)
  refine (list.inside.below (Nat.le_succ _)).zero.bind fun _ _ variants => ?_
  refine agrees_pure ⟨.enumeration (.of_tokens names) (annotated_unzip variants), ?_⟩
  exact List.rel_flatMap variants fun _ _ variant => variant.values.2

theorem valueRule_agrees (grammars : Agree like bound g h) :
    Agrees like false 1 (bound + 1) (ParsedAlike like.kept) (valueRule g) (valueRule h) := by
  have constant := @agrees_word like false (bound + 1) "const" (by decide)
  refine (constant.orElse (agrees_word (by decide))).andThen fun keyword keyword' words => ?_
  refine (agrees_word (by decide)).maybe.bind fun _ _ _ => ?_
  refine agrees_name.zero.bind fun _ _ names => ?_
  refine generics_agrees.bind fun _ _ _ => ?_
  refine (@agrees_mark like false bound ':' nofun).zero.bind fun _ _ _ => ?_
  refine (grammars.type false).withText.zero.bind ?_
  rintro ⟨_, _⟩ ⟨_, _⟩ ⟨typeFragments, types⟩
  refine (valueText_agrees grammars).bind fun value value' values => ?_
  refine agrees_semicolon.zero.bind fun _ _ _ => ?_
  have fragments := List.rel_append typeFragments (valueFragments_alike values)
  have constants : keyword.name = "const" ↔ keyword'.name = "const" := by
    have same := like.word words "const" (by decide)
    rwa [← String.ofList_inj, ← String.ofList_inj] at same
  refine .ite constants (agrees_pure ⟨.constant (.of_tokens names) types ?_, fragments⟩)
    (agrees_pure ⟨.other, fragments⟩)
  cases values with
  | some read => exact read.2
  | none => exact textAlike_empty like

theorem functionRule_agrees (grammars : Agree like bound g h) :
    Agrees like false 1 (bound + 1) (ParsedAlike like.kept) (functionRule g) (functionRule h) := by
  have function : Respects like false (Tree.isWord "fn") := respects_isWord (by decide)
  refine (agrees_skipWhile function.not).bind fun _ _ _ => ?_
  refine (agrees_word (by decide)).andThen fun _ _ _ => ?_
  refine agrees_name.zero.bind fun _ _ names => ?_
  refine generics_agrees.bind fun _ _ _ => ?_
  have parameters := (parameter_agrees grammars).commaSeparated
  refine (parameters.inside.below (Nat.le_succ _)).zero.bind fun _ _ parameters => ?_
  refine ((resultType_agrees grammars).below (Nat.le_succ _)).bind fun _ _ result => ?_
  have front := List.rel_append (fragmentsAlike_flatten parameters) result
  refine (whereClause_agrees grammars).bind fun _ _ _ => ?_
  refine agrees_ahead (respects_headIs (respects_isGroup _)) fun answer => ?_
  refine .ite Iff.rfl ?_ ?_
  · refine ((block_agrees grammars).below (Nat.le_succ _)).zero.bind fun _ _ body => ?_
    exact agrees_pure ⟨.function (.of_tokens names) body, List.rel_append front body⟩
  · exact agrees_semicolon.zero.bind fun _ _ _ => agrees_pure ⟨.other, front⟩

section Blocks

variable {items items' : List (Annotated ParsedItem)}

theorem itemFragments_alike
    (alike : List.Forall₂ (AnnotatedAlike like.kept (ParsedAlike like.kept)) items items') :
    FragmentsAlike like.kept (itemFragments items) (itemFragments items') :=
  List.rel_flatMap alike fun _ _ item => item.values.fragments

theorem plainItems_alike
    (alike : List.Forall₂ (AnnotatedAlike like.kept (ParsedAlike like.kept)) items items') :
    ItemsAlike like.kept (plainItems items) (plainItems items') := by
  induction alike with
  | nil => exact .nil
  | cons item _ inductionHypothesis => exact .cons item.notes item.values.items inductionHypothesis

theorem functionBodies_alike
    (alike : List.Forall₂ (AnnotatedAlike like.kept (ParsedAlike like.kept)) items items') :
    List.Forall₂ (FragmentsAlike like.kept) (functionBodies items) (functionBodies items') := by
  refine List.rel_filterMap (fun item item' alike => ?_) alike
  obtain ⟨_, _, parsed, _⟩ := item
  obtain ⟨_, _, parsed', _⟩ := item'
  cases alike.values.items with
  | function names bodies => exact .some bodies
  | _ => exact .none

end Blocks

theorem itemBlock_agrees (grammars : Agree like bound g h) :
    Agrees like opened 1 (bound + 1) (List.Forall₂ (AnnotatedAlike like.kept (ParsedAlike like.kept)))
      (itemBlock g) (itemBlock h) :=
  grammars.items.inside

theorem implementationRule_agrees (grammars : Agree like bound g h) :
    Agrees like false 1 (bound + 1) (ParsedAlike like.kept) (implementationRule g)
      (implementationRule h) := by
  have implementation : Respects like false (Tree.isWord "impl") := respects_isWord (by decide)
  refine (agrees_skipWhile implementation.not).bind fun _ _ _ => ?_
  refine (agrees_word (by decide)).andThen fun _ _ _ => ?_
  refine generics_agrees.bind fun _ _ _ => ?_
  refine (agrees_word (by decide)).maybe.bind fun _ _ _ => ?_
  refine (@agrees_mark like false bound '!' nofun).maybe.bind fun _ _ _ => ?_
  refine (grammars.type false).withText.zero.bind ?_
  rintro ⟨_, _⟩ ⟨_, _⟩ ⟨firstFragments, first⟩
  have target := (@agrees_word like false bound "for" (by decide)).zero.seqRight
    (grammars.type false).withText
  refine target.maybe.bind fun second second' targets => ?_
  refine (whereClause_agrees grammars).bind fun _ _ _ => ?_
  refine ((itemBlock_agrees grammars).below (Nat.le_succ _)).zero.bind fun _ _ items => ?_
  have bodies := functionBodies_alike items
  have fragments := itemFragments_alike items
  cases targets with
  | some read =>
      refine agrees_pure ⟨.implementation first read.2 bodies, ?_⟩
      exact List.rel_append (List.rel_append firstFragments read.1) fragments
  | none =>
      refine agrees_pure ⟨.implementation (textAlike_empty like) first bodies, ?_⟩
      exact List.rel_append firstFragments fragments

theorem traitRule_agrees (grammars : Agree like bound g h) :
    Agrees like false 1 (bound + 1) (ParsedAlike like.kept) (traitRule g) (traitRule h) := by
  have traits : Respects like false (Tree.isWord "trait") := respects_isWord (by decide)
  have semicolon : Respects like false (Tree.isMark ';') := respects_isMark nofun
  refine (agrees_skipWhile traits.not).bind fun _ _ _ => ?_
  refine (agrees_word (by decide)).andThen fun _ _ _ => ?_
  refine agrees_name.zero.bind fun _ _ _ => ?_
  refine generics_agrees.bind fun _ _ _ => ?_
  refine ((boundsClause_agrees grammars).below (Nat.le_succ _)).bind fun _ _ _ => ?_
  refine (whereClause_agrees grammars).bind fun _ _ _ => ?_
  refine agrees_ahead (respects_headIs (respects_isMark nofun)) fun answer => ?_
  refine .ite Iff.rfl ?_ ?_
  · refine (agrees_skipWhile semicolon.not).bind fun _ _ _ => ?_
    exact agrees_semicolon.zero.bind fun _ _ _ => agrees_pure ⟨.other, .nil⟩
  · exact ((itemBlock_agrees grammars).below (Nat.le_succ _)).zero.bind fun _ _ items =>
      agrees_pure ⟨.other, itemFragments_alike items⟩

theorem foreignRule_agrees (grammars : Agree like bound g h) :
    Agrees like false 1 (bound + 1) (ParsedAlike like.kept) (foreignRule g) (foreignRule h) := by
  refine (agrees_word (by decide)).maybe.bind fun _ _ _ => ?_
  refine (agrees_word (by decide)).bindAfter fun _ _ _ => ?_
  refine agrees_ahead (respects_headIsWord (by decide)) fun answer => ?_
  refine .ite Iff.rfl ?_ ?_
  · refine (agrees_word (by decide)).zero.bind fun _ _ _ => ?_
    refine agrees_segment.zero.bind fun _ _ _ => ?_
    have other := (@agrees_word like false (bound + 1) "as" (by decide)).zero.seqRight agrees_anyWord
    refine other.maybe.bind fun _ _ _ => ?_
    exact agrees_semicolon.zero.bind fun _ _ _ => agrees_pure ⟨.other, .nil⟩
  · refine agrees_literal.maybe.bind fun _ _ _ => ?_
    exact (itemBlock_agrees grammars).zero.bind fun _ _ items =>
      agrees_pure ⟨.other, itemFragments_alike items⟩

theorem moduleRule_agrees (grammars : Agree like bound g h) :
    Agrees like false 1 (bound + 1) (ParsedAlike like.kept) (moduleRule g) (moduleRule h) := by
  refine (agrees_word (by decide)).bindAfter fun _ _ _ => ?_
  refine agrees_name.zero.bind fun _ _ _ => ?_
  refine agrees_ahead (respects_headIs (respects_isMark nofun)) fun answer => ?_
  refine .ite Iff.rfl ?_ ?_
  · exact agrees_semicolon.zero.bind fun _ _ _ => agrees_pure ⟨.other, .nil⟩
  · exact (itemBlock_agrees grammars).zero.bind fun _ _ items =>
      agrees_pure ⟨.module (plainItems_alike items), itemFragments_alike items⟩

theorem importTree_agrees (depth : Nat) :
    Agrees like opened 1 bound Anything (importTree depth) (importTree depth) := by
  induction depth generalizing opened bound with
  | zero => exact agrees_failure
  | succ depth inductionHypothesis =>
      refine agrees_colons.maybe.bind fun _ _ _ => ?_
      refine (agrees_segment.seqAfter agrees_colons.zero).many.bind fun _ _ _ => ?_
      have star := (@agrees_mark like opened bound '*' fun _ => by decide).skip
      have several : Agrees like opened 1 bound Anything
          (skip (inside .brace (commaSeparated (importTree depth))))
          (skip (inside .brace (commaSeparated (importTree depth)))) :=
        (inductionHypothesis.commaSeparated.inside.below (Nat.le_succ _)).skip
      have other := (@agrees_word like opened bound "as" (by decide)).zero.seqRight agrees_anyWord
      exact star.orElse (several.orElse (agrees_segment.seqAfter other.maybe.skip))

theorem typeAliasRule_agrees (grammars : Agree like bound g h) :
    Agrees like false 1 (bound + 1) (ParsedAlike like.kept) (typeAliasRule g) (typeAliasRule h) := by
  have condition := @whereClause_agrees like false bound g h grammars
  refine (agrees_word (by decide)).andThen fun _ _ _ => ?_
  refine agrees_name.zero.bind fun _ _ _ => ?_
  refine generics_agrees.bind fun _ _ _ => ?_
  refine ((boundsClause_agrees grammars).below (Nat.le_succ _)).bind fun _ _ _ => ?_
  refine condition.bind fun _ _ _ => ?_
  have type := (@agrees_mark like false bound '=' nofun).zero.seqRight (grammars.type false)
  refine type.maybe.bind fun _ _ type => ?_
  refine condition.bind fun _ _ _ => ?_
  exact agrees_semicolon.zero.bind fun _ _ _ => agrees_pure ⟨.other, fragmentsAlike_getD type⟩

theorem macroRule_agrees : Agrees like opened 1 bound (RuleAlike like.kept) macroRule macroRule := by
  have text {group group' : Tree} (trees : Tree.Alike like false group group') :
      TextAlike like (sourceText [group]) (sourceText [group']) :=
    ⟨[(group, group')], .cons trees nofun .nil, rfl, rfl⟩
  refine agrees_anyGroup.bindAfter fun _ _ matchers => ?_
  refine (@agrees_symbol like opened bound "=>" (by decide) (by decide)).zero.bind
    fun _ _ _ => ?_
  exact agrees_anyGroup.zero.bind fun _ _ bodies =>
    agrees_pure ⟨text matchers.1, text bodies.1⟩

theorem macroRuleList_agrees :
    Agrees like false 0 bound (List.Forall₂ (RuleAlike like.kept)) macroRuleList macroRuleList := by
  have semicolon := @agrees_separator like bound ';'
  have rule := (@macroRule_agrees like false bound).bindAfter fun _ _ rule =>
    semicolon.bind fun _ _ _ => agrees_pure rule
  exact rule.many

theorem macroRulesRule_agrees :
    Agrees like false 1 bound (ParsedAlike like.kept) macroRulesRule macroRulesRule := by
  have rules (delimiter : Delimiter) : Agrees like false 1 bound (List.Forall₂ (RuleAlike like.kept))
      (inside delimiter macroRuleList) (inside delimiter macroRuleList) :=
    macroRuleList_agrees.inside.below (Nat.le_succ _)
  refine (agrees_word (by decide)).bindAfter fun _ _ _ => ?_
  refine (@agrees_mark like false bound '!' nofun).zero.bind fun _ _ _ => ?_
  refine agrees_anyWord.zero.bind fun _ _ names => ?_
  refine agrees_ahead (respects_headIs (respects_isGroup _)) fun answer => ?_
  refine .ite Iff.rfl ?_ ?_
  · exact (rules .brace).zero.bind fun _ _ rules =>
      agrees_pure ⟨.macroRules (.of_tokens names) rules, .nil⟩
  · refine ((rules .parenthesis).orElse (rules .bracket)).zero.bind fun _ _ rules => ?_
    exact agrees_semicolon.maybe.bind fun _ _ _ =>
      agrees_pure ⟨.macroRules (.of_tokens names) rules, .nil⟩

theorem macroDefinitionRule_agrees :
    Agrees like false 1 bound (ParsedAlike like.kept) macroDefinitionRule macroDefinitionRule := by
  refine (agrees_word (by decide)).bindAfter fun _ _ _ => ?_
  refine agrees_name.zero.bind fun _ _ _ => ?_
  refine agrees_anyGroup.zero.bind fun _ _ _ => ?_
  exact agrees_anyGroup.maybe.bind fun _ _ _ => agrees_pure ⟨.other, .nil⟩

theorem macroCallRule_agrees :
    Agrees like false 1 bound (ParsedAlike like.kept) macroCallRule macroCallRule := by
  refine macroCall_agrees.bindAfter fun fragment fragment' alike => ?_
  cases alike with
  | macroCall paths texts delimiters starts =>
      have fragments {line line' : Nat} := List.Forall₂.cons
        (@FragmentAlike.macroCall like.kept _ _ _ _ _ _ line line' paths texts delimiters starts) .nil
      refine .ite (by rw [delimiters]) ?_ (agrees_pure ⟨.macroCall paths texts, fragments⟩)
      exact agrees_semicolon.maybe.skip.bind fun _ _ _ =>
        agrees_pure ⟨.macroCall paths texts, fragments⟩
  | binding _ _ _ => exact agrees_failure
  | call _ _ _ => exact agrees_failure
  | arm _ _ => exact agrees_failure

/-- The trees of a list in front of which no semicolon stands. -/
theorem length_takeWhile_alike {pairs : List (Tree × Tree)} {tail tail' : List Tree}
    (ends : Ends opened tail tail') (alike : AllAlike like false pairs) :
    (Tree.allTokens ((lefts pairs tail).takeWhile fun tree => !tree.isMark ';')).length =
      (Tree.allTokens ((rights pairs tail').takeWhile fun tree => !tree.isMark ';')).length := by
  induction pairs with
  | nil =>
      cases ends with
      | nil => rfl
      | semicolon _ kind kind' => simp [Tree.isMark, kind, kind']
  | cons pair pairs inductionHypothesis =>
      cases alike with
      | cons trees joint behind =>
          have mark := (@respects_isMark like false ';' fun opened =>
            absurd opened Bool.false_ne_true).same trees
          simp only [lefts_cons, rights_cons, List.takeWhile_cons, mark]
          split
          · simp only [Tree.allTokens, List.length_append, trees.length_tokens,
              inductionHypothesis behind.first]
          · rfl

/-- An import behind its keyword, whose braces are nested less deep than a bound. -/
def importOf (depth : Nat) : Parser ParsedItem := do
  importTree depth
  let _ ← mark ';'
  return ⟨.other, []⟩

theorem importOf_agrees (depth : Nat) :
    Agrees like false 0 bound (ParsedAlike like.kept) (importOf depth) (importOf depth) := by
  refine (importTree_agrees depth).zero.bind fun _ _ _ => ?_
  exact agrees_semicolon.zero.bind fun _ _ _ => agrees_pure ⟨.other, .nil⟩

theorem useRule_agrees : Agrees like false 1 bound (ParsedAlike like.kept) useRule useRule := by
  refine (agrees_word (by decide)).bindAfter fun _ _ _ => ?_
  refine agrees_get fun pairs tail tail' ends alike light => ?_
  rw [length_takeWhile_alike ends alike]
  exact importOf_agrees _ pairs tail tail' ends alike light

theorem itemRule_agrees (grammars : Agree like bound g h) :
    Agrees like false 1 (bound + 1) (ParsedAlike like.kept) (itemRule g) (itemRule h) := by
  refine agrees_ahead (respects_headIs (respects_isMark nofun)) fun answer => ?_
  refine .ite Iff.rfl ?_ ?_
  · exact agrees_semicolon.bindAfter fun _ _ _ => agrees_pure ⟨.other, .nil⟩
  refine visibility_agrees.bind fun _ _ _ => ?_
  have words (names : List String) (known : ∀ name ∈ names, name ∈ keywords) :
      RespectsLists like false (headIsWord names) := respects_headIsWord known
  refine agrees_get_ite startsFunction_respects (agrees_get_same (functionRule_agrees grammars)) ?_
  refine agrees_get_ite startsMacroRules_respects (agrees_get_same macroRulesRule_agrees) ?_
  refine agrees_get_ite (startsContextual_respects (by decide))
    (agrees_get_same (unionRule_agrees grammars)) ?_
  refine agrees_get_ite (startsContextual_respects (by decide))
    (agrees_get_same macroDefinitionRule_agrees) ?_
  refine agrees_get_ite (words _ (by decide)) (agrees_get_same (structRule_agrees grammars)) ?_
  refine agrees_get_ite (words _ (by decide)) (agrees_get_same (enumRule_agrees grammars)) ?_
  refine agrees_get_ite (words _ (by decide)) (agrees_get_same (valueRule_agrees grammars)) ?_
  refine agrees_get_ite (words _ (by decide)) (agrees_get_same (moduleRule_agrees grammars)) ?_
  refine agrees_get_ite (words _ (by decide)) (agrees_get_same useRule_agrees) ?_
  refine agrees_get_ite (words _ (by decide)) (agrees_get_same (typeAliasRule_agrees grammars)) ?_
  refine agrees_get_ite (behindModifiers_respects (by decide))
    (agrees_get_same (implementationRule_agrees grammars)) ?_
  refine agrees_get_ite (behindModifiers_respects (by decide))
    (agrees_get_same (traitRule_agrees grammars)) ?_
  exact agrees_get_ite (behindModifiers_respects (by decide))
    (agrees_get_same (foreignRule_agrees grammars)) (agrees_get_same macroCallRule_agrees)

theorem itemsRule_agrees (grammars : Agree like bound g h) :
    Agrees like false 0 (bound + 1) (List.Forall₂ (AnnotatedAlike like.kept (ParsedAlike like.kept)))
      (itemsRule g) (itemsRule h) := by
  have items := annotated_agrees grammars (Nat.le_refl _) .nil (itemRule_agrees grammars)
  exact items.many.bind fun _ _ items => (attributes_agrees grammars).bind fun _ _ _ =>
    agrees_pure items

/-! ## Statements -/

theorem statementRule_agrees (grammars : Agree like bound g h) :
    Agrees like false 1 (bound + 1) (FragmentsAlike like.kept) (statementRule g) (statementRule h) := by
  refine (attributes_agrees grammars).bind fun _ _ _ => ?_
  refine agrees_get_ite (respects_headIs (respects_isMark nofun)) (agrees_get_same ?_) ?_
  · exact agrees_semicolon.bindAfter fun _ _ _ => agrees_pure .nil
  refine agrees_get_ite (respects_headIsWord (by decide))
    (agrees_get_same (letStatement_agrees grammars)) ?_
  refine agrees_get_ite startsItem_respects (agrees_get_same ?_)
    (agrees_get_same (expressionStatement_agrees grammars))
  exact (itemRule_agrees grammars).bindAfter fun _ _ item => agrees_pure item.fragments

theorem statementsRule_agrees (grammars : Agree like bound g h) :
    Agrees like false 0 (bound + 1) (FragmentsAlike like.kept) (statementsRule g) (statementsRule h) :=
  (statementRule_agrees grammars).many.bind fun _ _ statements =>
    (attributes_agrees grammars).bind fun _ _ _ => agrees_pure (fragmentsAlike_flatten statements)

/-! ## The whole grammar -/

theorem step_agree (grammars : Agree like bound g h) : Agree like (bound + 1) (step g) (step h) where
  type _ := typeRule_agrees grammars
  pattern _ := patternRule_agrees grammars
  expression _ structs := expressionRule_agrees grammars structs
  blockLike _ := blockLikeRule_agrees grammars
  statements := statementsRule_agrees grammars
  items := itemsRule_agrees grammars

/-- Grammars agree on lists with fewer tokens than either of them is deep. -/
theorem ofDepth_agree {depth depth' : Nat} (enough : bound ≤ depth) (enough' : bound ≤ depth') :
    Agree like bound (ofDepth depth) (ofDepth depth') := by
  induction bound generalizing depth depth' with
  | zero => exact agree_zero
  | succ bound inductionHypothesis =>
      obtain ⟨depth, rfl⟩ : ∃ less, depth = less + 1 := ⟨depth - 1, by omega⟩
      obtain ⟨depth', rfl⟩ : ∃ less, depth' = less + 1 := ⟨depth' - 1, by omega⟩
      exact step_agree (inductionHypothesis (by omega) (by omega))

end Grammar

/-- Like lists of trees are files of like items, or neither is a file. -/
theorem itemsOfTrees_alike {like : Likeness} {pairs : List (Tree × Tree)}
    (alike : AllAlike like false pairs) :
    Option.Rel (ItemsAlike like.kept) (itemsOfTrees (pairs.map Prod.fst))
      (itemsOfTrees (pairs.map Prod.snd)) := by
  have grammars := @Grammar.ofDepth_agree like (weight pairs + 1) (weight pairs + 1)
    ((Tree.allTokens (pairs.map Prod.snd)).length + 1) (Nat.le_refl _)
    (Nat.succ_le_succ (Nat.le_of_eq alike.length_tokens))
  have read := grammars.items.all alike (Nat.lt_succ_self _)
  rw [itemsOfTrees, itemsOfTrees]
  change Option.Rel _ ((all (Grammar.ofDepth (weight pairs + 1)).items _).map _) _
  generalize all (Grammar.ofDepth (weight pairs + 1)).items _ = result at read
  generalize all _ _ = result' at read
  cases read with
  | none => exact .none
  | some items => exact .some (Grammar.plainItems_alike items)

end ProgramIdl.Syntax
