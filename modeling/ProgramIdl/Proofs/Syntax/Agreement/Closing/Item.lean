import ProgramIdl.Proofs.Syntax.Agreement.Closing

/-!
# How items end

The rules for items, one after the other: each reads up to a group or to a semicolon, and what stands
behind a semicolon makes no difference to it.
-/

set_option autoImplicit false

namespace ProgramIdl.Syntax

open ProgramIdl.Syntax.Parser

namespace Grammar

variable {like : Likeness} {grouped : Bool} {bound : Nat} {g h : Grammar}

/-! ## Looking ahead -/

theorem respectsAll_group (delimiter : Delimiter) :
    RespectsAll like (headIs (Tree.isGroup delimiter)) :=
  fun _ => respects_headIs (respects_isGroup delimiter)

theorem respectsAll_word {names : List String} (known : ∀ name ∈ names, name ∈ keywords) :
    RespectsAll like (headIsWord names) :=
  fun _ => respects_headIsWord known

theorem respectsAll_mark {c : Char} (other : c ≠ ';') : RespectsAll like (headIs (Tree.isMark c)) :=
  fun _ => respects_headIs (respects_isMark fun _ => other)

/-- Whether a semicolon comes first is the same even where the lists end with one. -/
theorem respectsAll_semicolon : RespectsAll like (headIs (Tree.isMark ';')) := by
  intro opened pairs tail tail' ends alike
  cases alike with
  | nil =>
      cases ends with
      | nil => rfl
      | semicolon _ kind kind' => simp [headIs, Tree.isMark, kind, kind']
  | cons trees _ _ => exact (@respects_isMark like false ';' (by simp)).same trees

/-! ## Rules -/

theorem groupLast_namedFields (g : Grammar) : GroupLast (namedFields g) :=
  (groupLast_inside _ _).thenPure fun _ => ⟨_, rfl⟩

theorem groupLast_itemBlock (g : Grammar) : GroupLast (itemBlock g) :=
  groupLast_inside _ _

theorem structRule_closes (grammars : Agree like bound g h) :
    Closes like true (bound + 1) (ParsedAlike like.kept) (structRule g) (structRule h) := by
  have condition (opened : Bool) := @whereClause_agrees like opened bound g h grammars
  refine .andThen (fun _ => agrees_word (by decide)) fun _ _ _ => ?_
  refine .bind (fun _ => agrees_name.zero) fun _ _ names => ?_
  have named := NameAlike.of_tokens names
  refine .bind (fun _ => generics_agrees) fun _ _ _ => .bind condition fun _ _ _ => ?_
  refine closes_ahead (respectsAll_group _) fun answer => .ite Iff.rfl ?_ ?_
  · exact ((groupLast_namedFields g).thenPure fun _ => ⟨_, rfl⟩).closes
  · refine closes_ahead (respectsAll_group _) fun answer => .ite Iff.rfl ?_ ?_
    · refine .bind (fun _ => ((tupleFields_agrees grammars).below (Nat.le_succ _)).zero)
        fun _ _ fragments => .bind condition fun _ _ _ => ?_
      exact closes_semicolon fun _ _ _ => ⟨_, _, rfl, rfl, ⟨.record named .tuple, fragments⟩⟩
    · exact closes_semicolon fun _ _ _ => ⟨_, _, rfl, rfl, ⟨.record named .unit, .nil⟩⟩

theorem unionRule_closes (grammars : Agree like bound g h) :
    Closes like true (bound + 1) (ParsedAlike like.kept) (unionRule g) (unionRule h) := by
  refine .andThen (fun _ => agrees_word (by decide)) fun _ _ _ => ?_
  refine .bind (fun _ => agrees_name.zero) fun _ _ _ => .bind (fun _ => generics_agrees) fun _ _ _ => ?_
  refine .bind (fun _ => whereClause_agrees grammars) fun _ _ _ => ?_
  exact ((groupLast_namedFields g).thenPure fun _ => ⟨_, rfl⟩).closes

theorem enumRule_closes (grammars : Agree like bound g h) :
    Closes like true (bound + 1) (ParsedAlike like.kept) (enumRule g) (enumRule h) := by
  refine .andThen (fun _ => agrees_word (by decide)) fun _ _ _ => ?_
  refine .bind (fun _ => agrees_name.zero) fun _ _ _ => .bind (fun _ => generics_agrees) fun _ _ _ => ?_
  refine .bind (fun _ => whereClause_agrees grammars) fun _ _ _ => ?_
  exact ((groupLast_inside _ _).thenPure fun _ => ⟨_, rfl⟩).closes

theorem valueRule_closes (grammars : Agree like bound g h) :
    Closes like grouped (bound + 1) (ParsedAlike like.kept) (valueRule g) (valueRule h) := by
  have constant (opened : Bool) := @agrees_word like opened (bound + 1) "const" (by decide)
  refine .andThen (fun opened => (constant opened).orElse (agrees_word (by decide)))
    fun keyword keyword' words => ?_
  refine .bind (fun _ => (agrees_word (by decide)).maybe) fun _ _ _ => ?_
  refine .bind (fun _ => agrees_name.zero) fun _ _ names => ?_
  refine .bind (fun _ => generics_agrees) fun _ _ _ => ?_
  refine .bind (fun _ => (agrees_mark fun _ => by decide).zero) fun _ _ _ => ?_
  refine .bind (fun opened => (grammars.type opened).withText.zero) ?_
  rintro ⟨_, _⟩ ⟨_, _⟩ ⟨typeFragments, types⟩
  refine .bind (fun _ => valueText_agrees grammars) fun value value' values => ?_
  have fragments := List.rel_append typeFragments (valueFragments_alike values)
  have constants : keyword.name = "const" ↔ keyword'.name = "const" := by
    have same := like.word words "const" (by decide)
    rwa [← String.ofList_inj, ← String.ofList_inj] at same
  refine closes_semicolon fun _ _ _ => ?_
  by_cases isConstant : keyword.name = "const"
  · refine ⟨_, _, if_pos isConstant, if_pos (constants.mp isConstant), ?_⟩
    refine ⟨.constant (.of_tokens names) types ?_, fragments⟩
    cases values with
    | some read => exact read.2
    | none => exact textAlike_empty like
  · exact ⟨_, _, if_neg isConstant, if_neg (constants.not.mp isConstant), ⟨.other, fragments⟩⟩

theorem respects_qualifier {opened : Bool} : Respects like opened isQualifier :=
  (respects_anyWord (by decide)).or (respects_isKind fun _ => by simp)

theorem respects_modifier {opened : Bool} : Respects like opened isModifier :=
  respects_anyWord (by decide)

theorem functionRule_closes (grammars : Agree like bound g h) :
    Closes like true (bound + 1) (ParsedAlike like.kept) (guarded startsFunction (functionRule g))
      (guarded startsFunction (functionRule h)) := by
  rw [functionRule, functionRule, guarded_function, guarded_function]
  refine .guarded ?_ fun _ => startsFunction_respects
  refine .bind (fun _ => agrees_skipWhile respects_qualifier) fun _ _ _ => ?_
  refine .andThen (fun _ => agrees_word (by decide)) fun _ _ _ => ?_
  refine .bind (fun _ => agrees_name.zero) fun _ _ names => .bind (fun _ => generics_agrees) fun _ _ _ => ?_
  have parameters := (parameter_agrees grammars).commaSeparated
  refine .bind (fun _ => (parameters.inside.below (Nat.le_succ _)).zero) fun _ _ parameters => ?_
  refine .bind (fun _ => (resultType_agrees grammars).below (Nat.le_succ _)) fun _ _ result => ?_
  have front := List.rel_append (fragmentsAlike_flatten parameters) result
  refine .bind (fun _ => whereClause_agrees grammars) fun _ _ _ => ?_
  refine closes_ahead (respectsAll_group _) fun answer => .ite Iff.rfl ?_ ?_
  · exact ((groupLast_inside _ _).thenPure fun _ => ⟨_, rfl⟩).closes
  · exact closes_semicolon fun _ _ _ => ⟨_, _, rfl, rfl, ⟨.other, front⟩⟩

theorem implementationRule_closes (grammars : Agree like bound g h) :
    Closes like true (bound + 1) (ParsedAlike like.kept)
      (guarded (fun trees => headIsWord ["impl"] (behindModifiers trees)) (implementationRule g))
      (guarded (fun trees => headIsWord ["impl"] (behindModifiers trees)) (implementationRule h)) := by
  rw [implementationRule, implementationRule, guarded_modified (by decide),
    guarded_modified (by decide)]
  refine .guarded ?_ fun _ => behindModifiers_respects (by decide)
  refine .bind (fun _ => agrees_skipWhile respects_modifier) fun _ _ _ => ?_
  refine .andThen (fun _ => agrees_word (by decide)) fun _ _ _ => ?_
  refine .bind (fun _ => generics_agrees) fun _ _ _ => ?_
  refine .bind (fun _ => (agrees_word (by decide)).maybe) fun _ _ _ => ?_
  refine .bind (fun _ => (agrees_mark fun _ => by decide).maybe) fun _ _ _ => ?_
  refine .bind (fun opened => (grammars.type opened).withText.zero) fun first _ _ => ?_
  have target (opened : Bool) := (@agrees_word like opened bound "for" (by decide)).zero.seqRight
    (grammars.type opened).withText
  refine .bind (fun opened => (target opened).maybe) fun second _ _ => ?_
  refine .bind (fun _ => whereClause_agrees grammars) fun _ _ _ => ?_
  refine ((groupLast_itemBlock g).thenPure fun _ => ?_).closes
  cases second with
  | some target => exact ⟨_, rfl⟩
  | none => exact ⟨_, rfl⟩

theorem traitRule_closes (grammars : Agree like bound g h) :
    Closes like true (bound + 1) (ParsedAlike like.kept)
      (guarded (fun trees => headIsWord ["trait"] (behindModifiers trees)) (traitRule g))
      (guarded (fun trees => headIsWord ["trait"] (behindModifiers trees)) (traitRule h)) := by
  rw [traitRule, traitRule, guarded_modified (by decide), guarded_modified (by decide)]
  refine .guarded ?_ fun _ => behindModifiers_respects (by decide)
  refine .bind (fun _ => agrees_skipWhile respects_modifier) fun _ _ _ => ?_
  refine .andThen (fun _ => agrees_word (by decide)) fun _ _ _ => ?_
  refine .bind (fun _ => agrees_name.zero) fun _ _ _ => .bind (fun _ => generics_agrees) fun _ _ _ => ?_
  refine .bind (fun _ => (boundsClause_agrees grammars).below (Nat.le_succ _)) fun _ _ _ => ?_
  refine .bind (fun _ => whereClause_agrees grammars) fun _ _ _ => ?_
  refine closes_ahead (respectsAll_mark (by decide)) fun answer => .ite Iff.rfl ?_ ?_
  · have semicolon (opened : Bool) : Respects like opened fun tree => !tree.isMark ';' :=
      ⟨fun alike => by rw [(@respects_isMark like false ';' (by simp)).same alike],
        fun _ _ kind => by simp [Tree.isMark, kind]⟩
    refine .bind (fun opened => agrees_skipWhile (semicolon opened)) fun _ _ _ => ?_
    exact closes_semicolon fun _ _ _ => ⟨_, _, rfl, rfl, ⟨.other, .nil⟩⟩
  · exact ((groupLast_itemBlock g).thenPure fun _ => ⟨_, rfl⟩).closes

theorem foreignRule_closes (g h : Grammar) :
    Closes like true bound (ParsedAlike like.kept) (foreignRule g) (foreignRule h) := by
  refine .bind (fun _ => (agrees_word (by decide)).maybe) fun _ _ _ => ?_
  refine .bind (fun _ => (agrees_word (by decide)).zero) fun _ _ _ => ?_
  refine closes_ahead (respectsAll_word (by decide)) fun answer => .ite Iff.rfl ?_ ?_
  · refine .bind (fun _ => (agrees_word (by decide)).zero) fun _ _ _ => ?_
    refine .bind (fun _ => agrees_segment.zero) fun _ _ _ => ?_
    have other (opened : Bool) :=
      (@agrees_word like opened bound "as" (by decide)).zero.seqRight agrees_anyWord
    refine .bind (fun opened => (other opened).maybe) fun _ _ _ => ?_
    exact closes_semicolon fun _ _ _ => ⟨_, _, rfl, rfl, ⟨.other, .nil⟩⟩
  · refine .bind (fun _ => agrees_literal.maybe) fun _ _ _ => ?_
    exact ((groupLast_itemBlock g).thenPure fun _ => ⟨_, rfl⟩).closes

theorem moduleRule_closes (g h : Grammar) :
    Closes like true bound (ParsedAlike like.kept) (moduleRule g) (moduleRule h) := by
  refine .bind (fun _ => (agrees_word (by decide)).zero) fun _ _ _ => ?_
  refine .bind (fun _ => agrees_name.zero) fun _ _ _ => ?_
  refine closes_ahead respectsAll_semicolon fun answer => .ite Iff.rfl ?_ ?_
  · exact closes_semicolon fun _ _ _ => ⟨_, _, rfl, rfl, ⟨.other, .nil⟩⟩
  · exact ((groupLast_itemBlock g).thenPure fun _ => ⟨_, rfl⟩).closes

theorem typeAliasRule_closes (grammars : Agree like bound g h) :
    Closes like grouped (bound + 1) (ParsedAlike like.kept) (typeAliasRule g) (typeAliasRule h) := by
  have condition (opened : Bool) := @whereClause_agrees like opened bound g h grammars
  refine .andThen (fun _ => agrees_word (by decide)) fun _ _ _ => ?_
  refine .bind (fun _ => agrees_name.zero) fun _ _ _ => .bind (fun _ => generics_agrees) fun _ _ _ => ?_
  refine .bind (fun _ => (boundsClause_agrees grammars).below (Nat.le_succ _)) fun _ _ _ => ?_
  refine .bind condition fun _ _ _ => ?_
  have type (opened : Bool) :=
    (@agrees_mark like opened bound '=' fun _ => by decide).zero.seqRight (grammars.type opened)
  refine .bind (fun opened => (type opened).maybe) fun _ _ type => .bind condition fun _ _ _ => ?_
  exact closes_semicolon fun _ _ _ => ⟨_, _, rfl, rfl, ⟨.other, fragmentsAlike_getD type⟩⟩

theorem importOf_closes (depth : Nat) :
    Closes like grouped bound (ParsedAlike like.kept) (importOf depth) (importOf depth) := by
  refine .bind (fun _ => (importTree_agrees depth).zero) fun _ _ _ => ?_
  exact closes_semicolon fun _ _ _ => ⟨_, _, rfl, rfl, ⟨.other, .nil⟩⟩

theorem useRule_closes : Closes like grouped bound (ParsedAlike like.kept) useRule useRule := by
  refine .bind (fun _ => (agrees_word (by decide)).zero) fun _ _ _ => ?_
  intro pairs alike light value read
  have count : RespectsAll like fun trees =>
      (Tree.allTokens (trees.takeWhile fun tree => !tree.isMark ';')).length :=
    fun _ _ _ _ ends alike => length_takeWhile_alike ends alike
  refine (importOf_closes _ pairs alike light value read).imp count alike fun trees same => ?_
  change _ = importOf _ trees
  rw [same]

/-! ## Macros -/

theorem macroRulesRule_closes :
    Closes like true bound (ParsedAlike like.kept) macroRulesRule macroRulesRule := by
  refine .bind (fun _ => (agrees_word (by decide)).zero) fun _ _ _ => ?_
  refine .bind (fun _ => (agrees_mark fun _ => by decide).zero) fun _ _ _ => ?_
  refine .bind (fun _ => agrees_anyWord.zero) fun _ _ names => ?_
  refine closes_ahead (respectsAll_group _) fun answer => .ite Iff.rfl ?_ ?_
  · exact ((groupLast_inside _ _).thenPure fun _ => ⟨_, rfl⟩).closes
  · have rules (opened : Bool) (delimiter : Delimiter) :
        Agrees like opened 1 bound (List.Forall₂ (RuleAlike like.kept))
          (inside delimiter macroRuleList) (inside delimiter macroRuleList) :=
      macroRuleList_agrees.inside.below (Nat.le_succ _)
    refine closes_optional (fun opened => ((rules opened _).orElse (rules opened _)).zero)
      ((groupLast_inside _ _).orElse (groupLast_inside _ _)) ?_ ?_
    · intro value trees result read
      obtain ⟨found, readMark, _⟩ := exists_of_thenPure (fun _ => ⟨_, rfl⟩) read
      rcases eq_of_maybe_mark readMark with none | ⟨token, isMark, only⟩
      · exact .inl none
      · exact .inr ⟨token, by simpa [Tree.isMark] using isMark, only⟩
    · intro value value' token token' result rest values kind' read
      obtain ⟨found, _, same⟩ := exists_of_thenPure (fun _ => ⟨_, rfl⟩) read
      obtain ⟨rfl, _⟩ := Prod.mk.inj (Option.some.inj (congrFun same []))
      refine ⟨⟨.macroRules (given _) value', []⟩, ⟨.macroRules (.of_tokens names) values, .nil⟩, ?_⟩
      change (maybe (mark ';') (.leaf token' :: rest)).bind _ = _
      rw [maybe, mark, Parser.token, if_pos (by simp [Tree.isMark, kind'])]
      rfl

theorem macroDefinitionRule_closes :
    Closes like true bound (ParsedAlike like.kept) macroDefinitionRule macroDefinitionRule := by
  refine .bind (fun _ => (agrees_word (by decide)).zero) fun _ _ _ => ?_
  refine .bind (fun _ => agrees_name.zero) fun _ _ _ => GroupLast.closes ?_
  intro trees value read
  obtain ⟨⟨first, left⟩, readFirst, readMore⟩ := Option.bind_eq_some_iff.mp read
  obtain ⟨found, readSecond, _⟩ := exists_of_thenPure (fun _ => ⟨_, rfl⟩) readMore
  obtain ⟨delimiter, opening, inner, closing, rfl, rfl⟩ := anyGroup_eq_some readFirst
  rw [maybe] at readSecond
  split at readSecond
  · rename_i second rest readGroup
    obtain ⟨_, rfl⟩ := Prod.mk.inj (Option.some.inj readSecond)
    obtain ⟨_, _, _, _, rfl, rfl⟩ := anyGroup_eq_some readGroup
    exact ⟨[.group delimiter opening inner closing], _, _, _, _, rfl⟩
  · obtain ⟨_, rfl⟩ := Prod.mk.inj (Option.some.inj readSecond)
    exact ⟨[], _, _, _, _, rfl⟩

theorem groupLast_macroCall : GroupLast macroCall := by
  have here (start line : Nat) : GroupLast (macroCallAt start line) := by
    refine .bind (@steady_plainPath .block true).withText.settles fun read => ?_
    refine GroupLast.thenPure ?_ fun _ => ⟨_, rfl⟩
    refine .bind (@steady_mark .block true '!' (by decide)).settles fun _ => ?_
    exact groupLast_anyGroup.thenPure fun _ => ⟨_, rfl⟩
  intro trees value read
  cases trees with
  | nil => cases read
  | cons tree rest =>
      rw [macroCall_cons] at read
      split at read
      · cases read
      · exact here _ _ _ _ read

theorem macroCallRule_closes :
    Closes like true bound (ParsedAlike like.kept) macroCallRule macroCallRule := by
  change Closes like true bound _ (macroCall >>= behindCall) (macroCall >>= behindCall)
  refine closes_optional (fun _ => macroCall_agrees.zero) groupLast_macroCall ?_ ?_
  · intro fragment trees result read
    rcases eq_of_behindCall read with none | ⟨token, isMark, only⟩
    · exact .inl none
    · exact .inr ⟨token, by simpa [Tree.isMark] using isMark, only⟩
  · intro fragment fragment' token token' result rest alike kind' read
    cases alike with
    | @macroCall path path' arguments arguments' start start' line line' paths texts delimiters starts =>
        rw [behindCall] at read ⊢
        split at read
        · rename_i loose
          obtain ⟨_, _, same⟩ := exists_of_thenPure (fun _ => ⟨_, rfl⟩) read
          obtain ⟨rfl, _⟩ := Prod.mk.inj (Option.some.inj (congrFun same []))
          rw [if_pos (delimiters ▸ loose)]
          refine ⟨⟨.macroCall path' arguments', [.macroCall path' arguments' start' line']⟩,
            ⟨.macroCall paths texts, .cons ?_ .nil⟩, ?_⟩
          · exact .macroCall paths texts delimiters starts
          · change ((maybe (mark ';') (.leaf token' :: rest)).bind _).bind _ = _
            rw [maybe, mark, Parser.token, if_pos (by simp [Tree.isMark, kind'])]
            rfl
        · cases (Prod.mk.inj (Option.some.inj read)).2
    | binding _ _ _ => cases read
    | call _ _ _ => cases read
    | arm _ _ => cases read

/-! ## Items -/

theorem itemRule_closes (grammars : Agree like bound g h) :
    Closes like true (bound + 1) (ParsedAlike like.kept) (itemRule g) (itemRule h) := by
  refine closes_ahead respectsAll_semicolon fun answer => .ite Iff.rfl ?_ ?_
  · exact closes_semicolon fun _ _ _ => ⟨_, _, rfl, rfl, ⟨.other, .nil⟩⟩
  refine .bind (fun _ => visibility_agrees) fun _ _ _ => ?_
  have words (names : List String) (known : ∀ name ∈ names, name ∈ keywords) :
      RespectsAll like (headIsWord names) := respectsAll_word known
  have contextual (keyword : String) (known : keyword ∈ keywords) :
      RespectsAll like (startsContextual keyword) := fun _ => startsContextual_respects known
  have modified (names : List String) (known : ∀ name ∈ names, name ∈ keywords) :
      RespectsAll like fun trees => headIsWord names (behindModifiers trees) :=
    fun _ => behindModifiers_respects known
  have macroRules : RespectsAll like startsMacroRules := fun _ => startsMacroRules_respects
  refine closes_get_ite (fun _ => startsFunction_respects) (functionRule_closes grammars) ?_
  refine closes_get_ite macroRules (macroRulesRule_closes.guarded macroRules) ?_
  refine closes_get_ite (contextual _ (by decide))
    ((unionRule_closes grammars).guarded (contextual _ (by decide))) ?_
  refine closes_get_ite (contextual _ (by decide))
    (macroDefinitionRule_closes.guarded (contextual _ (by decide))) ?_
  refine closes_get_ite (words _ (by decide))
    ((structRule_closes grammars).guarded (words _ (by decide))) ?_
  refine closes_get_ite (words _ (by decide))
    ((enumRule_closes grammars).guarded (words _ (by decide))) ?_
  refine closes_get_ite (words _ (by decide))
    ((valueRule_closes grammars).guarded (words _ (by decide))) ?_
  refine closes_get_ite (words _ (by decide))
    ((moduleRule_closes g h).guarded (words _ (by decide))) ?_
  refine closes_get_ite (words _ (by decide)) (useRule_closes.guarded (words _ (by decide))) ?_
  refine closes_get_ite (words _ (by decide))
    ((typeAliasRule_closes grammars).guarded (words _ (by decide))) ?_
  refine closes_get_ite (modified _ (by decide)) (implementationRule_closes grammars) ?_
  refine closes_get_ite (modified _ (by decide)) (traitRule_closes grammars) ?_
  exact closes_get_ite (modified _ (by decide))
    ((foreignRule_closes g h).guarded (modified _ (by decide))) macroCallRule_closes

end Grammar

end ProgramIdl.Syntax
