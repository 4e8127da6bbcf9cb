import ProgramIdl.Proofs.Syntax.Agreement.Item
import ProgramIdl.Proofs.Syntax.Steady.Ending

/-!
# Items that end with a group

An item that ends with a group is read the same whatever stands behind it, unless a semicolon or
another group follows, which may belong to the call or the definition of a macro.
-/

set_option autoImplicit false

namespace ProgramIdl.Syntax

open ProgramIdl.Syntax.Parser

namespace Grammar

variable {whole : List Tree} {depth : Nat}

/-! ## Conditions -/

theorem overlooksBehind_isWord (names : List String) : OverlooksBehind (headIsWord names) :=
  fun _ _ _ _ _ => overlooks_isWord names

/-- The trees behind the first ones that satisfy a condition which no group satisfies. -/
theorem overlooksBehind_dropWhile {passed wanted : Tree → Bool}
    (plain : ∀ delimiter opening inner closing,
      passed (Tree.group delimiter opening inner closing) = false) :
    OverlooksBehind fun trees => headIs wanted (trees.dropWhile passed) := by
  intro delimiter opening closing inner rest front
  change headIs wanted ((front ++ [Tree.group delimiter opening inner closing]).dropWhile passed) =
    headIs wanted ((front ++ Tree.group delimiter opening inner closing :: rest).dropWhile passed)
  induction front with
  | nil => simp [plain, headIs]
  | cons tree front inductionHypothesis =>
      simp only [List.cons_append, List.dropWhile_cons]
      split
      · exact inductionHypothesis
      · rfl

theorem overlooksBehind_modifiers (names : List String) :
    OverlooksBehind fun trees => headIsWord names (behindModifiers trees) :=
  overlooksBehind_dropWhile fun _ _ _ _ => by simp [Tree.isWord]

/-- The words and literals that may stand in front of `fn`. -/
def isQualifier (tree : Tree) : Bool :=
  ["const", "async", "unsafe", "safe", "default", "extern", "gen"].any tree.isWord
    || tree.isKind .literal

theorem behindQualifiers_eq (trees : List Tree) :
    behindQualifiers trees = trees.dropWhile isQualifier := by
  induction trees with
  | nil => rfl
  | cons tree rest inductionHypothesis =>
      rw [behindQualifiers, List.dropWhile_cons, inductionHypothesis]
      rfl

theorem startsFunction_eq (trees : List Tree) :
    startsFunction trees = headIsWord ["fn"] (trees.dropWhile isQualifier) := by
  rw [startsFunction, behindQualifiers_eq]

theorem overlooksBehind_function : OverlooksBehind startsFunction := by
  rw [funext startsFunction_eq]
  exact overlooksBehind_dropWhile fun _ _ _ _ => by simp [isQualifier, Tree.isWord, Tree.isKind]

theorem overlooksBehind_drop {first : Tree → Bool} {condition : List Tree → Bool}
    (plain : ∀ delimiter opening inner closing,
      first (Tree.group delimiter opening inner closing) = false)
    (overlooks : OverlooksBehind condition) :
    OverlooksBehind fun trees => headIs first trees && condition (trees.drop 1) := by
  intro delimiter opening closing inner rest front
  cases front with
  | nil => simp [Stop.behind, Stop.here, Stop.there, headIs, plain]
  | cons tree front =>
      simp only [Stop.short_cons, Stop.long_cons, headIs, List.drop_succ_cons, List.drop_zero]
      rw [overlooks delimiter opening closing inner rest front]

theorem overlooksBehind_contextual (keyword : String) : OverlooksBehind (startsContextual keyword) := by
  rw [funext (startsContextual_eq keyword)]
  exact overlooksBehind_drop (fun _ _ _ _ => rfl) fun _ _ _ _ _ => overlooks_headIs rfl

theorem overlooksBehind_macroRules : OverlooksBehind startsMacroRules := by
  rw [funext startsMacroRules_eq]
  refine overlooksBehind_drop (fun _ _ _ _ => rfl) <| overlooksBehind_drop (fun _ _ _ _ => rfl) ?_
  exact fun _ _ _ _ _ => overlooks_isKind _

/-! ## Keywords -/

theorem isWord_other {tree : Tree} {name other : String} (is : tree.isWord name = true)
    (differ : name ≠ other) : tree.isWord other = false := by
  cases tree with
  | group _ _ _ _ => rfl
  | leaf token =>
      have text : token.kind = .word ∧ token.text = name.toList := by simpa [Tree.isWord] using is
      simpa [Tree.isWord, text, String.toList_inj] using differ

/-- Where a keyword stands behind some words, what is in front of the keyword are these words. -/
theorem guarded_skipWhile {α : Type} {passed : Tree → Bool} {keyword : String}
    (other : ∀ tree, passed tree = true → tree.isWord keyword = false) (parser : Parser α) :
    guarded (fun trees => headIsWord [keyword] (trees.dropWhile passed))
        (skipWhile (fun tree => !tree.isWord keyword) >>= fun _ => parser) =
      guarded (fun trees => headIsWord [keyword] (trees.dropWhile passed))
        (skipWhile passed >>= fun _ => parser) := by
  funext trees
  rw [guarded, guarded]
  split
  · rename_i starts
    have same : trees.dropWhile (fun tree => !tree.isWord keyword) = trees.dropWhile passed := by
      conv_lhs => rw [← List.takeWhile_append_dropWhile (p := passed) (l := trees)]
      rw [List.dropWhile_append_of_pos]
      · cases left : trees.dropWhile passed with
        | nil => rfl
        | cons tree rest =>
            rw [left] at starts
            rw [List.dropWhile_cons_of_neg]
            simpa [headIsWord, headIs] using starts
      · intro tree listed
        simp [other tree (List.all_eq_true.mp List.all_takeWhile tree listed)]
    change parser (trees.dropWhile _) = parser (trees.dropWhile _)
    rw [same]
  · rfl

/-- The words that may stand in front of the keyword of an implementation, a trait or a block of
foreign items. -/
def isModifier (tree : Tree) : Bool :=
  ["unsafe", "auto", "default"].any tree.isWord

theorem modifier_other {keyword : String} (differ : keyword ∉ ["unsafe", "auto", "default"])
    (tree : Tree) (is : isModifier tree = true) : tree.isWord keyword = false := by
  obtain ⟨name, listed, isName⟩ := List.any_eq_true.mp is
  exact isWord_other isName fun same => differ (same ▸ listed)

theorem qualifier_other (tree : Tree) (is : isQualifier tree = true) : tree.isWord "fn" = false := by
  rw [isQualifier, Bool.or_eq_true] at is
  rcases is with word | literal
  · obtain ⟨name, listed, isName⟩ := List.any_eq_true.mp word
    refine isWord_other isName ?_
    rintro rfl
    exact absurd listed (by decide)
  · cases tree with
    | group _ _ _ _ => rfl
    | leaf token =>
        have kind : token.kind = .literal := by simpa [Tree.isKind] using literal
        simp [Tree.isWord, kind]

section Skipped

variable {stop : Stop} {passing : Bool}

theorem steady_modifiers : SteadyBefore stop passing (skipWhile isModifier) := by
  refine steady_skipWhile (fun tree is => ?_) ⟨rfl, rfl⟩
  obtain ⟨name, _, isName⟩ := List.any_eq_true.mp is
  exact isQuiet_of_isWord isName

theorem steady_qualifiers : SteadyBefore stop passing (skipWhile isQualifier) := by
  refine steady_skipWhile (fun tree is => ?_) ⟨rfl, rfl⟩
  rw [isQualifier, Bool.or_eq_true] at is
  rcases is with word | literal
  · obtain ⟨name, _, isName⟩ := List.any_eq_true.mp word
    exact isQuiet_of_isWord isName
  · exact isQuiet_of_kind literal fun _ => by simp

end Skipped

theorem guarded_function {α : Type} (parser : Parser α) :
    guarded startsFunction (skipWhile (fun tree => !tree.isWord "fn") >>= fun _ => parser) =
      guarded startsFunction (skipWhile isQualifier >>= fun _ => parser) := by
  rw [funext startsFunction_eq]
  exact guarded_skipWhile qualifier_other parser

theorem guarded_modified {α : Type} {keyword : String}
    (differ : keyword ∉ ["unsafe", "auto", "default"]) (parser : Parser α) :
    guarded (fun trees => headIsWord [keyword] (behindModifiers trees))
        (skipWhile (fun tree => !tree.isWord keyword) >>= fun _ => parser) =
      guarded (fun trees => headIsWord [keyword] (behindModifiers trees))
        (skipWhile isModifier >>= fun _ => parser) :=
  guarded_skipWhile (modifier_other differ) parser

/-! ## Rules -/

section Rules

theorem steady_generics {stop : Stop} {passing : Bool} : SteadyBefore stop passing generics :=
  steady_angles.maybe.skip

/-- The steady start of a rule: its keyword, and the name behind it. -/
theorem concludes_keyword {α : Type} {braces : Bool} {keyword : String} {next : Token → Parser α}
    (ends : ∀ word, Concludes whole braces (next word)) :
    Concludes whole braces (word keyword >>= next) :=
  .bind (fun _ _ _ _ _ _ => steady_word keyword) rfl ends

theorem concludes_named {α : Type} {braces : Bool} {next : Token → Parser α}
    (ends : ∀ token, Concludes whole braces (next token)) : Concludes whole braces (name >>= next) :=
  .bind (fun _ _ _ _ _ _ => steady_name) rfl ends

theorem concludes_generics {α : Type} {braces : Bool} {next : Unit → Parser α}
    (ends : ∀ value, Concludes whole braces (next value)) : Concludes whole braces (generics >>= next) :=
  .bind (fun _ _ _ _ _ _ => steady_generics) (ends ()).of_nil ends

theorem concludes_whereClause {α : Type} {next : Unit → Parser α}
    (ends : ∀ value, ConcludesAlone whole true (next value)) :
    Concludes whole true (whereClause (ofDepth depth) >>= next) :=
  .reached (fun _ _ _ _ _ isBrace => reaches_whereClause (isBrace rfl)) (ends ()).of_nil ends

theorem concludesAlone_itemBlock (g : Grammar) : ConcludesAlone whole true (itemBlock g) :=
  concludesAlone_inside _

theorem concludesAlone_namedFields (g : Grammar) : ConcludesAlone whole true (namedFields g) :=
  (concludesAlone_inside _).thenPure fun _ => ⟨_, rfl⟩

theorem never_mark {α : Type} (c : Char) (result : Token → Parser α)
    (pure_ : ∀ token, ∃ value, result token = pure value) : Never whole (mark c >>= result) :=
  never_token _ result pure_

theorem settles_whereClause : Settles (whereClause (ofDepth depth)) :=
  (@reaches_whereClause .block rfl depth).settles

theorem concludes_structRule : Concludes whole true (structRule (ofDepth depth)) := by
  refine concludes_keyword fun _ => concludes_named fun token => ?_
  refine concludes_generics fun _ => concludes_whereClause fun _ => ?_
  refine concludesAlone_ahead fun answer => .ite ?_ (concludesAlone_ahead fun answer => .ite ?_ ?_)
  · exact (concludesAlone_namedFields _).thenPure fun _ => ⟨_, rfl⟩
  · refine Never.concludesAlone ?_ rfl
    refine .bind ?_ (fun fragments => .bind settles_whereClause (fun _ => ?_) fun _ => rfl)
      fun _ => rfl
    · exact (settles_inside _ _).bind fun _ => settles_pure _
    · exact never_mark _ _ fun _ => ⟨_, rfl⟩
  · exact (never_mark _ _ fun _ => ⟨_, rfl⟩).concludesAlone rfl

theorem concludes_unionRule : Concludes whole true (unionRule (ofDepth depth)) := by
  refine concludes_keyword fun _ => concludes_named fun _ => ?_
  refine concludes_generics fun _ => concludes_whereClause fun _ => ?_
  exact (concludesAlone_namedFields _).thenPure fun _ => ⟨_, rfl⟩

theorem concludes_enumRule : Concludes whole true (enumRule (ofDepth depth)) := by
  refine concludes_keyword fun _ => concludes_named fun token => ?_
  refine concludes_generics fun _ => concludes_whereClause fun _ => ?_
  exact (concludesAlone_inside _).thenPure fun _ => ⟨_, rfl⟩

theorem type_nil : (ofDepth depth).type [] = none := by
  cases depth with
  | zero => rfl
  | succ depth => rfl

theorem concludes_functionRule :
    Concludes whole true (guarded startsFunction (functionRule (ofDepth depth))) := by
  rw [functionRule, guarded_function]
  refine .guarded (.bind (fun _ _ _ _ _ _ => steady_qualifiers) rfl fun _ => ?_)
    overlooksBehind_function
  refine concludes_keyword fun _ => concludes_named fun token => concludes_generics fun _ => ?_
  refine .bind (fun _ _ _ _ _ isBrace => steady_inside (by simp [Stop.behind, isBrace rfl]) _) rfl
    fun parameters => ?_
  refine .bind (fun _ _ _ _ _ isBrace => steady_resultType (steady_type (isBrace rfl) depth)) rfl
    fun result => concludes_whereClause fun _ => ?_
  refine concludesAlone_ahead fun answer => .ite ?_ ?_
  · exact (concludesAlone_inside _).thenPure fun _ => ⟨_, rfl⟩
  · exact (never_mark _ _ fun _ => ⟨_, rfl⟩).concludesAlone rfl

theorem concludes_implementationRule : Concludes whole true
    (guarded (fun trees => headIsWord ["impl"] (behindModifiers trees))
      (implementationRule (ofDepth depth))) := by
  rw [implementationRule, guarded_modified (by decide)]
  refine .guarded (.bind (fun _ _ _ _ _ _ => steady_modifiers) rfl fun _ => ?_)
    (overlooksBehind_modifiers _)
  refine concludes_keyword fun _ => concludes_generics fun _ => ?_
  refine .optional (fun _ _ _ _ _ _ => steady_word "const") rfl fun _ => ?_
  refine .optional (fun _ _ _ _ _ _ => steady_mark (by decide)) rfl fun _ => ?_
  refine .bind (fun _ _ _ _ _ isBrace => (steady_type (isBrace rfl) depth).withText) ?_ fun first => ?_
  · change (withText (ofDepth depth).type []).bind _ = none
    rw [withText, type_nil]
    rfl
  refine .optional (fun _ _ _ _ _ isBrace =>
    (steady_word "for").bind fun _ => (steady_type (isBrace rfl) depth).withText) rfl fun second => ?_
  refine concludes_whereClause fun _ => ?_
  refine (concludesAlone_itemBlock _).thenPure fun items => ?_
  cases second with
  | some target => exact ⟨_, rfl⟩
  | none => exact ⟨_, rfl⟩

theorem concludes_traitRule : Concludes whole true
    (guarded (fun trees => headIsWord ["trait"] (behindModifiers trees))
      (traitRule (ofDepth depth))) := by
  rw [traitRule, guarded_modified (by decide)]
  refine .guarded (.bind (fun _ _ _ _ _ _ => steady_modifiers) rfl fun _ => ?_)
    (overlooksBehind_modifiers _)
  refine concludes_keyword fun _ => concludes_named fun _ => concludes_generics fun _ => ?_
  refine .bind (fun _ _ _ _ _ isBrace => ?_) rfl fun _ => concludes_whereClause fun _ => ?_
  · exact ((steady_mark (by decide)).bind fun _ =>
      (steady_bounds (isBrace rfl) (steady_type (isBrace rfl) depth)).maybe).maybe.skip
  refine concludesAlone_ahead fun answer => .ite ?_ ?_
  · exact ((never_mark _ _ fun _ => ⟨_, rfl⟩).skipped rfl _).concludesAlone rfl
  · exact (concludesAlone_itemBlock _).thenPure fun _ => ⟨_, rfl⟩

theorem concludes_foreignRule : Concludes whole true (foreignRule (ofDepth depth)) := by
  refine .optional (fun _ _ _ _ _ _ => steady_word "unsafe") rfl fun _ => ?_
  refine concludes_keyword fun _ => concludes_ahead (overlooksBehind_isWord _) fun answer => ?_
  have crate : Never whole (do
      let _ ← word "crate"
      let _ ← segment
      let _ ← maybe (word "as" *> anyWord)
      let _ ← mark ';'
      return ⟨.other, []⟩ : Parser ParsedItem) := by
    have other : Settles (maybe (word "as" *> anyWord)) :=
      ((@steady_word .block true "as").settles.bind fun _ =>
        (@steady_anyWord .block true).settles).maybe
    refine .bind (@steady_word .block true "crate").settles (fun _ => ?_) fun _ => rfl
    refine .bind (@steady_segment .block true).settles (fun _ => ?_) fun _ => rfl
    exact .bind other (fun _ => never_mark _ _ fun _ => ⟨_, rfl⟩) fun _ => rfl
  cases answer with
  | true => exact (crate.concludesAlone rfl).toConcludes
  | false =>
      refine .optional (fun _ _ _ _ _ _ => steady_literal) rfl fun _ => ?_
      exact ((concludesAlone_itemBlock _).thenPure fun _ => ⟨_, rfl⟩).toConcludes

theorem concludes_moduleRule : Concludes whole true (moduleRule (ofDepth depth)) := by
  refine concludes_keyword fun _ => concludes_named fun _ => ?_
  refine (concludesAlone_ahead fun answer => .ite ?_ ?_).toConcludes
  · exact (never_mark _ _ fun _ => ⟨_, rfl⟩).concludesAlone rfl
  · exact (concludesAlone_itemBlock _).thenPure fun _ => ⟨_, rfl⟩

/-! ## Macros -/

theorem concludes_macroRulesRule : Concludes whole false macroRulesRule := by
  refine concludes_keyword fun _ => ?_
  refine .bind (fun _ _ _ _ _ _ => steady_mark (by decide)) rfl fun _ => ?_
  refine .bind (fun _ _ _ _ _ _ => steady_anyWord) rfl fun token => ?_
  refine (concludesAlone_ahead fun answer => .ite ?_ ?_).toConcludes
  · exact ((takesOne_inside _ _).concludesAlone).thenPure fun _ => ⟨_, rfl⟩
  · exact ((takesOne_inside _ _).orElse (takesOne_inside _ _)).maybeSemicolon _

theorem maybe_anyGroup {trees : List Tree}
    (none_ : ∀ delimiter, headIs (Tree.isGroup delimiter) trees = false) :
    maybe anyGroup trees = some (none, trees) := by
  cases trees with
  | nil => rfl
  | cons tree rest =>
      cases tree with
      | leaf _ => rfl
      | group delimiter _ _ _ =>
          have no := none_ delimiter
          simp [headIs, Tree.isGroup] at no

theorem anyGroup_eq_some {trees left : List Tree} {found : Tree}
    (read : anyGroup trees = some (found, left)) :
    ∃ delimiter opening inner closing, found = .group delimiter opening inner closing ∧
      trees = found :: left := by
  cases trees with
  | nil => cases read
  | cons tree rest =>
      cases tree with
      | leaf _ => cases read
      | group delimiter opening inner closing =>
          obtain ⟨rfl, rfl⟩ := Prod.mk.inj (Option.some.inj read)
          exact ⟨_, _, _, _, rfl, rfl⟩

/-- One group or two. -/
theorem concludes_groups {α : Type} (value : α) :
    Concludes whole false (anyGroup >>= fun _ => maybe anyGroup >>= fun _ => pure value) := by
  have cases_ {front inner : List Tree} {delimiter : Delimiter} {opening closing : Token} {result : α}
      (read : (anyGroup >>= fun _ => maybe anyGroup >>= fun _ => pure value)
        (front ++ [.group delimiter opening inner closing]) = some (result, [])) :
      result = value ∧ (front = [] ∨ ∃ first, first.isQuiet = true ∧ front = [first] ∧
        ∀ rest, anyGroup (first :: rest) = some (first, rest)) := by
    obtain ⟨⟨found, left⟩, readFirst, readMore⟩ := Option.bind_eq_some_iff.mp read
    obtain ⟨⟨second, last⟩, readSecond, same⟩ := Option.bind_eq_some_iff.mp readMore
    obtain ⟨rfl, rfl⟩ := Prod.mk.inj (Option.some.inj same)
    refine ⟨rfl, ?_⟩
    obtain ⟨delimiter', opening', inner', closing', rfl, split⟩ := anyGroup_eq_some readFirst
    cases front with
    | nil => exact .inl rfl
    | cons tree front =>
        obtain ⟨rfl, rfl⟩ := List.cons.inj split
        refine .inr ⟨_, isQuiet_group delimiter' opening' closing' inner', ?_, fun _ => rfl⟩
        rw [maybe] at readSecond
        split at readSecond
        · rename_i found rest readGroup
          obtain ⟨_, rfl⟩ := Prod.mk.inj (Option.some.inj readSecond)
          obtain ⟨_, _, _, _, rfl, split⟩ := anyGroup_eq_some readGroup
          cases front with
          | nil => rfl
          | cons _ _ => simp at split
        · have nothing := (Prod.mk.inj (Option.some.inj readSecond)).2
          simp at nothing
  refine ⟨rfl, fun _ read => ?_, fun _ read follows => ?_⟩
  · obtain ⟨_, rfl | ⟨first, quiet, rfl, _⟩⟩ := cases_ read
    · exact ⟨.nil, by simp⟩
    · exact ⟨settled_quiet quiet, by simp⟩
  · obtain ⟨rfl, rfl | ⟨first, _, rfl, takes⟩⟩ := cases_ read
    · change (maybe anyGroup _).bind _ = _
      rw [maybe_anyGroup follows.group]
      rfl
    · change (anyGroup (first :: _)).bind _ = _
      rw [takes]
      rfl

theorem concludes_macroDefinitionRule : Concludes whole false macroDefinitionRule :=
  concludes_keyword fun _ => concludes_named fun _ => concludes_groups _

theorem concludes_macroCallAt (start line : Nat) : Concludes whole false (macroCallAt start line) := by
  refine .bind (fun _ _ _ _ _ _ => steady_plainPath.withText) rfl fun read => ?_
  refine Concludes.thenPure ?_ fun _ => ⟨_, rfl⟩
  refine .bind (fun _ _ _ _ _ _ => steady_mark (by decide)) rfl fun _ => ?_
  exact (takesOne_anyGroup.concludesAlone.thenPure fun _ => ⟨_, rfl⟩).toConcludes

/-- A macro call does not start with its group. -/
theorem exists_of_macroCall {front inner : List Tree} {delimiter : Delimiter} {opening closing : Token}
    {value : Fragment}
    (read : macroCall (front ++ [.group delimiter opening inner closing]) = some (value, [])) :
    ∃ tree behind, front = tree :: behind ∧ tree.isWord "macro_rules" = false ∧
      macroCallAt tree.first.start tree.first.line
        (front ++ [.group delimiter opening inner closing]) = some (value, []) := by
  cases front with
  | nil =>
      rw [List.nil_append, macroCall_group] at read
      cases read
  | cons tree front =>
      rw [List.cons_append, macroCall_cons] at read
      split at read
      · cases read
      · rename_i other
        exact ⟨tree, front, rfl, by simpa using other, read⟩

theorem concludes_macroCall : Concludes whole false macroCall where
  of_nil := rfl
  settled within read := by
    obtain ⟨_, _, _, _, readAt⟩ := exists_of_macroCall read
    exact (concludes_macroCallAt _ _).settled within readAt
  continues within read follows := by
    obtain ⟨tree, behind, rfl, other, readAt⟩ := exists_of_macroCall read
    rw [List.cons_append, macroCall_cons, other]
    exact (concludes_macroCallAt _ _).continues within readAt follows

/-- What stands behind the call of a macro in the place of an item. -/
def behindCall (fragment : Fragment) : Parser ParsedItem :=
  match fragment with
  | .macroCall path arguments _ _ => do
      if arguments.toList.head? ≠ some '\x7b' then skip (maybe (mark ';'))
      return ⟨.macroCall path arguments, [fragment]⟩
  | _ => failure

theorem eq_of_behindCall {fragment : Fragment} {trees left : List Tree} {item : ParsedItem}
    (read : behindCall fragment trees = some (item, left)) :
    trees = left ∨ ∃ token, Tree.isMark ';' (.leaf token) = true ∧ trees = .leaf token :: left := by
  cases fragment with
  | macroCall path arguments start line =>
      rw [behindCall] at read
      split at read
      · obtain ⟨⟨_, middle⟩, readMark, same⟩ := Option.bind_eq_some_iff.mp read
        obtain ⟨⟨_, last⟩, readMaybe, skipped⟩ := Option.bind_eq_some_iff.mp readMark
        obtain ⟨_, rfl⟩ := Prod.mk.inj (Option.some.inj skipped)
        obtain ⟨_, rfl⟩ := Prod.mk.inj (Option.some.inj same)
        exact eq_of_maybe_mark readMaybe
      · obtain ⟨_, rfl⟩ := Prod.mk.inj (Option.some.inj read)
        exact .inl rfl
  | _ => cases read

theorem behindCall_of_follows {fragment : Fragment} {item : ParsedItem} {rest : List Tree}
    (read : behindCall fragment [] = some (item, [])) (follows : Follows rest) :
    behindCall fragment rest = some (item, rest) := by
  cases fragment with
  | macroCall path arguments start line =>
      have here : behindCall (.macroCall path arguments start line) [] =
          some (⟨.macroCall path arguments, [.macroCall path arguments start line]⟩, []) := by
        rw [behindCall]
        split
        · rfl
        · rfl
      obtain ⟨rfl, _⟩ := Prod.mk.inj (Option.some.inj (here.symm.trans read))
      rw [behindCall]
      split
      · change ((maybe (mark ';') rest).bind _).bind _ = _
        rw [maybe_mark follows.mark]
        rfl
      · rfl
  | _ => cases read

theorem concludes_macroCallRule : Concludes whole false macroCallRule := by
  have taken {front inner : List Tree} {delimiter : Delimiter} {opening closing : Token}
      {item : ParsedItem}
      (read : macroCallRule (front ++ [.group delimiter opening inner closing]) = some (item, [])) :
      ∃ fragment, macroCall (front ++ [.group delimiter opening inner closing]) = some (fragment, []) ∧
        behindCall fragment [] = some (item, []) := by
    obtain ⟨⟨fragment, left⟩, readCall, readBehind⟩ := Option.bind_eq_some_iff.mp read
    change behindCall fragment left = some (item, []) at readBehind
    obtain ⟨before, split, _⟩ := (@steady_macroCall .block).settles _ _ _ readCall
    rcases eq_of_behindCall readBehind with rfl | ⟨token, _, rfl⟩
    · exact ⟨fragment, readCall, readBehind⟩
    · have last := congrArg List.getLast? split
      simp at last
  refine ⟨rfl, fun within read => ?_, fun within read follows => ?_⟩
  · obtain ⟨fragment, readCall, _⟩ := taken read
    exact concludes_macroCall.settled within readCall
  · obtain ⟨fragment, readCall, readBehind⟩ := taken read
    change (macroCall _).bind _ = _
    rw [concludes_macroCall.continues within readCall follows]
    exact behindCall_of_follows readBehind follows

/-! ## Items -/

theorem steady_visibility {delimiter : Delimiter} {opening closing : Token} {inner rest : List Tree} :
    SteadyBefore (.behind delimiter opening closing inner rest) true visibility := by
  refine (steady_word "pub").maybe.bind fun found => ?_
  cases found with
  | none => exact steady_pure ()
  | some _ => exact (steady_inside_same rfl _).maybe.skip

/-- Items end with a group or with a semicolon; values, imports and type aliases never end with a
group. -/
theorem concludes_itemRule (value : Never whole (valueRule (ofDepth depth)))
    (imported : Never whole useRule) (alias_ : Never whole (typeAliasRule (ofDepth depth))) :
    Concludes whole false (itemRule (ofDepth depth)) := by
  have words (names : List String) := overlooksBehind_isWord names
  refine concludes_ahead (fun _ _ _ _ _ => overlooks_isMark _) fun answer => ?_
  cases answer with
  | true => exact ((never_mark _ _ fun _ => ⟨_, rfl⟩).concludesAlone rfl).toConcludes
  | false =>
      refine .bind (fun _ _ _ _ _ _ => steady_visibility) rfl fun _ => ?_
      refine concludes_get_ite overlooksBehind_function concludes_functionRule.anyGroup ?_
      refine concludes_get_ite overlooksBehind_macroRules
        (concludes_macroRulesRule.guarded overlooksBehind_macroRules) ?_
      refine concludes_get_ite (overlooksBehind_contextual _)
        (concludes_unionRule.anyGroup.guarded (overlooksBehind_contextual _)) ?_
      refine concludes_get_ite (overlooksBehind_contextual _)
        (concludes_macroDefinitionRule.guarded (overlooksBehind_contextual _)) ?_
      refine concludes_get_ite (words _) (concludes_structRule.anyGroup.guarded (words _)) ?_
      refine concludes_get_ite (words _) (concludes_enumRule.anyGroup.guarded (words _)) ?_
      refine concludes_get_ite (words _)
        ((value.concludesAlone rfl).toConcludes.guarded (words _)) ?_
      refine concludes_get_ite (words _) (concludes_moduleRule.anyGroup.guarded (words _)) ?_
      refine concludes_get_ite (words _)
        ((imported.concludesAlone rfl).toConcludes.guarded (words _)) ?_
      refine concludes_get_ite (words _)
        ((alias_.concludesAlone rfl).toConcludes.guarded (words _)) ?_
      refine concludes_get_ite (overlooksBehind_modifiers _)
        concludes_implementationRule.anyGroup ?_
      refine concludes_get_ite (overlooksBehind_modifiers _) concludes_traitRule.anyGroup ?_
      exact concludes_get_ite (overlooksBehind_modifiers _)
        (concludes_foreignRule.anyGroup.guarded (overlooksBehind_modifiers _))
        concludes_macroCallRule

end Rules

end Grammar

end ProgramIdl.Syntax
