import Mathlib.Data.List.Find
import ProgramIdl.Proofs.Syntax.Agreement.Type
import ProgramIdl.Syntax.Grammar.Expression

/-!
# Expressions of like trees

The rules for expressions and local bindings agree over grammars that agree.  A chain keeps the text
in front of each of its links, so its links are compared on two lists of which some trees have been
taken already.
-/

set_option autoImplicit false

namespace ProgramIdl.Syntax

open ProgramIdl.Syntax.Parser

section Expressions

variable {like : Likeness}

theorem ExpressionAlike.of_fragments {fragments fragments' : List Fragment}
    (alike : FragmentsAlike like.kept fragments fragments') :
    ExpressionAlike like.kept { fragments := fragments } { fragments := fragments' } :=
  ⟨.none, alike⟩

theorem expressionsAlike_fragments {expressions expressions' : List Expression}
    (alike : List.Forall₂ (ExpressionAlike like.kept) expressions expressions') :
    FragmentsAlike like.kept (Expression.allFragments expressions)
      (Expression.allFragments expressions') :=
  List.rel_flatMap alike fun _ _ expression => expression.fragments

/-- Related results of `argument`: like texts with like fragments. -/
def ArgumentAlike (like : Likeness) (argument argument' : String × List Fragment) : Prop :=
  TextAlike like argument.1 argument'.1 ∧ FragmentsAlike like.kept argument.2 argument'.2

end Expressions

namespace Parser

variable {like : Likeness} {opened : Bool} {condition : List Tree → Bool}

/-- A condition on what follows a tree is asked for only if the tree is the right one. -/
theorem RespectsLists.behind {first : Tree → Bool} (head : Respects like opened first)
    (respects : RespectsLists like opened condition) :
    RespectsLists like opened (fun trees => headIs first trees && condition (trees.drop 1)) := by
  intro pairs tail tail' ends alike
  cases alike with
  | nil =>
      cases ends with
      | nil => rfl
      | semicolon allowed kind kind' =>
          simp only [lefts_nil, rights_nil, headIs, head.final allowed _ kind,
            head.final allowed _ kind', Bool.false_and]
  | cons trees joint behind =>
      have later := respects _ tail tail' ends behind.first
      simp only [lefts_cons, rights_cons, headIs, head.same trees, List.drop_succ_cons,
        List.drop_zero, later]

theorem respects_isEmpty : RespectsLists like opened List.isEmpty := by
  intro pairs tail tail' ends alike
  cases alike with
  | nil => cases ends <;> rfl
  | cons _ _ _ => rfl

end Parser

namespace Grammar

variable {like : Likeness} {opened : Bool} {bound : Nat} {g h : Grammar}

/-! ## Looking ahead -/

theorem startsBlockLike_eq (trees : List Tree) :
    startsBlockLike trees =
      (headIs (Tree.isGroup .brace) trees
        || (headIs (fun tree => ["if", "match", "while", "for", "loop"].any tree.isWord) trees
            && !(trees.drop 1).isEmpty)
        || (headIs (fun tree => ["unsafe", "const", "async", "try"].any tree.isWord) trees
            && headIs (Tree.isGroup .brace) (trees.drop 1))
        || (headIs (Tree.isWord "async") trees && (headIs (Tree.isWord "move") (trees.drop 1)
            && headIs (Tree.isGroup .brace) ((trees.drop 1).drop 1)))
        || (headIs (Tree.isKind .lifetime) trees && headIs (Tree.isMark ':') (trees.drop 1))) := by
  match trees with
  | [] => rfl
  | [tree] => simp [startsBlockLike, headIs]
  | tree :: next :: rest => simp [startsBlockLike, headIs, Bool.and_assoc]

theorem startsBlockLike_respects : RespectsLists like opened startsBlockLike := by
  have brace : RespectsLists like opened (headIs (Tree.isGroup .brace)) :=
    respects_headIs (respects_isGroup _)
  have colon : RespectsLists like opened (headIs (Tree.isMark ':')) :=
    respects_headIs (respects_isMark fun _ => by decide)
  have words (names : List String) (known : ∀ name ∈ names, name ∈ keywords) :
      Respects like opened (fun tree => names.any tree.isWord) := respects_anyWord known
  have lifetimes : Respects like opened (Tree.isKind .lifetime) := respects_isKind fun _ => nofun
  rw [funext startsBlockLike_eq]
  refine (((brace.or ?_).or ?_).or ?_).or ?_
  · exact (RespectsLists.not respects_isEmpty).behind (words _ (by decide))
  · exact brace.behind (words _ (by decide))
  · exact (brace.behind (respects_isWord (by decide))).behind (respects_isWord (by decide))
  · exact colon.behind lifetimes

theorem startsClosure_respects : RespectsLists like opened startsClosure := by
  intro pairs tail tail' ends alike
  have bar : Respects like opened (Tree.isMark '|') := respects_isMark fun _ => by decide
  have words : Respects like opened
      (fun tree => ["static", "async", "move", "const"].any tree.isWord) :=
    respects_anyWord (by decide)
  induction pairs with
  | nil =>
      cases ends with
      | nil => rfl
      | semicolon allowed kind kind' =>
          rw [lefts_nil, rights_nil, startsClosure, startsClosure, bar.final allowed _ kind,
            bar.final allowed _ kind', words.final allowed _ kind, words.final allowed _ kind']
          rfl
  | cons pair pairs inductionHypothesis =>
      cases alike with
      | cons trees joint behind =>
          rw [lefts_cons, rights_cons, startsClosure, startsClosure, bar.same trees, words.same trees,
            inductionHypothesis behind.first]

theorem continuesChain_respects : RespectsLists like opened continuesChain := by
  have headMark (c : Char) (kept : c ≠ ';') : RespectsLists like opened (headIs (Tree.isMark c)) :=
    respects_headIs (respects_isMark fun _ => kept)
  have dots : RespectsLists like opened (startsWithSymbol ['.', '.']) :=
    respects_symbol (by decide)
  exact (headMark '?' (by decide)).or ((headMark '.' (by decide)).and dots.not)

theorem startsExpression_eq (structs : Bool) (trees : List Tree) :
    startsExpression structs trees =
      (headIs (fun tree => tree.isSegment || tree.isKind .literal || tree.isKind .lifetime
          || tree.isGroup .parenthesis || tree.isGroup .bracket || (structs && tree.isGroup .brace)
          || ['-', '!', '*', '&', '|', '<', '#'].any tree.isMark) trees
        || startsWithSymbol [':', ':'] trees || startsWithSymbol ['.', '.'] trees
        || headIsWord ["if", "match", "while", "for", "loop", "unsafe", "async", "move", "return",
            "break", "continue", "const", "static", "let", "yield"] trees) := by
  cases trees with
  | nil => rfl
  | cons tree rest => rfl

theorem startsExpression_respects (structs : Bool) :
    RespectsLists like opened (startsExpression structs) := by
  have kind (kind : LexemeKind) (kept : kind ≠ .mark ';') :
      Respects like opened (Tree.isKind kind) := respects_isKind fun _ => kept
  have group (delimiter : Delimiter) : Respects like opened (Tree.isGroup delimiter) :=
    respects_isGroup delimiter
  have brace : Respects like opened (fun tree => structs && tree.isGroup .brace) := by
    cases structs with
    | false => exact ⟨fun _ => rfl, fun _ _ _ => rfl⟩
    | true => exact group .brace
  have marks : Respects like opened
      (fun tree => ['-', '!', '*', '&', '|', '<', '#'].any tree.isMark) :=
    respects_anyMark (by simp)
  have symbols (symbol : List Char) (operator : isOperator symbol = true) :
      RespectsLists like opened (startsWithSymbol symbol) := respects_symbol operator
  rw [funext (startsExpression_eq structs)]
  refine (((respects_headIs ?_).or (symbols _ (by decide))).or (symbols _ (by decide))).or
    (respects_headIsWord (by decide))
  exact (((((respects_isSegment.or (kind .literal nofun)).or (kind .lifetime nofun)).or
    (group .parenthesis)).or (group .bracket)).or brace).or marks

theorem mem_of_operatorAhead {trees : List Tree} {operator : String}
    (found : operatorAhead trees = some operator) : operator ∈ binaryOperators := by
  rw [operatorAhead] at found
  split at found
  · cases found
  · exact List.mem_of_find?_eq_some found

theorem operatorAhead_respects : RespectsLists like opened operatorAhead := by
  intro pairs tail tail' ends alike
  have arrow : startsWithSymbol ['=', '>'] (lefts pairs tail) =
      startsWithSymbol ['=', '>'] (rights pairs tail') :=
    startsWithSymbol_alike (by decide) ends alike
  have known : ∀ operator ∈ binaryOperators, isOperator operator.toList = true := by decide
  have operators : binaryOperators.find? (fun operator =>
        startsWithSymbol operator.toList (lefts pairs tail)) =
      binaryOperators.find? (fun operator =>
        startsWithSymbol operator.toList (rights pairs tail')) := by
    refine List.find?_congr fun operator listed => ?_
    exact startsWithSymbol_alike (known operator listed) ends alike
  rw [operatorAhead, operatorAhead, arrow, operators]

/-! ## Chains -/

theorem block_agrees (grammars : Agree like bound g h) :
    Agrees like opened 1 (bound + 1) (FragmentsAlike like.kept) (block g) (block h) :=
  grammars.statements.inside

theorem argument_agrees (grammars : Agree like bound g h) :
    Agrees like opened 1 bound (ArgumentAlike like) (argument g) (argument h) := by
  refine ((attributes_agrees grammars).below (Nat.le_succ _)).bind fun _ _ _ => ?_
  refine (grammars.expression opened true).withText.bindAfter ?_
  rintro ⟨expression, text⟩ ⟨expression', text'⟩ ⟨expressions, texts⟩
  exact agrees_pure ⟨texts, expressions.fragments⟩

theorem respects_position :
    Respects like opened (fun tree => tree.isKind .literal && tree.first.isPosition) where
  same {_ tree tree'} alike := by
    cases alike with
    | group _ _ _ _ _ => rfl
    | @leaf _ a b tokens =>
        have kind := like.kind tokens
        by_cases literals : a.kind = .literal
        · have text := like.text tokens (by rw [literals]; exact nofun)
          have positions : a.isPosition = b.isPosition := by rw [Token.isPosition, Token.isPosition, text]
          simp only [Tree.isKind, Tree.first, positions, kind]
        · have other : b.kind ≠ .literal := kind ▸ literals
          simp [Tree.isKind, literals, other]
  final _ token kind := by simp [Tree.isKind, kind]

theorem calleeOf_alike {expression expression' : Expression} {text text' : String}
    (expressions : ExpressionAlike like.kept expression expression') (texts : TextAlike like text text') :
    CalleeAlike like.kept (calleeOf expression text) (calleeOf expression' text') := by
  obtain ⟨field, fragments⟩ := expression
  obtain ⟨field', fragments'⟩ := expression'
  obtain ⟨fields, _⟩ := expressions
  cases fields with
  | some fields => exact .method fields.1 fields.2
  | none => exact .path texts

/-- The text that has been taken when some trees of a list are left. -/
def takenText (start rest : List Tree) : String :=
  sourceText (start.take (start.length - rest.length))

theorem takenText_alike {pairs : List (Tree × Tree)} {tail tail' : List Tree} {taken : Nat}
    (alike : AllAlike like false pairs) (within : taken ≤ pairs.length) :
    TextAlike like (takenText (lefts pairs tail) (lefts (pairs.drop taken) tail))
      (takenText (rights pairs tail') (rights (pairs.drop taken) tail')) := by
  rw [takenText, takenText, take_lefts within, take_rights within]
  exact ⟨_, alike.take taken, rfl, rfl⟩

/-- A member of what has the given text. -/
def memberOf (receiver : String) (expression : Expression) : Parser Expression := do
  let _ ← mark '.'
  let member ← anyWord <|> position
  if member.name = "await" then return { fragments := expression.fragments }
  else if ← ahead (startsWithSymbol [':', ':']) then
    symbol "::"
    angles
    return { fragments := expression.fragments }
  else return { field := some (receiver, member.name), fragments := expression.fragments }

theorem member_apply (start : List Tree) (expression : Expression) (trees : List Tree) :
    member start expression trees = memberOf (takenText start trees) expression trees :=
  rfl

theorem memberOf_agrees {receiver receiver' : String} {expression expression' : Expression}
    (texts : TextAlike like receiver receiver')
    (expressions : ExpressionAlike like.kept expression expression') :
    Agrees like opened 1 bound (ExpressionAlike like.kept) (memberOf receiver expression)
      (memberOf receiver' expression') := by
  have plain := ExpressionAlike.of_fragments expressions.fragments
  refine (agrees_mark fun _ => by decide).bindAfter fun _ _ _ => ?_
  have named := (@agrees_anyWord like opened bound).orElse (agrees_token respects_position)
  refine named.zero.bind fun name name' names => ?_
  have awaited : name.name = "await" ↔ name'.name = "await" := by
    have same := like.word names "await" (by decide)
    rwa [← String.ofList_inj, ← String.ofList_inj] at same
  refine .ite awaited (agrees_pure plain) ?_
  refine agrees_ahead (respects_symbol (by decide)) fun answer => ?_
  refine .ite Iff.rfl ?_ (agrees_pure ⟨.some ⟨texts, .of_tokens names⟩, expressions.fragments⟩)
  refine agrees_colons.zero.bind fun _ _ _ => ?_
  exact agrees_angles.zero.bind fun _ _ _ => agrees_pure plain

/-- A call of what has the given text, in a chain that begins with some trees. -/
def callOf (g : Grammar) (start : List Tree) (expression : Expression) (text : String) :
    Parser (Option Expression) := do
  let arguments ← inside .parenthesis (commaSeparated (argument g))
  match start with
  | [] => failure
  | first :: _ =>
      return some {
        fragments :=
          .call (calleeOf expression text) (arguments.map Prod.fst) first.first.start
            first.first.line :: (expression.fragments ++ arguments.flatMap Prod.snd) }

/-- An element of what an expression denotes. -/
def indexOf (g : Grammar) (expression : Expression) : Parser (Option Expression) := do
  let index ← inside .bracket (g.expression true)
  return some { fragments := expression.fragments ++ index.fragments }

/-- What an expression denotes unless it is an error. -/
def triedOf (expression : Expression) : Parser (Option Expression) := do
  let _ ← mark '?'
  return some { fragments := expression.fragments }

theorem link_apply (g : Grammar) (start : List Tree) (expression : Expression) (trees : List Tree) :
    link g start expression trees =
      if headIs (Tree.isMark '?') trees then triedOf expression trees
      else if headIs (Tree.isGroup .parenthesis) trees then
        callOf g start expression (takenText start trees) trees
      else if headIs (Tree.isGroup .bracket) trees then indexOf g expression trees
      else if continuesChain trees then
        (some <$> memberOf (takenText start trees) expression) trees
      else some (none, trees) := by
  change (if _ then _ else if _ then _ else if _ then _ else if _ then _ else _ : Parser _) trees = _
  split
  · rfl
  · split
    · rfl
    · split
      · rfl
      · split <;> rfl

theorem callOf_agrees (grammars : Agree like bound g h) {first first' : Tree}
    {start start' : List Tree} {expression expression' : Expression} {text text' : String}
    (trees : Tree.Alike like false first first')
    (expressions : ExpressionAlike like.kept expression expression')
    (texts : TextAlike like text text') :
    Agrees like opened 1 (bound + 1) (BothSome (ExpressionAlike like.kept)) (callOf g (first :: start) expression text)
      (callOf h (first' :: start') expression' text') := by
  refine (argument_agrees grammars).commaSeparated.inside.bindAfter fun _ _ arguments => ?_
  have argumentTexts := List.rel_map (fun _ _ argument => argument.1) arguments
  have argumentFragments := List.rel_flatMap arguments fun _ _ argument => argument.2
  refine agrees_pure (.intro (.of_fragments (.cons ?_ ?_)))
  · exact .call (calleeOf_alike expressions texts) argumentTexts (like.starts trees.first_token)
  · exact List.rel_append expressions.fragments argumentFragments

/-- On like lists both chains end, or both have a further link. -/
theorem link_outcome (grammars : Agree like bound g h) {pairs : List (Tree × Tree)}
    {tail tail' : List Tree} (ends : Ends opened tail tail') (alike : AllAlike like false pairs)
    {taken : Nat} (some_ : 1 ≤ taken) (within : taken ≤ pairs.length)
    (light : weight (pairs.drop taken) < bound + 1) {expression expression' : Expression}
    (expressions : ExpressionAlike like.kept expression expression') :
    (link g (lefts pairs tail) expression (lefts (pairs.drop taken) tail) =
        some (none, lefts (pairs.drop taken) tail) ∧
      link h (rights pairs tail') expression' (rights (pairs.drop taken) tail') =
        some (none, rights (pairs.drop taken) tail')) ∨
    Outcome (BothSome (ExpressionAlike like.kept)) 1 (pairs.drop taken) tail tail'
      (link g (lefts pairs tail) expression (lefts (pairs.drop taken) tail))
      (link h (rights pairs tail') expression' (rights (pairs.drop taken) tail')) := by
  have behind := alike.drop taken
  have texts := @takenText_alike like pairs tail tail' taken alike within
  have fragments := expressions.fragments
  have question : Respects like opened (Tree.isMark '?') := respects_isMark fun _ => by decide
  have group (delimiter : Delimiter) : Respects like opened (Tree.isGroup delimiter) :=
    respects_isGroup delimiter
  rw [link_apply, link_apply, ← question.headIs ends behind, ← (group _).headIs ends behind,
    ← (group _).headIs ends behind, ← continuesChain_respects _ _ _ ends behind]
  split
  · have tried : Agrees like opened 1 (bound + 1) (BothSome (ExpressionAlike like.kept)) (triedOf expression)
        (triedOf expression') :=
      (agrees_mark fun _ => by decide).bindAfter fun _ _ _ =>
        agrees_pure (.intro (.of_fragments fragments))
    exact .inr (tried _ _ _ ends behind light)
  split
  · cases alike with
    | nil =>
        rw [List.length_nil] at within
        omega
    | cons trees _ _ =>
        exact .inr (callOf_agrees grammars trees expressions texts _ _ _ ends behind light)
  split
  · have index : Agrees like opened 1 (bound + 1) (BothSome (ExpressionAlike like.kept)) (indexOf g expression)
        (indexOf h expression') :=
      ((grammars.expression false true).mono (Nat.zero_le _) (Nat.le_refl _)
        fun _ _ alike => alike).inside.bindAfter fun _ _ index =>
          agrees_pure (.intro (.of_fragments (List.rel_append fragments index.fragments)))
    exact .inr (index _ _ _ ends behind light)
  split
  · have members := (@memberOf_agrees like opened (bound + 1) _ _ _ _ texts expressions).map
      fun _ _ alike => BothSome.intro alike
    exact .inr (members _ _ _ ends behind light)
  · exact .inl ⟨rfl, rfl⟩

theorem link_tail {tail tail' : List Tree} (ends : Ends opened tail tail') (g h : Grammar)
    (start start' : List Tree) (expression expression' : Expression) :
    link g start expression tail = some (none, tail) ∧
      link h start' expression' tail' = some (none, tail') := by
  cases ends with
  | nil => exact ⟨rfl, rfl⟩
  | semicolon allowed kind kind' =>
      rw [link_apply, link_apply]
      simp [headIs, Tree.isMark, Tree.isGroup, continuesChain, kind, kind']

theorem links_of_none {g : Grammar} {start trees : List Tree} {expression : Expression}
    (none : link g start expression trees = some (none, trees)) (count : Nat) :
    links g start count expression trees = some (expression, trees) := by
  cases count with
  | zero => rfl
  | succ count =>
      change ((link g start expression trees).bind _) = _
      rw [none]
      rfl

theorem links_of_some {g : Grammar} {start trees rest : List Tree} {expression longer : Expression}
    (read : link g start expression trees = some (some longer, rest)) (count : Nat) :
    links g start (count + 1) expression trees = links g start count longer rest := by
  change ((link g start expression trees).bind _) = _
  rw [read]
  rfl

theorem links_of_failed {g : Grammar} {start trees : List Tree} {expression : Expression}
    (failed : link g start expression trees = none) (count : Nat) :
    links g start (count + 1) expression trees = none := by
  change ((link g start expression trees).bind _) = _
  rw [failed]
  rfl

/-- Chains on like lists have equally many links: each link takes a tree. -/
theorem links_outcome (grammars : Agree like bound g h) {pairs : List (Tree × Tree)}
    {tail tail' : List Tree} (ends : Ends opened tail tail') (alike : AllAlike like false pairs)
    {taken count count' : Nat} (some_ : 1 ≤ taken) (within : taken ≤ pairs.length)
    (light : weight (pairs.drop taken) < bound + 1) (enough : pairs.length ≤ taken + count)
    (enough' : pairs.length ≤ taken + count') {expression expression' : Expression}
    (expressions : ExpressionAlike like.kept expression expression') :
    Outcome (ExpressionAlike like.kept) 0 (pairs.drop taken) tail tail'
      (links g (lefts pairs tail) count expression (lefts (pairs.drop taken) tail))
      (links h (rights pairs tail') count' expression' (rights (pairs.drop taken) tail')) := by
  induction count generalizing taken count' expression expression' with
  | zero =>
      have all : pairs.drop taken = [] := List.drop_eq_nil_of_le enough
      obtain ⟨none, none'⟩ := link_tail ends g h (lefts pairs tail) (rights pairs tail') expression
        expression'
      rw [all, lefts_nil, rights_nil, links_of_none none, links_of_none none']
      exact .here expressions
  | succ count inductionHypothesis =>
      rcases link_outcome grammars ends alike some_ within light expressions with
        ⟨none, none'⟩ | outcome
      · rw [links_of_none none, links_of_none none']
        exact .here expressions
      · have more : taken < pairs.length := by
          refine Nat.lt_of_not_le fun all => ?_
          rw [List.drop_eq_nil_of_le all, lefts_nil, rights_nil] at outcome
          have ended := (link_tail ends g h (lefts pairs tail) (rights pairs tail') expression
            expression').1
          rw [outcome.none_of_nil.1] at ended
          cases ended
        obtain ⟨count', rfl⟩ : ∃ less, count' = less + 1 := ⟨count' - 1, by omega⟩
        generalize read : link g _ _ _ = result at outcome
        generalize read' : link h _ _ _ = result' at outcome
        cases outcome with
        | failed =>
            rw [links_of_failed read, links_of_failed read']
            exact .failed
        | @read _ _ further values some_ withinMore =>
            obtain ⟨longer⟩ := values
            rw [List.length_drop] at withinMore
            rw [List.drop_drop] at read read'
            rw [links_of_some read, links_of_some read']
            have lighter : weight (pairs.drop (taken + further)) < bound + 1 := by
              rw [← List.drop_drop]
              exact Nat.lt_of_le_of_lt (weight_drop_le _ further) light
            have later := @inductionHypothesis (taken + further) count' (by omega) (by omega) lighter
              (by omega) (by omega) _ _ longer
            rw [← List.drop_drop] at later ⊢
            exact (later.behind (by rwa [List.length_drop])).mono (Nat.zero_le _) fun _ _ alike => alike

theorem maybeExpression_agrees (grammars : Agree like bound g h) (structs : Bool) :
    Agrees like opened 0 bound (FragmentsAlike like.kept) (maybeExpression g structs)
      (maybeExpression h structs) := by
  refine agrees_ahead (startsExpression_respects structs) fun answer => ?_
  refine .ite Iff.rfl ?_ (agrees_pure .nil)
  exact (grammars.expression opened structs).zero.bind fun _ _ expression =>
    agrees_pure expression.fragments

theorem operations_agrees (grammars : Agree like bound g h) (structs : Bool)
    {expression expression' : Expression}
    (expressions : ExpressionAlike like.kept expression expression') :
    Agrees like opened 0 bound (ExpressionAlike like.kept) (operations g structs expression)
      (operations h structs expression') := by
  have cast := (@agrees_word like opened bound "as" (by decide)).zero.seqRight (grammars.type opened)
  refine cast.many.bind fun casts casts' castsAlike => ?_
  have fragments := List.rel_append expressions.fragments (fragmentsAlike_flatten castsAlike)
  have none : casts.isEmpty = casts'.isEmpty := by cases castsAlike <;> rfl
  refine agrees_get fun pairs tail tail' ends alike light => ?_
  have same := operatorAhead_respects pairs tail tail' ends alike
  rw [← same]
  cases found : operatorAhead (lefts pairs tail) with
  | none =>
      refine Agrees.ite (by rw [none]) (agrees_pure expressions) ?_ pairs tail tail' ends alike light
      exact agrees_pure (.of_fragments fragments)
  | some operator =>
      have known : ∀ operator ∈ binaryOperators,
          operator ≠ "" ∧ isOperator operator.toList = true := by decide
      have listed : operator ∈ binaryOperators := mem_of_operatorAhead found
      have whole {right right' : List Fragment} (alike : FragmentsAlike like.kept right right') :
          Agrees like opened 0 bound (ExpressionAlike like.kept)
            (pure { fragments := expression.fragments ++ casts.flatten ++ right })
            (pure { fragments := expression'.fragments ++ casts'.flatten ++ right' }) :=
        agrees_pure (.of_fragments (List.rel_append fragments alike))
      have symbols := @agrees_symbol like opened bound operator (known operator listed).1
        (known operator listed).2
      have step := symbols.zero.bind fun _ _ _ => Agrees.ite (@Iff.rfl (operator = ".."))
        ((maybeExpression_agrees grammars structs).bind fun _ _ => whole)
        (((grammars.expression opened structs).zero.map fun _ _ expression =>
          expression.fragments).bind fun _ _ => whole)
      exact step pairs tail tail' ends alike light

/-- What starts with a block and goes on, on two lists of which the block has been taken. -/
theorem blockChain_outcome (grammars : Agree like bound g h) {pairs : List (Tree × Tree)}
    {tail tail' : List Tree} (ends : Ends opened tail tail') (alike : AllAlike like false pairs)
    {taken : Nat} (some_ : 1 ≤ taken) (within : taken ≤ pairs.length)
    (light : weight (pairs.drop taken) < bound) {fragments fragments' : List Fragment}
    (blocks : FragmentsAlike like.kept fragments fragments') :
    Outcome (ExpressionAlike like.kept) 0 (pairs.drop taken) tail tail'
      (blockChain g (lefts pairs tail) fragments (lefts (pairs.drop taken) tail))
      (blockChain h (rights pairs tail') fragments' (rights (pairs.drop taken) tail')) := by
  have chain := links_outcome grammars ends alike some_ within (Nat.lt_succ_of_lt light)
    (@Nat.le_trans _ (lefts pairs tail).length _ (by simp) (Nat.le_add_left _ _))
    (@Nat.le_trans _ (rights pairs tail').length _ (by simp) (Nat.le_add_left _ _))
    (.of_fragments blocks)
  refine @Outcome.bind _ _ _ _ _ 0 _ tail tail' _ _ (operations g true) (operations h true)
    (ExpressionAlike like.kept) 0 chain fun expression expression' further expressions _ _ => ?_
  exact operations_agrees grammars true expressions _ _ _ ends ((alike.drop taken).drop further)
    (Nat.lt_of_le_of_lt (weight_drop_le _ further) light)

/-! ## Expressions that end with a block -/

/-- What a block-like expression is in an arm, and whether the arm is complete without a comma. -/
def behindBlock (g : Grammar) (start : List Tree) (fragments : List Fragment) :
    Parser (List Fragment × Bool) := do
  if ← ahead continuesChain then
    return ((← blockChain g start fragments).fragments, false)
  else return (fragments, true)

theorem armValue_agrees (grammars : Agree like bound g h) :
    Agrees like opened 1 bound (fun value value' => FragmentsAlike like.kept value.1 value'.1 ∧
      value.2 = value'.2) (armValue g) (armValue h) := by
  refine agrees_get_ite startsBlockLike_respects ?_ (agrees_get_same ?_)
  · refine agrees_get fun pairs tail tail' ends alike light => ?_
    have first := grammars.blockLike opened pairs tail tail' ends alike light
    refine @Outcome.bind _ _ _ _ _ 1 pairs tail tail' _ _
      (behindBlock g (lefts pairs tail)) (behindBlock h (rights pairs tail'))
      (fun value value' => FragmentsAlike like.kept value.1 value'.1 ∧ value.2 = value'.2) 0 first
      fun fragments fragments' taken blocks some_ within => ?_
    have lighter : weight (pairs.drop taken) < bound :=
      Nat.lt_of_le_of_lt (weight_drop_le pairs taken) light
    have same := continuesChain_respects _ _ _ ends (alike.drop taken)
    change Outcome _ _ _ _ _
      ((if continuesChain (lefts (pairs.drop taken) tail) then _ else _ : Parser _) _)
      ((if continuesChain (rights (pairs.drop taken) tail') then _ else _ : Parser _) _)
    rw [← same]
    split
    · have chain := blockChain_outcome grammars ends alike some_ within lighter blocks
      exact @Outcome.bind _ _ _ _ _ 0 _ tail tail' _ _
        (fun expression => pure (expression.fragments, false))
        (fun expression => pure (expression.fragments, false))
        (fun value value' => FragmentsAlike like.kept value.1 value'.1 ∧ value.2 = value'.2) 0 chain
        fun _ _ _ expression _ _ => .here ⟨expression.fragments, rfl⟩
    · exact .here ⟨blocks, rfl⟩
  · exact (grammars.expression opened true).bindAfter fun _ _ expression =>
      agrees_pure ⟨expression.fragments, rfl⟩

/-- An arm of a match that starts on a line. -/
def matchArmAt (g : Grammar) (line : Nat) : Parser (List Fragment) := do
  let _ ← attributes g
  let (patternFragments, pattern) ← withText do
    let pattern ← nestedPattern g
    match ← maybe (word "if" *> g.expression true) with
    | some guard => return pattern.fragments ++ guard.fragments
    | none => return pattern.fragments
  symbol "=>"
  let ((fragments, complete), value) ← withText (armValue g)
  if complete then skip (maybe (mark ',')) else separator ','
  return .arm pattern value line :: (patternFragments ++ fragments)

theorem matchArmAt_agrees (grammars : Agree like bound g h) (line line' : Nat) :
    Agrees like false 1 bound (FragmentsAlike like.kept) (matchArmAt g line) (matchArmAt h line') := by
  refine ((attributes_agrees grammars).below (Nat.le_succ _)).bind fun _ _ _ => ?_
  have guard := (@agrees_word like false bound "if" (by decide)).zero.seqRight
    (grammars.expression false true)
  have pattern : Agrees like false 1 bound (FragmentsAlike like.kept)
      (nestedPattern g >>= fun pattern => do
        match ← maybe (word "if" *> g.expression true) with
        | some guard => return pattern.fragments ++ guard.fragments
        | none => return pattern.fragments)
      (nestedPattern h >>= fun pattern => do
        match ← maybe (word "if" *> h.expression true) with
        | some guard => return pattern.fragments ++ guard.fragments
        | none => return pattern.fragments) := by
    refine (nestedPattern_agrees grammars).bindAfter fun _ _ pattern => ?_
    refine guard.maybe.bind ?_
    rintro _ _ (guard | _)
    · exact agrees_pure (List.rel_append pattern.fragments guard.fragments)
    · exact agrees_pure pattern.fragments
  refine pattern.withText.bindAfter ?_
  rintro ⟨_, _⟩ ⟨_, _⟩ ⟨fragments, patterns⟩
  refine (@agrees_symbol like false bound "=>" (by decide) (by decide)).zero.bind fun _ _ _ => ?_
  refine (armValue_agrees grammars).withText.zero.bind ?_
  rintro ⟨⟨_, complete⟩, _⟩ ⟨⟨_, _⟩, _⟩ ⟨⟨more, same⟩, values⟩
  obtain rfl := same
  have comma := @agrees_mark like false bound ',' nofun
  have arm := @FragmentAlike.arm like.kept _ _ _ _ line line' patterns values
  have whole := List.Forall₂.cons arm (List.rel_append fragments more)
  refine .ite Iff.rfl ?_ ?_
  · exact comma.maybe.skip.bind fun _ _ _ => agrees_pure whole
  · exact agrees_separator.bind fun _ _ _ => agrees_pure whole

theorem matchArm_agrees (grammars : Agree like bound g h) :
    Agrees like false 1 bound (FragmentsAlike like.kept) (matchArm g) (matchArm h) :=
  agrees_get fun pairs tail tail' ends alike light =>
    matchArmAt_agrees grammars _ _ pairs tail tail' ends alike light

theorem condition_agrees (grammars : Agree like bound g h) :
    Agrees like opened 1 bound (FragmentsAlike like.kept) (condition g) (condition h) :=
  (grammars.expression opened false).bindAfter fun _ _ expression =>
    agrees_pure expression.fragments

theorem conditional_agrees (grammars : Agree like bound g h) :
    Agrees like opened 1 bound (FragmentsAlike like.kept) (conditional g) (conditional h) := by
  have block := (@block_agrees like opened bound g h grammars).below (Nat.le_succ _)
  refine (condition_agrees grammars).bindAfter fun _ _ condition => ?_
  refine block.zero.bind fun _ _ body => ?_
  have front := List.rel_append condition body
  refine agrees_ahead (respects_headIsWord (by decide)) fun answer => ?_
  refine .ite Iff.rfl ?_ (agrees_pure front)
  refine (agrees_word (by decide)).zero.bind fun _ _ _ => ?_
  refine agrees_ahead (respects_headIsWord (by decide)) fun answer => ?_
  refine .ite Iff.rfl ?_ ?_
  · exact (grammars.blockLike opened).zero.bind fun _ _ more =>
      agrees_pure (List.rel_append front more)
  · exact block.zero.bind fun _ _ more => agrees_pure (List.rel_append front more)

theorem blockLikeRule_agrees (grammars : Agree like bound g h) :
    Agrees like opened 1 (bound + 1) (FragmentsAlike like.kept) (blockLikeRule g) (blockLikeRule h) := by
  have block := @block_agrees like opened bound g h grammars
  have blockBelow := (block.below (Nat.le_succ _)).zero
  have condition := (@condition_agrees like opened bound g h grammars).zero
  refine agrees_get_ite (respects_headIs (respects_isGroup _)) (agrees_get_same block) ?_
  refine agrees_get_ite (respects_headIs (respects_isKind fun _ => nofun)) (agrees_get_same ?_) ?_
  · refine agrees_lifetime.andThen fun _ _ _ => ?_
    refine (agrees_mark fun _ => by decide).zero.bind fun _ _ _ => ?_
    exact (grammars.blockLike opened).zero
  refine agrees_get_ite (respects_headIsWord (by decide)) (agrees_get_same ?_) ?_
  · refine (agrees_word (by decide)).andThen fun _ _ _ => ?_
    exact (conditional_agrees grammars).zero
  refine agrees_get_ite (respects_headIsWord (by decide)) (agrees_get_same ?_) ?_
  · refine (agrees_word (by decide)).andThen fun _ _ _ => ?_
    refine condition.bind fun _ _ scrutinee => ?_
    have arms := ((innerAttribute_agrees grammars).below (Nat.le_succ _)).many.seqRight
      (matchArm_agrees grammars).many
    refine (arms.inside.below (Nat.le_succ _)).zero.bind fun _ _ arms => ?_
    exact agrees_pure (List.rel_append scrutinee (fragmentsAlike_flatten arms))
  refine agrees_get_ite (respects_headIsWord (by decide)) (agrees_get_same ?_) ?_
  · refine (agrees_word (by decide)).andThen fun _ _ _ => ?_
    exact condition.bind fun _ _ condition => blockBelow.bind fun _ _ body =>
      agrees_pure (List.rel_append condition body)
  refine agrees_get_ite (respects_headIsWord (by decide)) (agrees_get_same ?_) ?_
  · refine (agrees_word (by decide)).andThen fun _ _ _ => ?_
    refine (nestedPattern_agrees grammars).zero.bind fun _ _ pattern => ?_
    refine (agrees_word (by decide)).zero.bind fun _ _ _ => ?_
    exact condition.bind fun _ _ condition => blockBelow.bind fun _ _ body =>
      agrees_pure (List.rel_append (List.rel_append pattern.fragments condition) body)
  refine agrees_get_ite (respects_headIsWord (by decide)) (agrees_get_same ?_) ?_
  · exact agrees_anyWord.bindAfter fun _ _ _ => block.zero
  refine agrees_get_ite (respects_headIsWord (by decide)) (agrees_get_same ?_)
    (agrees_get_same agrees_failure)
  refine (agrees_word (by decide)).andThen fun _ _ _ => ?_
  exact (agrees_word (by decide)).maybe.bind fun _ _ _ => blockBelow

/-! ## Operands -/

theorem element_agrees (grammars : Agree like bound g h) :
    Agrees like opened 1 bound (ExpressionAlike like.kept) (attributes g *> g.expression true)
      (attributes h *> h.expression true) :=
  ((attributes_agrees grammars).below (Nat.le_succ _)).seqRight (grammars.expression opened true)

theorem arrayElements_agrees (grammars : Agree like bound g h) :
    Agrees like false 0 bound (FragmentsAlike like.kept) (arrayElements g) (arrayElements h) := by
  have repeated : Agrees like false 1 bound (List.Forall₂ (ExpressionAlike like.kept))
      ((attributes g *> g.expression true) >>= fun element => do
        let _ ← mark ';'
        return [element, ← g.expression true])
      ((attributes h *> h.expression true) >>= fun element => do
        let _ ← mark ';'
        return [element, ← h.expression true]) := by
    refine (element_agrees grammars).bindAfter fun _ _ element => ?_
    refine agrees_semicolon.zero.bind fun _ _ _ => ?_
    exact (grammars.expression false true).zero.bind fun _ _ number =>
      agrees_pure (.cons element (.cons number .nil))
  refine repeated.maybe.bind ?_
  rintro _ _ (parts | _)
  · exact agrees_pure (expressionsAlike_fragments parts)
  · exact (element_agrees grammars).commaSeparated.bind fun _ _ elements =>
      agrees_pure (expressionsAlike_fragments elements)

theorem fieldValue_agrees (grammars : Agree like bound g h) :
    Agrees like false 1 bound (FragmentsAlike like.kept) (fieldValue g) (fieldValue h) := by
  refine ((attributes_agrees grammars).below (Nat.le_succ _)).bind fun _ _ _ => ?_
  refine agrees_ahead (respects_symbol (by decide)) fun answer => ?_
  refine .ite Iff.rfl ?_ ?_
  · refine (@agrees_symbol like false bound ".." (by decide) (by decide)).bindAfter fun _ _ _ => ?_
    refine (grammars.expression false true).maybe.bind ?_
    rintro _ _ (base | _)
    · exact agrees_pure base.fragments
    · exact agrees_pure .nil
  · have label := (@agrees_anyWord like false bound).skip.orElse agrees_literal.skip
    refine label.bindAfter fun _ _ _ => ?_
    have value := (@agrees_mark like false bound ':' nofun).zero.seqRight
      (grammars.expression false true)
    refine value.maybe.bind ?_
    rintro _ _ (value | _)
    · exact agrees_pure value.fragments
    · exact agrees_pure .nil

theorem closureParameter_agrees (grammars : Agree like bound g h) :
    Agrees like opened 1 bound (FragmentsAlike like.kept) (closureParameter g) (closureParameter h) := by
  refine ((attributes_agrees grammars).below (Nat.le_succ _)).bind fun _ _ _ => ?_
  refine (grammars.pattern opened).bindAfter fun _ _ pattern => ?_
  have type := (@agrees_mark like opened bound ':' fun _ => by decide).zero.seqRight
    (grammars.type opened)
  refine type.maybe.bind ?_
  rintro _ _ (type | _)
  · exact agrees_pure (List.rel_append pattern.fragments type)
  · exact agrees_pure pattern.fragments

theorem closure_agrees (grammars : Agree like bound g h) (structs : Bool) :
    Agrees like opened 1 (bound + 1) (FragmentsAlike like.kept) (closure g structs)
      (closure h structs) := by
  have bar (bound : Nat) : Agrees like opened 1 bound (like.token false) (mark '|') (mark '|') :=
    agrees_mark fun _ => by decide
  refine (agrees_skipWhile (respects_anyWord (by decide))).bind fun _ _ _ => ?_
  refine (bar _).andThen fun _ _ _ => ?_
  refine (closureParameter_agrees grammars).commaSeparated.bind fun _ _ parameters => ?_
  have front := fragmentsAlike_flatten parameters
  refine (bar _).zero.bind fun _ _ _ => ?_
  refine agrees_ahead (respects_symbol (by decide)) fun answer => ?_
  refine .ite Iff.rfl ?_ ?_
  · refine ((resultType_agrees grammars).below (Nat.le_succ _)).bind fun _ _ result => ?_
    refine ((block_agrees grammars).below (Nat.le_succ _)).zero.bind fun _ _ body => ?_
    exact agrees_pure (List.rel_append (List.rel_append front result) body)
  · exact (grammars.expression opened structs).zero.bind fun _ _ body =>
      agrees_pure (List.rel_append front body.fragments)

theorem pathExpression_agrees (grammars : Agree like bound g h) (structs : Bool) :
    Agrees like opened 1 (bound + 1) (FragmentsAlike like.kept) (pathExpression g structs)
      (pathExpression h structs) := by
  refine macroCall_agrees.maybe_andThen (fun _ _ fragment => ?_) ?_
  · exact agrees_pure (.cons fragment .nil)
  · refine (path_agrees grammars).bindAfter fun _ _ _ => ?_
    refine agrees_ahead (respects_headIs (respects_isGroup _)) fun answer => ?_
    refine .ite Iff.rfl ?_ (agrees_pure .nil)
    exact (fieldValue_agrees grammars).commaSeparated.inside.zero.bind fun _ _ fields =>
      agrees_pure (fragmentsAlike_flatten fields)

theorem primary_agrees (grammars : Agree like bound g h) (structs : Bool) :
    Agrees like opened 1 (bound + 1) (FragmentsAlike like.kept) (primary g structs)
      (primary h structs) := by
  have final := (@maybeExpression_agrees like opened bound g h grammars structs)
  refine agrees_get_ite startsBlockLike_respects
    (agrees_get_same (blockLikeRule_agrees grammars)) ?_
  refine agrees_get_ite startsClosure_respects
    (agrees_get_same (closure_agrees grammars structs)) ?_
  refine agrees_get_ite (respects_headIs (respects_isKind fun _ => nofun)) (agrees_get_same ?_) ?_
  · exact agrees_literal.bindAfter fun _ _ _ => agrees_pure .nil
  refine agrees_get_ite (respects_headIs (respects_isGroup _)) (agrees_get_same ?_) ?_
  · refine (element_agrees grammars).commaSeparated.inside.bindAfter fun _ _ parts => ?_
    exact agrees_pure (expressionsAlike_fragments parts)
  refine agrees_get_ite (respects_headIs (respects_isGroup _))
    (agrees_get_same (arrayElements_agrees grammars).inside) ?_
  refine agrees_get_ite (respects_headIsWord (by decide)) (agrees_get_same ?_) ?_
  · exact agrees_anyWord.andThen fun _ _ _ => final
  refine agrees_get_ite (respects_headIsWord (by decide)) (agrees_get_same ?_) ?_
  · refine (agrees_word (by decide)).andThen fun _ _ _ => ?_
    exact agrees_lifetime.maybe.bind fun _ _ _ => final
  refine agrees_get_ite (respects_headIsWord (by decide)) (agrees_get_same ?_) ?_
  · refine (agrees_word (by decide)).bindAfter fun _ _ _ => ?_
    exact agrees_lifetime.maybe.bind fun _ _ _ => agrees_pure .nil
  refine agrees_get_ite (respects_headIsWord (by decide)) (agrees_get_same ?_)
    (agrees_get_same (pathExpression_agrees grammars structs))
  refine (agrees_word (by decide)).andThen fun _ _ _ => ?_
  refine (nestedPattern_agrees grammars).zero.bind fun _ _ pattern => ?_
  refine (agrees_mark fun _ => by decide).zero.bind fun _ _ _ => ?_
  exact (grammars.expression opened structs).zero.bind fun _ _ value =>
    agrees_pure (List.rel_append pattern.fragments value.fragments)

theorem operand_agrees (grammars : Agree like bound g h) (structs : Bool) :
    Agrees like opened 1 (bound + 1) (ExpressionAlike like.kept) (operand g structs)
      (operand h structs) := by
  refine agrees_get fun pairs tail tail' ends alike light => ?_
  have first := primary_agrees grammars structs pairs tail tail' ends alike light
  refine @Outcome.bind _ _ _ _ _ 1 pairs tail tail' _ _
    (fun fragments => links g (lefts pairs tail) (lefts pairs tail).length { fragments := fragments })
    (fun fragments =>
      links h (rights pairs tail') (rights pairs tail').length { fragments := fragments })
    (ExpressionAlike like.kept) 0 first fun _ _ taken fragments some_ within => ?_
  exact links_outcome grammars ends alike some_ within
    (Nat.lt_of_le_of_lt (weight_drop_le pairs taken) light)
    (@Nat.le_trans _ (lefts pairs tail).length _ (by simp) (Nat.le_add_left _ _))
    (@Nat.le_trans _ (rights pairs tail').length _ (by simp) (Nat.le_add_left _ _))
    (.of_fragments fragments)

/-! ## Whole expressions -/

theorem prefixOperators_agrees :
    Agrees like opened 0 bound Eq prefixOperators prefixOperators := by
  have mark (c : Char) (kept : c ≠ ';') : Agrees like opened 1 bound (like.token false) (mark c)
      (mark c) :=
    agrees_mark fun _ => kept
  have word (name : String) (known : name ∈ keywords) := @agrees_word like opened bound name known
  have kind := (word "raw" (by decide)).seqAfter
    ((word "const" (by decide)).orElse (word "mut" (by decide))).zero
  have reference := (mark '&' (by decide)).seqAfter <|
    kind.skip.zero.orElse (word "mut" (by decide)).maybe.skip
  have operator := (mark '-' (by decide)).skip.orElse <| (mark '!' (by decide)).skip.orElse <|
    (mark '*' (by decide)).skip.orElse reference
  refine operator.many.bind fun marks marks' alike => agrees_pure ?_
  cases alike <;> rfl

theorem expressionRule_agrees (grammars : Agree like bound g h) (structs : Bool) :
    Agrees like opened 1 (bound + 1) (ExpressionAlike like.kept) (expressionRule g structs)
      (expressionRule h structs) := by
  have dots (spelling : String) (some_ : spelling ≠ "") (operator : isOperator spelling.toList = true) :
      Agrees like opened 1 (bound + 1) Anything (symbol spelling) (symbol spelling) :=
    agrees_symbol some_ operator
  refine (attributes_agrees grammars).bind fun _ _ _ => ?_
  refine prefixOperators_agrees.bind fun isPrefixed _ same => ?_
  obtain rfl := same
  refine agrees_ahead (respects_symbol (by decide)) fun answer => ?_
  refine .ite Iff.rfl ?_ ?_
  · refine (dots "..=" (by decide) (by decide)).maybe_andThen (fun _ _ _ => ?_) ?_
    · exact (grammars.expression opened structs).zero.bind fun _ _ expression =>
        agrees_pure (.of_fragments expression.fragments)
    · refine (dots ".." (by decide) (by decide)).andThen fun _ _ _ => ?_
      exact (maybeExpression_agrees grammars structs).bind fun _ _ fragments =>
        agrees_pure (.of_fragments fragments)
  · refine (operand_agrees grammars structs).andThen fun _ _ expression => ?_
    refine (operations_agrees grammars structs expression).bind fun _ _ expression => ?_
    exact .ite Iff.rfl (agrees_pure (.of_fragments expression.fragments)) (agrees_pure expression)

/-! ## Statements -/

theorem bracedMacro_agrees :
    Agrees like opened 1 bound (FragmentAlike like.kept) bracedMacro bracedMacro := by
  refine macroCall_agrees.bindAfter fun fragment fragment' alike => ?_
  cases alike with
  | macroCall paths texts delimiters starts =>
      exact .ite (by rw [delimiters]) (agrees_pure (.macroCall paths texts delimiters starts))
        agrees_failure
  | binding _ _ _ => exact agrees_failure
  | call _ _ _ => exact agrees_failure
  | arm _ _ => exact agrees_failure

/-- A statement behind the block or the macro call that it starts with, if it does. -/
def behindOpening (g : Grammar) (start : List Tree) (opening : Option (List Fragment)) :
    Parser (List Fragment) := do
  match opening with
  | some fragments =>
      if ← ahead continuesChain then
        let expression ← blockChain g start fragments
        separator ';'
        return expression.fragments
      else return fragments
  | none =>
      let expression ← expressionRule g true
      separator ';'
      return expression.fragments

theorem behindOpening_outcome (grammars : Agree like bound g h) {pairs : List (Tree × Tree)}
    {tail tail' : List Tree} (ends : Ends false tail tail') (alike : AllAlike like false pairs)
    {taken : Nat} (some_ : 1 ≤ taken) (within : taken ≤ pairs.length)
    (light : weight pairs < bound + 1) {fragments fragments' : List Fragment}
    (blocks : FragmentsAlike like.kept fragments fragments') :
    Outcome (FragmentsAlike like.kept) 0 (pairs.drop taken) tail tail'
      (behindOpening g (lefts pairs tail) (some fragments) (lefts (pairs.drop taken) tail))
      (behindOpening h (rights pairs tail') (some fragments') (rights (pairs.drop taken) tail')) := by
  have behind := alike.drop taken
  have lighter : weight (pairs.drop taken) < bound :=
    Nat.lt_of_lt_of_le (weight_drop_lt some_ within) (Nat.le_of_lt_succ light)
  have same := continuesChain_respects _ _ _ ends behind
  change Outcome _ _ _ _ _
    ((if continuesChain (lefts (pairs.drop taken) tail) then _ else _ : Parser _) _)
    ((if continuesChain (rights (pairs.drop taken) tail') then _ else _ : Parser _) _)
  rw [← same]
  split
  · have chain := blockChain_outcome grammars ends alike some_ within lighter blocks
    refine @Outcome.bind _ _ _ _ _ 0 _ tail tail' _ _
      (fun expression => separator ';' >>= fun _ => pure expression.fragments)
      (fun expression => separator ';' >>= fun _ => pure expression.fragments)
      (FragmentsAlike like.kept) 0 chain fun _ _ further expression _ _ => ?_
    exact (agrees_separator.bind fun _ _ _ => agrees_pure expression.fragments) _ _ _ ends
      (behind.drop further) (Nat.lt_of_le_of_lt (weight_drop_le _ further) lighter)
  · exact .here blocks

theorem openingMacro_apply {α : Type} (next : Option (List Fragment) → Parser α)
    (trees : List Tree) :
    ((maybe bracedMacro).map (·.map fun fragment => [fragment]) >>= next) trees =
      match bracedMacro trees with
      | some (fragment, rest) => next (some [fragment]) rest
      | none => next none trees := by
  change ((Parser.maybe bracedMacro trees).bind _).bind _ = _
  rw [Parser.maybe]
  cases bracedMacro trees <;> rfl

theorem expressionStatement_agrees (grammars : Agree like bound g h) :
    Agrees like false 1 (bound + 1) (FragmentsAlike like.kept) (expressionStatement g)
      (expressionStatement h) := by
  refine agrees_get_ite startsBlockLike_respects ?_ ?_
  · refine agrees_get fun pairs tail tail' ends alike light => ?_
    have blocks := (@blockLikeRule_agrees like false bound g h grammars).map
      fun _ _ alike => BothSome.intro alike
    refine @Outcome.bind _ _ _ _ _ 1 pairs tail tail' _ _ (behindOpening g (lefts pairs tail))
      (behindOpening h (rights pairs tail')) (FragmentsAlike like.kept) 0
      (blocks pairs tail tail' ends alike light) fun opening opening' taken both some_ within => ?_
    obtain ⟨fragments⟩ := both
    exact behindOpening_outcome grammars ends alike some_ within light fragments
  · refine agrees_get fun pairs tail tail' ends alike light => ?_
    have outcome := bracedMacro_agrees pairs tail tail' ends alike light
    have missing : Agrees like false 1 (bound + 1) (FragmentsAlike like.kept)
        (behindOpening g (lefts pairs tail) none) (behindOpening h (rights pairs tail') none) :=
      (expressionRule_agrees grammars true).bindAfter fun _ _ expression =>
        agrees_separator.bind fun _ _ _ => agrees_pure expression.fragments
    change Outcome _ _ _ _ _
      ((((maybe bracedMacro).map _ : Parser _) >>= behindOpening g (lefts pairs tail)) _)
      ((((maybe bracedMacro).map _ : Parser _) >>= behindOpening h (rights pairs tail')) _)
    rw [openingMacro_apply, openingMacro_apply]
    generalize bracedMacro (lefts pairs tail) = read at outcome
    generalize bracedMacro (rights pairs tail') = read' at outcome
    cases outcome with
    | failed => exact missing pairs tail tail' ends alike light
    | read fragment some_ within =>
        have behind := behindOpening_outcome grammars ends alike some_ within light
          (.cons fragment .nil)
        exact (behind.behind within).mono some_ fun _ _ alike => alike

theorem letStatement_agrees (grammars : Agree like bound g h) :
    Agrees like false 1 (bound + 1) (FragmentsAlike like.kept) (letStatement g) (letStatement h) := by
  have word (name : String) (known : name ∈ keywords) := @agrees_word like false bound name known
  refine (agrees_word (by decide)).andThen fun _ _ _ => ?_
  refine (word "mut" (by decide)).maybe.bind fun _ _ _ => ?_
  refine (nestedPattern_agrees grammars).zero.bind fun pattern pattern' patterns => ?_
  have type := (@agrees_mark like false bound ':' nofun).zero.seqRight (grammars.type false)
  refine type.maybe.bind fun _ _ type => ?_
  have value := (@agrees_mark like false bound '=' nofun).zero.seqRight
    (grammars.expression false true).withText
  refine value.maybe.bind fun _ _ value => ?_
  have otherwise := (word "else" (by decide)).zero.seqRight
    ((block_agrees grammars).below (Nat.le_succ _))
  refine otherwise.maybe.bind fun _ _ otherwise => ?_
  refine agrees_semicolon.zero.bind fun _ _ semicolons => ?_
  have front := List.rel_append patterns.fragments (fragmentsAlike_getD type)
  cases value with
  | none => exact agrees_pure front
  | some read =>
      have fragments := List.rel_append (List.rel_append front read.1.fragments)
        (fragmentsAlike_getD otherwise)
      obtain ⟨binding, _⟩ := pattern
      obtain ⟨binding', _⟩ := pattern'
      cases patterns.binding with
      | none => exact agrees_pure fragments
      | some names =>
          exact agrees_pure (.cons (.binding names read.2 (like.stops semicolons)) fragments)

end Grammar

end ProgramIdl.Syntax
