import ProgramIdl.Proofs.Syntax.Agreement.Grammar
import ProgramIdl.Syntax.Grammar.Type

/-!
# Types and patterns of like trees

The rules for types and patterns agree over grammars that agree.  A rule may read lists that have one
token more than those of the grammar that it is written over, since it takes a token before it uses
that grammar for the same list.
-/

set_option autoImplicit false

namespace ProgramIdl.Syntax

open ProgramIdl.Syntax.Parser

section Fragments

variable {like : Likeness}

theorem fragmentsAlike_flatten {parts parts' : List (List Fragment)}
    (alike : List.Forall₂ (FragmentsAlike like.kept) parts parts') :
    FragmentsAlike like.kept parts.flatten parts'.flatten :=
  List.rel_flatten alike

theorem fragmentsAlike_getD {part part' : Option (List Fragment)}
    (alike : Option.Rel (FragmentsAlike like.kept) part part') :
    FragmentsAlike like.kept (part.getD []) (part'.getD []) := by
  cases alike with
  | some fragments => exact fragments
  | none => exact .nil

theorem PatternAlike.empty : PatternAlike like.kept {} {} :=
  ⟨.none, .nil⟩

theorem PatternAlike.of_fragments {fragments fragments' : List Fragment}
    (alike : FragmentsAlike like.kept fragments fragments') :
    PatternAlike like.kept { fragments := fragments } { fragments := fragments' } :=
  ⟨.none, alike⟩

theorem patternsAlike_fragments {patterns patterns' : List Pattern}
    (alike : List.Forall₂ (PatternAlike like.kept) patterns patterns') :
    FragmentsAlike like.kept (Pattern.allFragments patterns) (Pattern.allFragments patterns') :=
  List.rel_flatMap alike fun _ _ pattern => pattern.fragments

end Fragments

namespace Grammar

variable {like : Likeness} {opened : Bool} {bound : Nat} {g h : Grammar}

/-! ## Types -/

theorem arrayType_agrees (grammars : Agree like bound g h) :
    Agrees like false 1 bound (FragmentsAlike like.kept) (arrayType g) (arrayType h) := by
  refine (grammars.type false).bindAfter fun _ _ element => ?_
  have number := agrees_semicolon.zero.seqRight (grammars.expression false true)
  refine number.maybe.bind ?_
  rintro _ _ (length | _)
  · exact agrees_pure (List.rel_append element length.fragments)
  · exact agrees_pure element

theorem resultType_agrees (grammars : Agree like bound g h) :
    Agrees like opened 0 (bound + 1) (FragmentsAlike like.kept) (resultType g) (resultType h) := by
  refine agrees_ahead (respects_symbol (by decide)) fun answer => ?_
  refine .ite Iff.rfl ?_ (agrees_pure .nil)
  refine ((agrees_symbol (by decide) (by decide)).andThen fun _ _ _ => ?_).zero
  exact (grammars.type opened).zero

theorem typeArguments_agrees (grammars : Agree like bound g h) :
    Agrees like opened 1 (bound + 1) (FragmentsAlike like.kept) (typeArguments g) (typeArguments h) := by
  have angle : Respects like opened (Tree.isMark '<') := respects_isMark fun _ => by decide
  refine agrees_ahead (respects_headIs angle) fun answer => ?_
  refine .ite Iff.rfl ?_ ?_
  · exact agrees_angles.bindAfter fun _ _ _ => agrees_pure .nil
  · refine (grammars.type false).commaSeparated.inside.bindAfter fun _ _ types => ?_
    refine (resultType_agrees grammars).bind fun _ _ result => ?_
    exact agrees_pure (List.rel_append (fragmentsAlike_flatten types) result)

/-- The segments of a path type, behind what it starts from. -/
def pathTypeSegments (g : Grammar) : Parser (List Fragment) := do
  let _ ← segment
  let first ← maybe (typeArguments g)
  let more ← many do
    symbol "::"
    let _ ← maybe segment
    return (← maybe (typeArguments g)).getD []
  return first.getD [] ++ more.flatten

theorem pathTypeSegments_agrees (grammars : Agree like bound g h) :
    Agrees like opened 1 (bound + 1) (FragmentsAlike like.kept) (pathTypeSegments g)
      (pathTypeSegments h) := by
  refine agrees_segment.bindAfter fun _ _ _ => ?_
  have arguments := @typeArguments_agrees like opened bound g h grammars
  refine arguments.maybe.bind fun _ _ first => ?_
  have step := (@agrees_colons like opened (bound + 1)).bindAfter fun _ _ _ =>
    agrees_segment.maybe.bind fun _ _ _ =>
      arguments.maybe.bind fun _ _ found => agrees_pure (fragmentsAlike_getD found)
  refine step.many.bind fun _ _ more => ?_
  exact agrees_pure (List.rel_append (fragmentsAlike_getD first) (fragmentsAlike_flatten more))

theorem pathType_agrees (grammars : Agree like bound g h) :
    Agrees like opened 1 (bound + 1) (FragmentsAlike like.kept) (pathType g) (pathType h) := by
  have angle : Respects like opened (Tree.isMark '<') := respects_isMark fun _ => by decide
  have segments := @pathTypeSegments_agrees like opened bound g h grammars
  refine macroCall_agrees.maybe_andThen (fun _ _ fragment => ?_) ?_
  · exact agrees_pure (.cons fragment .nil)
  · refine agrees_ahead (respects_headIs angle) fun answer => ?_
    refine .ite Iff.rfl ?_ ?_
    · refine (startingType_agrees grammars).zero.bind fun _ _ _ => ?_
      exact agrees_colons.zero.bind fun _ _ _ => segments
    · exact agrees_colons.maybe.bind fun _ _ _ => segments

theorem bound_agrees (grammars : Agree like bound g h) :
    Agrees like opened 1 (bound + 1) (FragmentsAlike like.kept) (Grammar.bound g) (Grammar.bound h) := by
  have lifetimes : Respects like opened (Tree.isKind .lifetime) := respects_isKind fun _ => nofun
  refine agrees_ahead (respects_headIs lifetimes) fun answer => ?_
  refine .ite Iff.rfl (agrees_lifetime.bindAfter fun _ _ _ => agrees_pure .nil) ?_
  have skipped (name : String) (known : name ∈ keywords) :
      Agrees like opened 1 (bound + 1) Anything (skip (word name)) (skip (word name)) :=
    (agrees_word known).skip
  have angled (name : String) (known : name ∈ keywords) :
      Agrees like opened 1 (bound + 1) Anything (word name *> angles) (word name *> angles) :=
    (agrees_word known).seqAfter agrees_angles.zero
  have modifiers := (@agrees_mark like opened (bound + 1) '?' fun _ => by decide).skip.orElse <|
      (@agrees_mark like opened (bound + 1) '~' fun _ => by decide).skip.orElse <|
        (skipped "const" (by decide)).orElse <| (skipped "async" (by decide)).orElse <|
          (angled "for" (by decide)).orElse (angled "use" (by decide))
  refine modifiers.many.bind fun _ _ _ => ?_
  refine agrees_ahead (respects_headIs (respects_isGroup _)) fun answer => ?_
  exact .ite Iff.rfl (grammars.type false).inside (pathType_agrees grammars)

theorem bounds_agrees (grammars : Agree like bound g h) :
    Agrees like opened 1 (bound + 1) (FragmentsAlike like.kept) (bounds g) (bounds h) := by
  have one := @bound_agrees like opened bound g h grammars
  refine one.bindAfter fun _ _ first => ?_
  have plus := @agrees_mark like opened (bound + 1) '+' fun _ => by decide
  refine (plus.zero.seqRight one).many.bind fun _ _ more => ?_
  refine plus.maybe.bind fun _ _ _ => ?_
  exact agrees_pure (List.rel_append first (fragmentsAlike_flatten more))

theorem pointerParameter_agrees (grammars : Agree like bound g h) :
    Agrees like opened 1 bound (FragmentsAlike like.kept) (pointerParameter g) (pointerParameter h) := by
  refine ((attributes_agrees grammars).below (Nat.le_succ _)).bind fun _ _ _ => ?_
  refine agrees_ahead (respects_symbol (by decide)) fun answer => ?_
  refine .ite Iff.rfl ?_ ?_
  · exact (agrees_symbol (by decide) (by decide)).bindAfter fun _ _ _ => agrees_pure .nil
  · have colon := @agrees_mark like opened bound ':' fun _ => by decide
    have label : Agrees like opened 0 bound (like.token false)
        (anyWord >>= fun _ => do
          if ← ahead (startsWithSymbol [':', ':']) then failure
          mark ':')
        (anyWord >>= fun _ => do
          if ← ahead (startsWithSymbol [':', ':']) then failure
          mark ':') := by
      refine agrees_anyWord.zero.bind fun _ _ _ => ?_
      refine agrees_ahead (respects_symbol (by decide)) fun answer => ?_
      have never := @agrees_failure Unit Unit like opened 0 bound Eq
      exact .ite Iff.rfl (never.bind fun _ _ _ => colon.zero) colon.zero
    exact label.maybe.bind fun _ _ _ => grammars.type opened

theorem pointerType_agrees (grammars : Agree like bound g h) :
    Agrees like opened 1 (bound + 1) (FragmentsAlike like.kept) (pointerType g) (pointerType h) := by
  have qualifier := ((@agrees_word like opened (bound + 1) "unsafe" (by decide)).skip).orElse
    ((agrees_word (by decide : "extern" ∈ keywords)).seqAfter agrees_literal.maybe.skip)
  refine qualifier.many.bind fun _ _ _ => ?_
  refine (agrees_word (by decide)).bindAfter fun _ _ _ => ?_
  refine (pointerParameter_agrees grammars).commaSeparated.inside.zero.bind fun _ _ parameters => ?_
  refine (resultType_agrees grammars).bind fun _ _ result => ?_
  exact agrees_pure (List.rel_append (fragmentsAlike_flatten parameters) result)

theorem typeRule_agrees (grammars : Agree like bound g h) :
    Agrees like opened 1 (bound + 1) (FragmentsAlike like.kept) (typeRule g) (typeRule h) := by
  have mark (c : Char) (kept : c ≠ ';') : Agrees like opened 1 (bound + 1) (like.token false)
      (mark c) (mark c) :=
    agrees_mark fun _ => kept
  have headMark (c : Char) (kept : c ≠ ';') : RespectsLists like opened (headIs (Tree.isMark c)) :=
    respects_headIs (respects_isMark fun _ => kept)
  refine agrees_get_ite (headMark '&' (by decide)) (agrees_get_same ?_) ?_
  · refine (mark '&' (by decide)).andThen fun _ _ _ => ?_
    refine agrees_lifetime.maybe.bind fun _ _ _ => ?_
    exact (agrees_word (by decide)).maybe.bind fun _ _ _ => (grammars.type opened).zero
  refine agrees_get_ite (headMark '*' (by decide)) (agrees_get_same ?_) ?_
  · refine (mark '*' (by decide)).andThen fun _ _ _ => ?_
    have kind := (@agrees_word like opened bound "const" (by decide)).skip.orElse
      (agrees_word (by decide : "mut" ∈ keywords)).skip
    exact kind.zero.bind fun _ _ _ => (grammars.type opened).zero
  refine agrees_get_ite (headMark '!' (by decide)) (agrees_get_same ?_) ?_
  · exact (mark '!' (by decide)).bindAfter fun _ _ _ => agrees_pure .nil
  refine agrees_get_ite (respects_headIs (respects_isGroup _)) (agrees_get_same ?_) ?_
  · refine (grammars.type false).commaSeparated.inside.bindAfter fun _ _ types => ?_
    exact agrees_pure (fragmentsAlike_flatten types)
  refine agrees_get_ite (respects_headIs (respects_isGroup _)) (agrees_get_same ?_) ?_
  · exact (arrayType_agrees grammars).inside.mono (by omega) (Nat.le_refl _) fun _ _ alike => alike
  refine agrees_get_ite (respects_headIsWord (by decide)) (agrees_get_same ?_) ?_
  · refine agrees_anyWord.bindAfter fun _ _ _ => ?_
    exact (bounds_agrees grammars).zero
  refine agrees_get_ite (respects_headIsWord (by decide)) (agrees_get_same ?_) ?_
  · refine (agrees_word (by decide)).andThen fun _ _ _ => ?_
    exact agrees_angles.zero.bind fun _ _ _ => (grammars.type opened).zero
  refine agrees_get_ite (respects_headIsWord (by decide)) (agrees_get_same ?_) ?_
  · exact pointerType_agrees grammars
  refine agrees_get_ite (respects_headIsWord (by decide)) (agrees_get_same ?_) ?_
  · exact agrees_anyWord.bindAfter fun _ _ _ => agrees_pure .nil
  exact agrees_get_same (pathType_agrees grammars)

/-! ## Patterns -/

theorem alternatives_agrees (grammars : Agree like bound g h) {single single' : Parser Pattern}
    (one : Agrees like opened 1 bound (PatternAlike like.kept) single single') :
    Agrees like opened 1 bound (PatternAlike like.kept) (alternatives g single)
      (alternatives h single') := by
  have bar := @agrees_mark like opened bound '|' fun _ => by decide
  refine bar.maybe.bind fun leading leading' marked => ?_
  refine one.bindAfter fun first first' firsts => ?_
  refine (bar.zero.seqRight (grammars.pattern opened)).many.bind fun more more' others => ?_
  have same : (more.isEmpty && leading.isNone) = (more'.isEmpty && leading'.isNone) := by
    cases marked <;> cases others <;> rfl
  refine .ite (by rw [same]) (agrees_pure firsts) ?_
  exact agrees_pure (.of_fragments (patternsAlike_fragments (.cons firsts others)))

theorem nestedPattern_agrees (grammars : Agree like bound g h) :
    Agrees like opened 1 bound (PatternAlike like.kept) (nestedPattern g) (nestedPattern h) :=
  alternatives_agrees grammars (grammars.pattern opened)

theorem rangeEnd_agrees (grammars : Agree like bound g h) :
    Agrees like opened 1 (bound + 1) Anything (rangeEnd g) (rangeEnd h) := by
  refine (@agrees_mark like opened (bound + 1) '-' fun _ => by decide).maybe.bind fun _ _ _ => ?_
  exact agrees_literal.skip.orElse (path_agrees grammars)

theorem rangeTail_agrees (grammars : Agree like bound g h) :
    Agrees like opened 1 (bound + 1) Anything (rangeTail g) (rangeTail h) := by
  have finish := @rangeEnd_agrees like opened bound g h grammars
  have dots (spelling : String) (some_ : spelling ≠ "") (operator : isOperator spelling.toList = true) :
      Agrees like opened 1 (bound + 1) Anything (symbol spelling) (symbol spelling) :=
    agrees_symbol some_ operator
  have closed := (dots "..=" (by decide) (by decide)).orElse (dots "..." (by decide) (by decide))
  exact (closed.seqAfter finish.zero).orElse
    ((dots ".." (by decide) (by decide)).seqAfter finish.maybe.skip)

theorem fieldPattern_agrees (grammars : Agree like bound g h) :
    Agrees like opened 1 bound (PatternAlike like.kept) (fieldPattern g) (fieldPattern h) := by
  refine ((attributes_agrees grammars).below (Nat.le_succ _)).bind fun _ _ _ => ?_
  refine agrees_ahead (respects_symbol (by decide)) fun answer => ?_
  refine .ite Iff.rfl ?_ ?_
  · exact (agrees_symbol (by decide) (by decide)).bindAfter fun _ _ _ => agrees_pure .empty
  · have label := (@agrees_anyWord like opened bound).skip.orElse agrees_literal.skip
    have named := label.bindAfter fun _ _ _ =>
      (@agrees_mark like opened bound ':' fun _ => by decide).zero.bind fun _ _ _ =>
        (nestedPattern_agrees grammars).zero
    have word (name : String) (known : name ∈ keywords) :=
      (@agrees_word like opened bound name known).maybe
    refine Agrees.maybe_cases named (fun _ _ pattern => agrees_pure pattern) ?_
    refine (word "box" (by decide)).bind fun _ _ _ => ?_
    refine (word "ref" (by decide)).bind fun _ _ _ => ?_
    refine (word "mut" (by decide)).bind fun _ _ _ => ?_
    exact agrees_name.bindAfter fun _ _ _ => agrees_pure .empty

/-- What may follow the path that a pattern starts with. -/
def behindPath (g : Grammar) (binding : Option String) : Parser Pattern := do
  let rest ← get
  if headIs (Tree.isGroup .parenthesis) rest then
    let fields ← inside .parenthesis (commaSeparated (nestedPattern g))
    return { fragments := Pattern.allFragments fields }
  else if headIs (Tree.isGroup .brace) rest then
    let fields ← inside .brace (commaSeparated (fieldPattern g))
    return { fragments := Pattern.allFragments fields }
  else if headIs (Tree.isMark '@') rest then
    let _ ← mark '@'
    return { fragments := (← g.pattern).fragments }
  else if startsWithSymbol ['.', '.'] rest then
    rangeTail g
    return {}
  else return { binding := binding }

theorem behindPath_agrees (grammars : Agree like bound g h) {binding binding' : Option String}
    (bindings : Option.Rel (NameAlike like) binding binding') :
    Agrees like opened 0 bound (PatternAlike like.kept) (behindPath g binding)
      (behindPath h binding') := by
  have nested := @nestedPattern_agrees like false bound g h grammars
  refine agrees_get_ite (respects_headIs (respects_isGroup _)) (agrees_get_same ?_) ?_
  · refine (nested.commaSeparated.inside.below (Nat.le_succ _)).zero.bind fun _ _ fields => ?_
    exact agrees_pure (.of_fragments (patternsAlike_fragments fields))
  refine agrees_get_ite (respects_headIs (respects_isGroup _)) (agrees_get_same ?_) ?_
  · have fields := (@fieldPattern_agrees like false bound g h grammars).commaSeparated
    refine (fields.inside.below (Nat.le_succ _)).zero.bind fun _ _ fields => ?_
    exact agrees_pure (.of_fragments (patternsAlike_fragments fields))
  refine agrees_get_ite (respects_headIs (respects_isMark fun _ => by decide)) (agrees_get_same ?_) ?_
  · refine (agrees_mark fun _ => by decide).zero.bind fun _ _ _ => ?_
    refine (grammars.pattern opened).zero.bind fun _ _ pattern => ?_
    exact agrees_pure (.of_fragments pattern.fragments)
  refine agrees_get_ite (respects_symbol (by decide)) (agrees_get_same ?_) ?_
  · refine ((rangeTail_agrees grammars).below (Nat.le_succ _)).zero.bind fun _ _ _ => ?_
    exact agrees_pure .empty
  exact agrees_get_same (agrees_pure ⟨bindings, .nil⟩)

/-- The name that a path binds if it is the first of some trees and the others are left. -/
def pathBinding (start rest : List Tree) : Option String :=
  match start with
  | .leaf token :: _ => if rest.length + 1 = start.length then some token.name else none
  | _ => none

theorem pathBinding_alike {pairs : List (Tree × Tree)} {tail tail' : List Tree} {taken : Nat}
    (alike : AllAlike like false pairs) (some_ : 1 ≤ taken) (within : taken ≤ pairs.length) :
    Option.Rel (NameAlike like) (pathBinding (lefts pairs tail) (lefts (pairs.drop taken) tail))
      (pathBinding (rights pairs tail') (rights (pairs.drop taken) tail')) := by
  cases alike with
  | nil =>
      rw [List.length_nil] at within
      omega
  | @cons _ tree tree' rest trees _ _ =>
      cases trees with
      | group _ _ _ _ => exact .none
      | leaf tokens =>
          simp only [pathBinding, lefts_cons, rights_cons, List.length_cons, length_lefts,
            length_rights, List.length_drop]
          rw [List.length_cons] at within
          by_cases one : taken = 1
          · rw [if_pos (by omega), if_pos (by omega)]
            exact .some (.of_tokens tokens)
          · rw [if_neg (by omega), if_neg (by omega)]
            exact .none

theorem pathPattern_agrees (grammars : Agree like bound g h) :
    Agrees like opened 1 (bound + 1) (PatternAlike like.kept) (pathPattern g) (pathPattern h) := by
  refine macroCall_agrees.maybe_andThen (fun _ _ fragment => ?_) ?_
  · exact agrees_pure (.of_fragments (.cons fragment .nil))
  · refine agrees_get fun pairs tail tail' ends alike light => ?_
    have path := @path_agrees like opened bound g h grammars pairs tail tail' ends alike light
    refine @Outcome.bind _ _ _ _ Anything 1 pairs tail tail' _ _
      (fun _ rest => behindPath g (pathBinding (lefts pairs tail) rest) rest)
      (fun _ rest => behindPath h (pathBinding (rights pairs tail') rest) rest)
      (PatternAlike like.kept) 0 path fun _ _ taken _ enough within => ?_
    have lighter := weight_drop_lt enough within
    exact behindPath_agrees grammars (pathBinding_alike alike enough within) _ _ _ ends
      (alike.drop taken) (by omega)

theorem patternRule_agrees (grammars : Agree like bound g h) :
    Agrees like opened 1 (bound + 1) (PatternAlike like.kept) (patternRule g) (patternRule h) := by
  have nested := @nestedPattern_agrees like false bound g h grammars
  have range := @rangeTail_agrees like opened bound g h grammars
  have word (name : String) (known : name ∈ keywords) :=
    (@agrees_word like opened (bound + 1) name known)
  have headMark (c : Char) (kept : c ≠ ';') : RespectsLists like opened (headIs (Tree.isMark c)) :=
    respects_headIs (respects_isMark fun _ => kept)
  refine agrees_get_ite (headMark '&' (by decide)) (agrees_get_same ?_) ?_
  · refine (agrees_mark fun _ => by decide).andThen fun _ _ _ => ?_
    refine (agrees_word (by decide)).maybe.bind fun _ _ _ => ?_
    exact (grammars.pattern opened).zero.bind fun _ _ pattern =>
      agrees_pure (.of_fragments pattern.fragments)
  refine agrees_get_ite (respects_headIs (respects_isGroup _)) (agrees_get_same ?_) ?_
  · refine nested.commaSeparated.inside.bindAfter fun _ _ parts => ?_
    exact agrees_pure (.of_fragments (patternsAlike_fragments parts))
  refine agrees_get_ite (respects_headIs (respects_isGroup _)) (agrees_get_same ?_) ?_
  · refine nested.commaSeparated.inside.bindAfter fun _ _ parts => ?_
    exact agrees_pure (.of_fragments (patternsAlike_fragments parts))
  have literals : RespectsLists like opened (headIs (Tree.isKind .literal)) :=
    respects_headIs (respects_isKind fun _ => nofun)
  refine agrees_get_ite (literals.or (headMark '-' (by decide))) (agrees_get_same ?_) ?_
  · refine (agrees_mark fun _ => by decide).maybe.bind fun _ _ _ => ?_
    refine agrees_literal.bindAfter fun _ _ _ => ?_
    exact range.maybe.bind fun _ _ _ => agrees_pure .empty
  refine agrees_get_ite (respects_symbol (by decide)) (agrees_get_same ?_) ?_
  · exact range.bindAfter fun _ _ _ => agrees_pure .empty
  refine agrees_get_ite (respects_headIsWord (by decide)) (agrees_get_same ?_) ?_
  · refine (word "ref" (by decide)).maybe.bind fun _ _ _ => ?_
    refine (word "mut" (by decide)).maybe.bind fun _ _ _ => ?_
    refine agrees_segment.andThen fun _ _ _ => ?_
    have bound_ := (@agrees_mark like opened bound '@' fun _ => by decide).zero.seqRight
      (grammars.pattern opened)
    refine bound_.maybe.bind ?_
    rintro _ _ (pattern | _)
    · exact agrees_pure (.of_fragments pattern.fragments)
    · exact agrees_pure .empty
  refine agrees_get_ite (respects_headIsWord (by decide)) (agrees_get_same ?_) ?_
  · refine (word "box" (by decide)).andThen fun _ _ _ => ?_
    exact (grammars.pattern opened).zero.bind fun _ _ pattern =>
      agrees_pure (.of_fragments pattern.fragments)
  refine agrees_get_ite (respects_headIsWord (by decide)) (agrees_get_same ?_) ?_
  · refine (word "const" (by decide)).bindAfter fun _ _ _ => ?_
    exact grammars.statements.inside.zero.bind fun _ _ fragments =>
      agrees_pure (.of_fragments fragments)
  exact agrees_get_same (pathPattern_agrees grammars)

end Grammar

end ProgramIdl.Syntax
