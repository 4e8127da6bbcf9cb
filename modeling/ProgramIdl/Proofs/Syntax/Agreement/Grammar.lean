import ProgramIdl.Proofs.Syntax.Agreement
import ProgramIdl.Proofs.Syntax.Related

/-!
# What like trees are read as

Fragments, patterns, expressions and items are alike if they keep the texts and names of like trees
and tokens.  Two grammars agree if their parsers do.
-/

set_option autoImplicit false

namespace ProgramIdl.Syntax

open ProgramIdl.Syntax.Parser

/-- What is kept of like trees: the texts of like trees, and the names of like tokens. -/
def Likeness.kept (like : Likeness) : Relations where
  text _ := TextAlike like
  name := NameAlike like
  comments texts texts' :=
    ∃ token token', like.token false token token' ∧ texts = token.comments ∧ texts' = token'.comments
  start := like.start
  stop := like.stop

theorem textAlike_empty (like : Likeness) : TextAlike like "" "" :=
  ⟨[], .nil, rfl, rfl⟩

theorem NameAlike.of_tokens {like : Likeness} {inner : Bool} {token token' : Token}
    (tokens : like.token inner token token') : NameAlike like token.name token'.name :=
  ⟨token, token', like.first tokens, rfl, rfl⟩

theorem NotesAlike.of_tokens {like : Likeness} {token token' : Token}
    (tokens : like.token false token token') :
    NotesAlike like.kept token.comments token'.comments :=
  .comments ⟨token, token', tokens, rfl, rfl⟩

/-! ## Grammars -/

/-- Grammars whose parsers agree on lists with fewer tokens than a bound. -/
structure Grammar.Agree (like : Likeness) (bound : Nat) (g h : Grammar) : Prop where
  type (opened : Bool) : Agrees like opened 1 bound (FragmentsAlike like.kept) g.type h.type
  pattern (opened : Bool) : Agrees like opened 1 bound (PatternAlike like.kept) g.pattern h.pattern
  expression (opened structs : Bool) :
    Agrees like opened 1 bound (ExpressionAlike like.kept) (g.expression structs) (h.expression structs)
  blockLike (opened : Bool) : Agrees like opened 1 bound (FragmentsAlike like.kept) g.blockLike h.blockLike
  statements : Agrees like false 0 bound (FragmentsAlike like.kept) g.statements h.statements
  items : Agrees like false 0 bound (List.Forall₂ (AnnotatedAlike like.kept (ParsedAlike like.kept)))
    g.items h.items

namespace Grammar

variable {like : Likeness} {opened : Bool} {bound : Nat} {g h : Grammar}

theorem agree_zero : Agree like 0 g h :=
  ⟨fun _ => agrees_of_zero, fun _ => agrees_of_zero, fun _ _ => agrees_of_zero,
    fun _ => agrees_of_zero, agrees_of_zero, agrees_of_zero⟩

theorem agrees_colons : Agrees like opened 1 bound Anything (symbol "::") (symbol "::") :=
  agrees_symbol (by decide) (by decide)

/-! ## Attributes -/

theorem attributeBody_agrees (grammars : Agree like bound g h) :
    Agrees like opened 0 bound Anything (attributeBody g) (attributeBody h) := by
  refine agrees_colons.maybe.bind fun _ _ _ => ?_
  refine agrees_anyWord.zero.bind fun _ _ _ => ?_
  refine (agrees_colons.zero.seqRight agrees_anyWord).many.bind fun _ _ _ => ?_
  have value : Agrees like opened 1 bound Anything (skip (mark '=' *> g.expression true))
      (skip (mark '=' *> h.expression true)) :=
    ((agrees_mark fun _ => by decide).zero.seqRight (grammars.expression opened true)).skip
  exact (value.orElse agrees_anyGroup.skip).maybe.bind fun _ _ _ => agrees_pure trivial

theorem attributeGroup_alike (grammars : Agree like bound g h) {body body' : Tree}
    (trees : Tree.Alike like false body body') (light : body.tokens.length ≤ bound) :
    (inside .bracket (attributeBody g) [body]).isSome =
      (inside .bracket (attributeBody h) [body']).isSome := by
  have alone : weight [(body, body')] < bound + 1 := by
    rw [weight_cons, weight_nil]
    exact Nat.lt_succ_of_le light
  have agrees : Agrees like false 1 (bound + 1) Anything (inside .bracket (attributeBody g))
      (inside .bracket (attributeBody h)) := (attributeBody_agrees grammars).inside
  have outcome := agrees [(body, body')] [] [] .nil (.cons trees (fun _ => nofun) .nil) alone
  simp only [lefts_cons, rights_cons, lefts_nil, rights_nil] at outcome
  generalize inside .bracket (attributeBody g) [body] = read at outcome
  generalize inside .bracket (attributeBody h) [body'] = read' at outcome
  cases outcome <;> rfl

/-- An outer attribute takes two trees: a mark and a group. -/
theorem outerAttribute_cons (g : Grammar) (hash body : Tree) (rest : List Tree) :
    outerAttribute g (hash :: body :: rest) =
      if hash.isMark '#' = true ∧ (inside .bracket (attributeBody g) [body]).isSome then
        some (hash.first.comments ++ [sourceText [hash, body]], rest)
      else none := by
  rw [outerAttribute]
  cases hash.isMark '#' with
  | false => rfl
  | true => cases inside .bracket (attributeBody g) [body] <;> rfl

theorem outerAttribute_of_not_mark (g : Grammar) {tree : Tree} (other : tree.isMark '#' = false)
    (rest : List Tree) : outerAttribute g (tree :: rest) = none := by
  cases rest with
  | nil => rfl
  | cons next rest => rw [outerAttribute_cons, other]; simp

/-- The text of like trees starts with the mark that is the first of them. -/
theorem head?_sourceText_mark {hash hash' : Tree} {c : Char}
    (trees : Tree.Alike like false hash hash') (mark : hash.isMark c = true) (rest : List Tree) :
    (sourceText (hash :: rest)).toList.head? = some c ∧
      (sourceText (hash' :: rest)).toList.head? = some c := by
  cases trees with
  | group _ _ _ _ _ => cases mark
  | @leaf _ a b tokens =>
      have kind : a.kind = .mark c := by simpa [Tree.isMark] using mark
      have text := like.mark tokens kind
      have text' := like.text tokens (by simp [kind])
      rw [text] at text'
      simp [sourceText, Tree.allTokens, Tree.tokens, text, ← text']

theorem outerAttribute_agrees (grammars : Agree like bound g h) :
    Agrees like opened 1 (bound + 1) (NotesAlike like.kept) (outerAttribute g) (outerAttribute h) := by
  intro pairs tail tail' ends alike light
  cases alike with
  | nil =>
      cases ends with
      | nil => exact .failed
      | semicolon allowed kind kind' =>
          rw [lefts_nil, rights_nil, outerAttribute_of_not_mark g (by simp [Tree.isMark, kind]),
            outerAttribute_of_not_mark h (by simp [Tree.isMark, kind'])]
          exact .failed
  | @cons _ hash hash' _ trees joint behind =>
      have wholly := AllAlike.cons trees joint behind
      cases behind with
      | nil =>
          cases ends with
          | nil => exact .failed
          | semicolon allowed kind kind' =>
              simp only [lefts_cons, rights_cons, lefts_nil, rights_nil, outerAttribute_cons]
              rw [if_neg (by simp [inside]), if_neg (by simp [inside])]
              exact .failed
      | @cons _ tree tree' rest body _ behind =>
          have mark := (@respects_isMark like false '#' (by simp)).same trees
          have lighter : tree.tokens.length ≤ bound := by
            rw [weight_cons, weight_cons] at light
            have some_ := List.length_pos_iff.mpr hash.tokens_ne_nil
            dsimp only at light
            omega
          have group := attributeGroup_alike grammars body.first lighter
          simp only [lefts_cons, rights_cons, outerAttribute_cons, ← mark, group]
          split
          · rename_i starts
            have text : TextAlike like (sourceText [hash, tree]) (sourceText [hash', tree']) :=
              ⟨_, wholly.take 2, rfl, rfl⟩
            have spelled : NotesAlike like.kept _ _ := .spelled text
              (head?_sourceText_mark trees starts.1 _).1 (head?_sourceText_mark trees starts.1 _).2
            have notes := NotesAlike.append (.of_tokens trees.first_token) spelled
            exact ((Outcome.here notes).cons _).cons _ |>.mono (by omega) fun _ _ notes => notes
          · exact .failed

/-- An inner attribute takes three trees: two marks and a group. -/
theorem innerAttribute_cons (g : Grammar) (hash bang body : Tree) (rest : List Tree) :
    innerAttribute g (hash :: bang :: body :: rest) =
      if hash.isMark '#' = true ∧ bang.isMark '!' = true ∧
          (inside .bracket (attributeBody g) [body]).isSome then
        some (hash.first.comments, rest)
      else none := by
  rw [innerAttribute]
  cases hash.isMark '#' with
  | false => rfl
  | true =>
      cases bang.isMark '!' with
      | false => rfl
      | true => cases inside .bracket (attributeBody g) [body] <;> rfl

theorem innerAttribute_of_not_marks (g : Grammar) {hash bang : Tree}
    (other : hash.isMark '#' = false ∨ bang.isMark '!' = false) (rest : List Tree) :
    innerAttribute g (hash :: bang :: rest) = none := by
  cases rest with
  | nil => rfl
  | cons next rest =>
      rw [innerAttribute_cons, if_neg]
      rintro ⟨mark, bang, _⟩
      rcases other with none | none
      · rw [mark] at none
        cases none
      · rw [bang] at none
        cases none

theorem innerAttribute_agrees (grammars : Agree like bound g h) :
    Agrees like opened 1 (bound + 1) (NotesAlike like.kept) (innerAttribute g) (innerAttribute h) := by
  intro pairs tail tail' ends alike light
  have noMark {token : Token} (kind : token.kind = .mark ';') (c : Char) (other : ';' ≠ c) :
      (Tree.leaf token).isMark c = false := by
    simpa [Tree.isMark, kind] using other
  have short {g : Grammar} {token : Token} (kind : token.kind = .mark ';') (rest : List Tree) :
      innerAttribute g (.leaf token :: rest) = none := by
    cases rest with
    | nil => rfl
    | cons next rest => exact innerAttribute_of_not_marks g (.inl (noMark kind '#' (by decide))) rest
  cases alike with
  | nil =>
      cases ends with
      | nil => exact .failed
      | semicolon allowed kind kind' =>
          rw [lefts_nil, rights_nil, short kind, short kind']
          exact .failed
  | @cons _ hash hash' _ trees joint behind =>
      cases behind with
      | nil =>
          cases ends with
          | nil => exact .failed
          | semicolon allowed kind kind' =>
              rw [lefts_cons, rights_cons, lefts_nil, rights_nil,
                innerAttribute_of_not_marks g (.inr (noMark kind '!' (by decide))),
                innerAttribute_of_not_marks h (.inr (noMark kind' '!' (by decide)))]
              exact .failed
      | @cons _ bang bang' _ bangs _ behind =>
          cases behind with
          | nil =>
              cases ends with
              | nil => exact .failed
              | semicolon allowed kind kind' =>
                  simp only [lefts_cons, rights_cons, lefts_nil, rights_nil, innerAttribute_cons]
                  rw [if_neg (by simp [inside]), if_neg (by simp [inside])]
                  exact .failed
          | @cons _ tree tree' rest body _ behind =>
              have marks (c : Char) := (@respects_isMark like false c (by simp))
              have lighter : tree.tokens.length ≤ bound := by
                rw [weight_cons, weight_cons, weight_cons] at light
                have some_ := List.length_pos_iff.mpr hash.tokens_ne_nil
                dsimp only at light
                omega
              have group := attributeGroup_alike grammars body.first lighter
              simp only [lefts_cons, rights_cons, innerAttribute_cons, (marks '#').same trees,
                (marks '!').same bangs, group]
              split
              · exact (((Outcome.here (.of_tokens trees.first_token)).cons _).cons _).cons _ |>.mono
                  (by omega) fun _ _ notes => notes
              · exact .failed

theorem notesAlike_flatten {notes notes' : List Annotations}
    (alike : List.Forall₂ (NotesAlike like.kept) notes notes') :
    NotesAlike like.kept notes.flatten notes'.flatten := by
  induction alike with
  | nil => exact .nil
  | cons first _ inductionHypothesis => exact .append first inductionHypothesis

theorem attributes_agrees (grammars : Agree like bound g h) :
    Agrees like opened 0 (bound + 1) (NotesAlike like.kept) (attributes g) (attributes h) := by
  have one := (@outerAttribute_agrees like opened bound g h grammars).orElse
    (innerAttribute_agrees grammars)
  exact one.many.bind fun _ _ notes => agrees_pure (notesAlike_flatten notes)

variable {α β : Type} {related : α → β → Prop} {parser : Parser α} {parser' : Parser β}
  {least smaller : Nat}

theorem annotated_agrees {earlier earlier' : Annotations} (grammars : Agree like bound g h)
    (near : smaller ≤ bound + 1) (front : NotesAlike like.kept earlier earlier')
    (agrees : Agrees like false least smaller related parser parser') :
    Agrees like false least smaller (AnnotatedAlike like.kept related) (annotated g earlier parser)
      (annotated h earlier' parser') := by
  refine ((attributes_agrees grammars).below near).bind fun notes notes' notesAlike => ?_
  refine agrees_get fun pairs tail tail' ends alike light => ?_
  have outcome := agrees pairs tail tail' ends alike light
  cases alike with
  | nil =>
      cases ends with
      | nil => exact .failed
      | semicolon allowed _ _ => cases allowed
  | @cons _ tree tree' _ trees _ _ =>
      have comments := NotesAlike.of_tokens trees.first_token
      have final := (NotesAlike.append front notesAlike).append comments
      exact @Outcome.bind _ _ _ _ related least _ _ _ _ _
        (fun value => pure ⟨earlier ++ notes ++ tree.first.comments, tree.first.line, value⟩)
        (fun value => pure ⟨earlier' ++ notes' ++ tree'.first.comments, tree'.first.line, value⟩)
        (AnnotatedAlike like.kept related) 0 outcome fun _ _ _ values _ _ => .here ⟨final, values⟩

theorem annotatedList_agrees (grammars : Agree like bound g h) (near : smaller ≤ bound + 1)
    (agrees : Agrees like false 1 smaller related parser parser') :
    Agrees like false 0 smaller (List.Forall₂ (AnnotatedAlike like.kept related))
      (annotatedList g parser) (annotatedList h parser') := by
  have comma : Agrees like false 1 smaller (like.token false) (mark ',') (mark ',') :=
    agrees_mark nofun
  refine (annotated_agrees grammars near .nil agrees).maybe.bind ?_
  rintro _ _ (first | _)
  · have more := comma.zero.bind fun _ _ tokens =>
      annotated_agrees grammars near (.of_tokens tokens) agrees
    exact more.many.bind fun _ _ rest =>
      comma.maybe.bind fun _ _ _ => agrees_pure (List.Forall₂.cons first rest)
  · exact agrees_pure List.Forall₂.nil

/-! ## Paths and macro calls -/

theorem furtherSegments_agrees :
    Agrees like opened 0 bound Anything furtherSegments furtherSegments :=
  (agrees_colons.zero.seqRight (agrees_segment.skip.orElse agrees_angles)).many.skip

theorem plainPath_agrees : Agrees like opened 1 bound Anything plainPath plainPath := by
  refine agrees_colons.maybe.bind fun _ _ _ => ?_
  exact agrees_segment.bindAfter fun _ _ _ => furtherSegments_agrees

theorem startingType_agrees (grammars : Agree like bound g h) :
    Agrees like opened 1 (bound + 1) Anything (startingType g) (startingType h) := by
  refine (agrees_mark fun _ => by decide).andThen fun _ _ _ => ?_
  refine (grammars.type opened).zero.bind fun _ _ _ => ?_
  refine ((agrees_word (by decide)).zero.seqRight (grammars.type opened)).maybe.bind fun _ _ _ => ?_
  exact (agrees_mark fun _ => by decide).zero.bind fun _ _ _ => agrees_pure trivial

theorem path_agrees (grammars : Agree like bound g h) :
    Agrees like opened 1 (bound + 1) Anything (path g) (path h) := by
  have angle : Respects like opened (Tree.isMark '<') := respects_isMark fun _ => by decide
  refine agrees_ahead (respects_headIs angle) fun answer => ?_
  refine .ite Iff.rfl ?_ plainPath_agrees
  refine (startingType_agrees grammars).bindAfter fun _ _ _ => ?_
  refine agrees_colons.zero.bind fun _ _ _ => ?_
  exact agrees_segment.zero.bind fun _ _ _ => furtherSegments_agrees

/-- The text of a group starts with the delimiter that opens it. -/
theorem sourceText_group_head? {group group' : Tree} (trees : Tree.Alike like false group group')
    (isGroup : ∀ token, group ≠ .leaf token) :
    (sourceText [group]).toList.head? = (sourceText [group']).toList.head? := by
  cases trees with
  | leaf _ => exact absurd rfl (isGroup _)
  | @group _ _ opening opening' closing closing' pairs openings openingKind _ _ _ =>
      have same := like.text openings (by rw [openingKind]; exact nofun)
      have some_ := opening.text_ne
      simp only [sourceText, Tree.allTokens, Tree.tokens, List.cons_append, String.toList_ofList, ← same]
      cases text : opening.text with
      | nil => exact absurd text some_
      | cons c rest => rfl

/-- The arguments of a macro call start with the same delimiter. -/
theorem macroArguments_agrees :
    Agrees like opened 1 bound (fun arguments arguments' => TextAlike like arguments arguments' ∧
      arguments.toList.head? = arguments'.toList.head?) macroArguments macroArguments := by
  refine (agrees_mark fun _ => by decide).bindAfter fun _ _ _ => ?_
  refine agrees_anyGroup.zero.bind ?_
  rintro group group' ⟨trees, isGroup⟩
  have alike : AllAlike like false [(group, group')] := .cons trees (fun _ => nofun) .nil
  exact agrees_pure ⟨⟨_, alike, rfl, rfl⟩, sourceText_group_head? trees isGroup⟩

/-- A macro call that starts at a place. -/
def macroCallAt (start line : Nat) : Parser Fragment := do
  let (_, path) ← withText plainPath
  return .macroCall path (← macroArguments) start line

theorem macroCall_cons (tree : Tree) (rest : List Tree) :
    macroCall (tree :: rest) =
      if tree.isWord "macro_rules" then none
      else macroCallAt tree.first.start tree.first.line (tree :: rest) := by
  change (if _ then _ else _ : Parser Fragment) (tree :: rest) = _
  split
  · rfl
  · rfl

theorem macroCallAt_agrees {start start' line line' : Nat} (starts : like.start start start') :
    Agrees like opened 1 bound (FragmentAlike like.kept) (macroCallAt start line)
      (macroCallAt start' line') := by
  refine plainPath_agrees.withText.bindAfter ?_
  rintro ⟨_, path⟩ ⟨_, path'⟩ ⟨_, paths⟩
  refine macroArguments_agrees.zero.bind ?_
  rintro arguments arguments' ⟨texts, delimiters⟩
  exact agrees_pure (.macroCall paths texts delimiters starts)

theorem macroCallAt_of_failed {trees : List Tree} (failed : withText plainPath trees = none)
    (start line : Nat) : macroCallAt start line trees = none := by
  change (withText plainPath trees).bind _ = none
  rw [failed]
  rfl

theorem macroCall_agrees :
    Agrees like opened 1 bound (FragmentAlike like.kept) macroCall macroCall := by
  intro pairs tail tail' ends alike light
  cases alike with
  | nil =>
      cases ends with
      | nil => exact .failed
      | @semicolon token token' rest rest' allowed kind kind' =>
          obtain ⟨none, none'⟩ := ((@plainPath_agrees like opened bound).withText [] (.leaf token :: rest)
            (.leaf token' :: rest') (.semicolon allowed kind kind') .nil light).none_of_nil
          rw [lefts_nil] at none
          rw [rights_nil] at none'
          rw [lefts_nil, rights_nil, macroCall_cons, macroCall_cons, macroCallAt_of_failed none,
            macroCallAt_of_failed none', ite_self, ite_self]
          exact .failed
  | @cons _ tree tree' rest trees joint behind =>
      have word := (@respects_isWord like false "macro_rules" (by decide)).same trees
      have called := @macroCallAt_agrees like opened bound _ _ tree.first.line tree'.first.line
        (like.starts trees.first_token)
      have outcome := called _ tail tail' ends (.cons trees joint behind) light
      rw [lefts_cons, rights_cons] at outcome ⊢
      rw [macroCall_cons, macroCall_cons, word]
      split
      · exact .failed
      · exact outcome

end Grammar

end ProgramIdl.Syntax
