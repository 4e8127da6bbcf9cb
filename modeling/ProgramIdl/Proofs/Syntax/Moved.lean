import ProgramIdl.Proofs.Syntax.Relaid

/-!
# Runs of tokens in other places

A run of tokens may stand in another text, or elsewhere in the same one.  As long as everything between
its tokens stays the same, and so do the comments in front of it, what is kept of the items in it is
the same text; only places and lines differ.
-/

set_option autoImplicit false

namespace ProgramIdl.Syntax

open ProgramIdl.Syntax.Parser

/-- The same token in another place.  The flag says that something of the run stands in front of it;
otherwise the blanks in front of it may be others, but not the comments. -/
structure Token.Moved (inner : Bool) (token token' : Token) : Prop where
  kind : token.kind = token'.kind
  text : token.text = token'.text
  comments : token.comments = token'.comments
  lead : inner = true → token.lead = token'.lead

/-- The same run of tokens in another place. -/
inductive TokensMoved : Bool → List Token → List Token → Prop where
  | nil {inner : Bool} : TokensMoved inner [] []
  | cons {inner : Bool} {token token' : Token} {rest rest' : List Token}
      (tokens : token.Moved inner token') (behind : TokensMoved true rest rest') :
      TokensMoved inner (token :: rest) (token' :: rest')

instance (inner : Bool) (token token' : Token) : Decidable (token.Moved inner token') :=
  decidable_of_iff (token.kind = token'.kind ∧ token.text = token'.text ∧
      token.comments = token'.comments ∧ (inner = true → token.lead = token'.lead))
    ⟨fun ⟨kind, text, comments, lead⟩ => ⟨kind, text, comments, lead⟩,
      fun ⟨kind, text, comments, lead⟩ => ⟨kind, text, comments, lead⟩⟩

def decideMoved : (inner : Bool) → (tokens tokens' : List Token) →
    Decidable (TokensMoved inner tokens tokens')
  | _, [], [] => isTrue .nil
  | inner, token :: rest, token' :: rest' =>
      have := decideMoved true rest rest'
      decidable_of_iff (token.Moved inner token' ∧ TokensMoved true rest rest')
        ⟨fun ⟨tokens, behind⟩ => .cons tokens behind, fun | .cons tokens behind => ⟨tokens, behind⟩⟩
  | _, [], _ :: _ | _, _ :: _, [] => isFalse nofun

instance (inner : Bool) (tokens tokens' : List Token) :
    Decidable (TokensMoved inner tokens tokens') :=
  decideMoved inner tokens tokens'

section Moved

variable {inner : Bool} {tokens tokens' : List Token} {pairs : List (Token × Token)}

theorem TokensMoved.refl (inner : Bool) (tokens : List Token) : TokensMoved inner tokens tokens := by
  induction tokens generalizing inner with
  | nil => exact .nil
  | cons token rest inductionHypothesis =>
      exact .cons ⟨rfl, rfl, rfl, fun _ => rfl⟩ (inductionHypothesis true)

theorem TokensMoved.length_eq (moved : TokensMoved inner tokens tokens') :
    tokens.length = tokens'.length := by
  induction moved with
  | nil => rfl
  | cons _ _ inductionHypothesis => rw [List.length_cons, List.length_cons, inductionHypothesis]

/-- Nothing of the run is taken apart. -/
theorem TokensMoved.relaid (moved : TokensMoved inner tokens tokens') :
    TokensRelaid tokens tokens' := by
  induction moved with
  | nil => exact .nil
  | cons first behind inductionHypothesis =>
      refine .cons ⟨first.kind, first.text, congrArg Annotations.docs first.comments⟩ ?_
        inductionHypothesis
      intro next listed next' listed' _
      cases behind with
      | nil => cases listed
      | cons second _ =>
          obtain rfl := Option.some.inj listed
          obtain rfl := Option.some.inj listed'
          rw [Token.isJoint, Token.isJoint, second.lead rfl]

/-- Counterparts that do not differ in what stands in front of them, unless nothing of the run does. -/
def Counterparts.movedLike (counterparts : Counterparts pairs) : Likeness where
  token inner token token' := (token, token') ∈ pairs ∧ (inner = true → token.lead = token'.lead)
  start := counterparts.places.start
  stop := counterparts.places.stop
  first listed := ⟨listed.1, nofun⟩
  kind listed := @counterparts.like.kind true _ _ listed.1
  text listed := @counterparts.like.text true _ _ listed.1
  word listed := @counterparts.like.word true _ _ listed.1
  mark listed := @counterparts.like.mark true _ _ _ listed.1
  starts listed := @counterparts.like.starts true _ _ listed.1
  stops listed := @counterparts.like.stops true _ _ listed.1

theorem TokensMoved.alike (counterparts : Counterparts pairs) (moved : TokensMoved inner tokens tokens')
    (listed : ∀ pair ∈ tokens.zip tokens', pair ∈ pairs) :
    TokensAlike counterparts.movedLike inner tokens tokens' := by
  induction moved with
  | nil => exact .nil
  | cons first behind inductionHypothesis =>
      rw [List.zip_cons_cons] at listed
      obtain ⟨here, later⟩ := List.forall_mem_cons.mp listed
      refine .cons ⟨here, first.lead⟩ ?_ (inductionHypothesis later)
      cases TokensMoved.relaid (.cons first behind) with
      | cons _ joint _ => exact joint

end Moved

/-! ## Texts -/

mutual

/-- The tokens of like trees behind others are alike. -/
theorem Tree.Alike.tokens {like : Likeness} {inner : Bool} {tree tree' : Tree} :
    Tree.Alike like inner tree tree' → inner = true →
      List.Forall₂ (like.token true) tree.tokens tree'.tokens
  | .leaf tokens, behind => .cons (behind ▸ tokens) .nil
  | .group openings _ inside closings _, behind => by
      rw [Tree.tokens, Tree.tokens]
      exact List.rel_append (.cons (behind ▸ openings) (inside.tokens rfl)) (.cons closings .nil)

theorem AllAlike.tokens {like : Likeness} {inner : Bool} {pairs : List (Tree × Tree)} :
    AllAlike like inner pairs → inner = true →
      List.Forall₂ (like.token true) (Tree.allTokens (pairs.map Prod.fst))
        (Tree.allTokens (pairs.map Prod.snd))
  | .nil, _ => .nil
  | .cons trees _ others, behind => by
      rw [List.map_cons, List.map_cons, Tree.allTokens, Tree.allTokens]
      exact List.rel_append (trees.tokens behind) (others.tokens rfl)

end

/-- The tokens of like trees behind the first one. -/
theorem Tree.Alike.tail_tokens {like : Likeness} {tree tree' : Tree}
    (alike : Tree.Alike like false tree tree') :
    ∃ rest rest', tree.tokens = tree.first :: rest ∧ tree'.tokens = tree'.first :: rest' ∧
      List.Forall₂ (like.token true) rest rest' := by
  cases alike with
  | leaf _ => exact ⟨[], [], rfl, rfl, .nil⟩
  | group _ _ inside closings _ =>
      exact ⟨_, _, rfl, rfl, List.rel_append (inside.tokens rfl) (.cons closings .nil)⟩

section Reading

variable {pairs : List (Token × Token)} (counterparts : Counterparts pairs)

theorem spelling_moved {tokens tokens' : List Token}
    (alike : List.Forall₂ (counterparts.movedLike.token true) tokens tokens') :
    tokens.map Token.spelling = tokens'.map Token.spelling := by
  induction alike with
  | nil => rfl
  | cons first _ inductionHypothesis =>
      have same := (counterparts.relaid _ first.1).text
      rw [List.map_cons, List.map_cons, inductionHypothesis, Token.spelling, Token.spelling,
        first.2 rfl, same]

/-- A text that is kept of a run is kept of it in the other place as well. -/
theorem eq_of_textAlike {text text' : String} (alike : TextAlike counterparts.movedLike text text') :
    text = text' := by
  obtain ⟨pairs, trees, rfl, rfl⟩ := alike
  cases trees with
  | nil => rfl
  | cons first _ behind =>
      obtain ⟨rest, rest', split, split', tail⟩ := first.tail_tokens
      have same := (counterparts.relaid _ first.first_token.1).text
      have spellings := spelling_moved counterparts (List.rel_append tail (behind.tokens rfl))
      simp only [List.map_cons, sourceText, Tree.allTokens, split, split', List.cons_append]
      rw [same, spellings]

theorem Counterparts.movedImplies :
    counterparts.movedLike.kept.Implies counterparts.places.reading where
  name := by
    rintro _ _ ⟨token, token', listed, rfl, rfl⟩
    exact counterparts.implies.name ⟨token, token', listed.1, rfl, rfl⟩
  comments := by
    rintro _ _ ⟨token, token', listed, rfl, rfl⟩
    exact counterparts.implies.comments ⟨token, token', listed.1, rfl, rfl⟩
  start same := same
  stop same := same
  plain := by
    rintro _ _ ⟨token, token', listed, rfl, rfl⟩
    exact counterparts.implies.plain ⟨token, token', listed.1, rfl, rfl⟩

/-- Items that are kept of a run in two places read the same. -/
theorem ItemsAlike.moved {items items' : List (Annotated Item)}
    (alike : ItemsAlike counterparts.movedLike.kept items items') :
    ItemsAlike counterparts.places.reading items items' := by
  have told := alike.told counterparts.movedImplies
  refine told.again (told.texts.imp ?_)
  rintro ⟨kind, text⟩ ⟨kind', text'⟩ ⟨same, texts⟩
  obtain rfl : kind = kind' := same
  obtain rfl : text = text' := eq_of_textAlike counterparts texts
  exact ⟨rfl, TextKind.Same.refl kind text⟩

end Reading

/-! ## Places -/

theorem Placed.sublist {start : Nat} {tokens some_ : List Token} (placed : Placed start tokens)
    (within : some_.Sublist tokens) : Placed start some_ where
  plain token listed := placed.plain token (within.subset listed)
  behind token listed := placed.behind token (within.subset listed)
  order := placed.order.sublist within

end ProgramIdl.Syntax
