import ProgramIdl.Proofs.Declaration.Reading
import ProgramIdl.Proofs.Syntax.Agreement.Item
import ProgramIdl.Proofs.Syntax.LikeTokens
import ProgramIdl.Proofs.Syntax.TokenPlaces

/-!
# Texts laid out in two ways

Two texts with the same tokens differ in the blanks and comments between them.  If they are
documented alike and no operator is taken apart, their items have the same names, documentation and
structure, and calls and bindings stand in the same order; only the texts that are kept of the items
may differ.
-/

set_option autoImplicit false

namespace ProgramIdl

open ProgramIdl.Text

namespace Syntax

/-- Two tokens that differ in their places and in the blanks and plain comments in front of them. -/
structure Token.Relaid (token token' : Token) : Prop where
  kind : token.kind = token'.kind
  text : token.text = token'.text
  docs : Annotations.docs token.comments = Annotations.docs token'.comments

/-- The same tokens in two layouts; the marks of an operator stand together in both or in
neither. -/
inductive TokensRelaid : List Token → List Token → Prop where
  | nil : TokensRelaid [] []
  | cons {token token' : Token} {rest rest' : List Token} (tokens : token.Relaid token')
      (joint : ∀ next ∈ rest.head?, ∀ next' ∈ rest'.head?, token.joins next = true →
        next.isJoint = next'.isJoint)
      (behind : TokensRelaid rest rest') : TokensRelaid (token :: rest) (token' :: rest')

instance (token token' : Token) : Decidable (token.Relaid token') :=
  decidable_of_iff (token.kind = token'.kind ∧ token.text = token'.text ∧
      Annotations.docs token.comments = Annotations.docs token'.comments)
    ⟨fun ⟨kind, text, docs⟩ => ⟨kind, text, docs⟩, fun ⟨kind, text, docs⟩ => ⟨kind, text, docs⟩⟩

def decideRelaid : (tokens tokens' : List Token) → Decidable (TokensRelaid tokens tokens')
  | [], [] => isTrue .nil
  | token :: rest, token' :: rest' =>
      have := decideRelaid rest rest'
      decidable_of_iff (token.Relaid token' ∧ (∀ next ∈ rest.head?, ∀ next' ∈ rest'.head?,
          token.joins next = true → next.isJoint = next'.isJoint) ∧ TokensRelaid rest rest')
        ⟨fun ⟨tokens, joint, behind⟩ => .cons tokens joint behind,
          fun | .cons tokens joint behind => ⟨tokens, joint, behind⟩⟩
  | [], _ :: _ | _ :: _, [] => isFalse nofun

instance (tokens tokens' : List Token) : Decidable (TokensRelaid tokens tokens') :=
  decideRelaid tokens tokens'

/-! ## The same tokens -/

/-- The tokens of two texts, each with its counterpart. -/
structure Counterparts (pairs : List (Token × Token)) : Prop where
  relaid : ∀ pair ∈ pairs, pair.1.Relaid pair.2
  plain : ∀ pair ∈ pairs, pair.1.Plain ∧ pair.2.Plain
  order : pairs.Pairwise fun pair next => pair.1.stop ≤ next.1.start ∧ pair.2.stop ≤ next.2.start

section Counterparts

variable {pairs : List (Token × Token)}

theorem TokensRelaid.each {tokens tokens' : List Token} (relaid : TokensRelaid tokens tokens') :
    ∀ pair ∈ tokens.zip tokens', pair.1.Relaid pair.2 := by
  induction relaid with
  | nil => nofun
  | cons first _ _ inductionHypothesis =>
      rw [List.zip_cons_cons]
      exact List.forall_mem_cons.mpr ⟨first, inductionHypothesis⟩

theorem pairwise_zip {tokens tokens' : List Token}
    (order : tokens.Pairwise fun token next => token.stop ≤ next.start)
    (order' : tokens'.Pairwise fun token next => token.stop ≤ next.start) :
    (tokens.zip tokens').Pairwise fun pair next =>
      pair.1.stop ≤ next.1.start ∧ pair.2.stop ≤ next.2.start := by
  induction tokens generalizing tokens' with
  | nil => exact .nil
  | cons token rest inductionHypothesis =>
      cases tokens' with
      | nil => exact .nil
      | cons token' rest' =>
          obtain ⟨first, later⟩ := List.pairwise_cons.mp order
          obtain ⟨first', later'⟩ := List.pairwise_cons.mp order'
          refine .cons (fun next listed => ?_) (inductionHypothesis later later')
          obtain ⟨here, there⟩ := List.of_mem_zip listed
          exact ⟨first _ here, first' _ there⟩

theorem TokensRelaid.counterparts {tokens tokens' : List Token} {start start' : Nat}
    (relaid : TokensRelaid tokens tokens') (placed : Placed start tokens)
    (placed' : Placed start' tokens') : Counterparts (tokens.zip tokens') where
  relaid := relaid.each
  plain _ listed :=
    ⟨placed.plain _ (List.of_mem_zip listed).1, placed'.plain _ (List.of_mem_zip listed).2⟩
  order := pairwise_zip placed.order placed'.order

theorem Token.start_lt_stop (token : Token) : token.start < token.stop := by
  have some_ := List.length_pos_iff.mpr token.text_ne
  rw [Token.stop]
  omega

/-- A token ends before another one starts in one text if it does in the other. -/
theorem stop_le_start_iff
    (order : pairs.Pairwise fun pair next =>
      pair.1.stop ≤ next.1.start ∧ pair.2.stop ≤ next.2.start)
    {pair other : Token × Token} (listed : pair ∈ pairs) (otherListed : other ∈ pairs) :
    pair.1.stop ≤ other.1.start ↔ pair.2.stop ≤ other.2.start := by
  have length := pair.1.start_lt_stop
  have length' := pair.2.start_lt_stop
  have otherLength := other.1.start_lt_stop
  have otherLength' := other.2.start_lt_stop
  obtain ⟨here, within, rfl⟩ := List.getElem_of_mem listed
  obtain ⟨there, within', rfl⟩ := List.getElem_of_mem otherListed
  have ordered := List.pairwise_iff_getElem.mp order
  rcases Nat.lt_trichotomy here there with before | rfl | behind
  · obtain ⟨first, second⟩ := ordered here there within within' before
    exact iff_of_true first second
  · exact iff_of_false (by omega) (by omega)
  · obtain ⟨first, second⟩ := ordered there here within' within behind
    exact iff_of_false (by omega) (by omega)

/-- The places of counterparts. -/
def Counterparts.places (counterparts : Counterparts pairs) : Places where
  start place place' := ∃ pair ∈ pairs, pair.1.start = place ∧ pair.2.start = place'
  stop place place' := ∃ pair ∈ pairs, pair.1.stop = place ∧ pair.2.stop = place'
  order := by
    rintro _ _ _ _ ⟨pair, listed, rfl, rfl⟩ ⟨other, otherListed, rfl, rfl⟩
    exact stop_le_start_iff counterparts.order listed otherListed

/-- Counterparts are alike. -/
def Counterparts.like (counterparts : Counterparts pairs) : Likeness where
  token _ token token' := (token, token') ∈ pairs
  start := counterparts.places.start
  stop := counterparts.places.stop
  first listed := listed
  kind listed := (counterparts.relaid _ listed).kind
  text listed _ := (counterparts.relaid _ listed).text
  word {_ token token'} listed name _ := by
    have same : token.text = token'.text := (counterparts.relaid _ listed).text
    rw [same]
  mark listed := (counterparts.plain _ listed).1.mark
  starts listed := ⟨_, listed, rfl, rfl⟩
  stops listed := ⟨_, listed, rfl, rfl⟩

theorem TokensRelaid.alike {tokens tokens' : List Token} (relaid : TokensRelaid tokens tokens')
    (counterparts : Counterparts pairs) (listed : ∀ pair ∈ tokens.zip tokens', pair ∈ pairs) :
    TokensAlike counterparts.like false tokens tokens' := by
  generalize false = inner
  induction relaid generalizing inner with
  | nil => exact .nil
  | cons _ joint _ inductionHypothesis =>
      rw [List.zip_cons_cons] at listed
      obtain ⟨here, later⟩ := List.forall_mem_cons.mp listed
      exact .cons here joint (inductionHypothesis later true)

/-! ## What is kept of them -/

theorem attributes_comments {token : Token} (plain : token.Plain) :
    Annotations.attributes token.comments = [] := by
  rw [Annotations.attributes, List.filterMap_eq_nil_iff]
  exact fun note listed => parse?_comment (plain.comments note listed)

theorem keptAttributes_comments {token : Token} (plain : token.Plain) :
    keptAttributes token.comments = [] := by
  rw [keptAttributes, List.map_eq_nil_iff, List.filter_eq_nil_iff]
  intro note listed
  simp [plain.comments note listed]

/-- All that counterparts keep but texts is read the same. -/
theorem Counterparts.implies (counterparts : Counterparts pairs) :
    counterparts.like.kept.Implies counterparts.places.reading where
  name := by
    rintro _ _ ⟨token, token', listed, rfl, rfl⟩
    exact congrArg String.ofList (counterparts.relaid _ listed).text
  comments := by
    rintro _ _ ⟨token, token', listed, rfl, rfl⟩
    obtain ⟨plain, plain'⟩ := counterparts.plain _ listed
    exact ⟨(counterparts.relaid _ listed).docs,
      (attributes_comments plain).trans (attributes_comments plain').symm⟩
  start same := same
  stop same := same
  plain := by
    rintro _ _ ⟨token, token', listed, rfl, rfl⟩
    obtain ⟨plain, plain'⟩ := counterparts.plain _ listed
    exact ⟨keptAttributes_comments plain, keptAttributes_comments plain'⟩

end Counterparts

/-! ## Texts -/

/-- The same text in two layouts, apart from what stands inside tokens. -/
def Relaid (text text' : String) : Prop :=
  ∃ tokens ∈ tokens? text, ∃ tokens' ∈ tokens? text', TokensRelaid tokens tokens'

instance (text text' : String) : Decidable (Relaid text text') :=
  inferInstanceAs (Decidable (∃ tokens ∈ tokens? text, ∃ tokens' ∈ tokens? text', _))

/-- What is kept of some items reads the same one by one. -/
def KeptAlike (items items' : List (Annotated Item)) : Prop :=
  List.Forall₂ (Kept.Related TextKind.Same) (keptTexts items) (keptTexts items')

instance (kept kept' : Kept) : Decidable (Kept.Related TextKind.Same kept kept') :=
  inferInstanceAs (Decidable (_ ∧ _))

instance (items items' : List (Annotated Item)) : Decidable (KeptAlike items items') :=
  inferInstanceAs (Decidable (List.Forall₂ _ _ _))

/-- A text in two layouts has the same items as far as the texts that are kept of them read the
same, or it has none in either. -/
theorem itemsOf?_relaid {text text' : String} (relaid : Relaid text text') :
    ∃ places : Places, Option.Rel
      (fun items items' => KeptAlike items items' → ItemsAlike places.reading items items')
      (itemsOf? text) (itemsOf? text') := by
  obtain ⟨tokens, read, tokens', read', same⟩ := relaid
  have counterparts := same.counterparts (placed_of_tokens? read) (placed_of_tokens? read')
  refine ⟨counterparts.places, ?_⟩
  have tokensAlike := same.alike counterparts fun _ listed => listed
  have gathered :=
    @gather_alike _ _ _ _ tokensAlike [] [] .nil [] [] ⟨[], .nil, rfl, rfl⟩ rfl nofun
  rw [itemsOf?, itemsOf?, trees?_eq, trees?_eq, read, read']
  simp only [Option.bind_some]
  generalize gather [] [] tokens = trees at gathered ⊢
  generalize gather [] [] tokens' = trees' at gathered ⊢
  cases gathered with
  | none => exact .none
  | some related =>
      obtain ⟨pairs, alike, rfl, rfl⟩ := related
      have read := itemsOfTrees_alike alike
      simp only [Option.bind_some]
      generalize itemsOfTrees (pairs.map Prod.fst) = items at read ⊢
      generalize itemsOfTrees (pairs.map Prod.snd) = items' at read ⊢
      cases read with
      | none => exact .none
      | some items => exact .some (items.told counterparts.implies).again

end Syntax

end ProgramIdl
