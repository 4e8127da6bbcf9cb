import Mathlib.Data.List.Forall2
import ProgramIdl.Proofs.Syntax.Likeness

/-!
# Trees of like tokens

Like runs of tokens are gathered into like trees, or neither of them is well nested.
-/

set_option autoImplicit false

namespace ProgramIdl.Syntax

/-- Runs of like tokens; the marks of an operator stand together in both or in neither.  The flag says
that something stands in front of the runs in a text that is kept. -/
inductive TokensAlike (like : Likeness) : Bool → List Token → List Token → Prop where
  | nil {inner : Bool} : TokensAlike like inner [] []
  | cons {inner : Bool} {token token' : Token} {rest rest' : List Token}
      (tokens : like.token inner token token')
      (joint : ∀ next ∈ rest.head?, ∀ next' ∈ rest'.head?, token.joins next = true →
        next.isJoint = next'.isJoint)
      (behind : TokensAlike like true rest rest') :
      TokensAlike like inner (token :: rest) (token' :: rest')

section Gathering

variable {like : Likeness}

theorem AllAlike.snoc {inner : Bool} {pairs : List (Tree × Tree)} {tree tree' : Tree}
    (alike : AllAlike like inner pairs)
    (trees : Tree.Alike like (inner || !pairs.isEmpty) tree tree')
    (joint : ∀ last ∈ pairs.getLast?, last.1.joins tree = true →
      tree.first.isJoint = tree'.first.isJoint) :
    AllAlike like inner (pairs ++ [(tree, tree')]) := by
  induction pairs generalizing inner with
  | nil =>
      rw [List.isEmpty_nil, Bool.not_true, Bool.or_false] at trees
      exact .cons trees nofun .nil
  | cons pair pairs inductionHypothesis =>
      rw [List.isEmpty_cons, Bool.not_false, Bool.or_true] at trees
      cases alike with
      | cons first joints behind =>
          refine .cons first ?_ (inductionHypothesis behind trees fun last listed => joint last ?_)
          · cases pairs with
            | nil =>
                intro next listed
                obtain rfl := Option.some.inj listed
                exact joint _ rfl
            | cons next pairs => exact joints
          · cases pairs with
            | nil => cases listed
            | cons next pairs => rwa [List.getLast?_cons_cons]

/-- Like trees, last one first. -/
def AlikeBefore (like : Likeness) (inner : Bool) (before before' : List Tree) : Prop :=
  ∃ pairs, AllAlike like inner pairs ∧ before = (pairs.map Prod.fst).reverse ∧
    before' = (pairs.map Prod.snd).reverse

/-- Groups that have been opened behind like trees. -/
inductive GroupsAlike (like : Likeness) : List OpenGroup → List OpenGroup → Prop where
  | nil : GroupsAlike like [] []
  | cons {delimiter : Delimiter} {opening opening' : Token} {before before' : List Tree}
      {outer outer' : List OpenGroup}
      (openings : like.token (!outer.isEmpty || !before.isEmpty) opening opening')
      (kind : opening.kind = .opening delimiter)
      (alike : AlikeBefore like (!outer.isEmpty) before before') (groups : GroupsAlike like outer outer') :
      GroupsAlike like (⟨delimiter, opening, before⟩ :: outer) (⟨delimiter, opening', before'⟩ :: outer')

/-- The marks in front of a token belong to one operator with it in both lists or in neither. -/
def JointBehind (before : List Tree) (tokens tokens' : List Token) : Prop :=
  ∀ last ∈ before.head?, ∀ next ∈ tokens.head?, ∀ next' ∈ tokens'.head?,
    last.joins (.leaf next) = true → next.isJoint = next'.isJoint

theorem AlikeBefore.cons {inner : Bool} {before before' : List Tree} {tree tree' : Tree}
    (alike : AlikeBefore like inner before before')
    (trees : Tree.Alike like (inner || !before.isEmpty) tree tree')
    (joint : ∀ last ∈ before.head?, last.joins tree = true →
      tree.first.isJoint = tree'.first.isJoint) :
    AlikeBefore like inner (tree :: before) (tree' :: before') := by
  obtain ⟨pairs, pairsAlike, rfl, rfl⟩ := alike
  rw [List.isEmpty_reverse, List.isEmpty_map] at trees
  refine ⟨pairs ++ [(tree, tree')], pairsAlike.snoc trees fun last listed joins => ?_, ?_, ?_⟩
  · refine joint last.1 ?_ joins
    rw [List.head?_reverse, List.getLast?_map]
    exact Option.mem_map_of_mem Prod.fst listed
  · simp
  · simp

/-- Like trees are gathered from like tokens. -/
theorem gather_alike {inner : Bool} {tokens tokens' : List Token}
    (alike : TokensAlike like inner tokens tokens') {pending pending' : List OpenGroup}
    (groups : GroupsAlike like pending pending') {current current' : List Tree}
    (before : AlikeBefore like (!pending.isEmpty) current current')
    (position : inner = (!pending.isEmpty || !current.isEmpty))
    (apart : JointBehind current tokens tokens') :
    Option.Rel (fun trees trees' => ∃ pairs, AllAlike like false pairs ∧
        trees = pairs.map Prod.fst ∧ trees' = pairs.map Prod.snd)
      (gather pending current tokens) (gather pending' current' tokens') := by
  induction alike generalizing pending pending' current current' with
  | nil =>
      obtain ⟨pairs, pairsAlike, rfl, rfl⟩ := before
      cases groups with
      | nil =>
          simp only [gather, List.isEmpty_nil, if_true, List.reverse_reverse]
          exact .some ⟨pairs, pairsAlike, rfl, rfl⟩
      | cons _ _ _ _ =>
          simp only [gather, List.isEmpty_cons]
          exact .none
  | @cons inner token token' rest rest' tokens joint behind inductionHypothesis =>
      have kinds := like.kind tokens
      rw [gather, gather, ← kinds]
      cases kind : token.kind with
      | opening delimiter =>
          exact inductionHypothesis (.cons (position ▸ tokens) kind before groups) ⟨[], .nil, rfl, rfl⟩
            rfl nofun
      | closing delimiter =>
          cases groups with
          | nil => exact .none
          | @cons opened opening opening' outside outside' outer outer' openings openingKind
              outsideAlike others =>
              dsimp only
              split
              · rename_i same
                obtain ⟨pairs, pairsAlike, rfl, rfl⟩ := before
                rw [List.reverse_reverse, List.reverse_reverse]
                refine inductionHypothesis others (outsideAlike.cons ?_ ?_) (by simp) ?_
                · have closings : like.token true token token' := by simpa [position] using tokens
                  exact .group openings (same ▸ openingKind) pairsAlike closings kind
                · intro last _ joins
                  cases last <;> cases joins
                · intro last listed next _ next' _ joins
                  obtain rfl := Option.some.inj listed
                  cases joins
              · exact .none
      | blank | comment | word | lifetime | literal | mark =>
          refine inductionHypothesis groups (before.cons (.leaf (position ▸ tokens)) ?_) (by simp) ?_
          · intro last listed joins
            exact apart last listed token rfl token' rfl joins
          · intro last listed
            obtain rfl := Option.some.inj listed
            exact joint

end Gathering

end ProgramIdl.Syntax
