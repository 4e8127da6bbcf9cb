import Mathlib.Data.List.Infix
import ProgramIdl.Proofs.Syntax.Nesting
import ProgramIdl.Syntax.Parser

/-!
# What a parser yields

The trees that stand in some trees are what is left of them, or of the content of a group among them,
behind some of their trees.  A parser that is given such trees leaves such trees, so a property of
values that every rule keeps holds of whatever is read.
-/

set_option autoImplicit false

namespace ProgramIdl.Syntax

/-- The second list is what is left of the first one, or of the content of a group in it, behind some
trees. -/
inductive StandsIn (whole : List Tree) : List Tree → Prop where
  | all : StandsIn whole whole
  | behind {tree : Tree} {rest : List Tree} (stands : StandsIn whole (tree :: rest)) :
      StandsIn whole rest
  | inside {delimiter : Delimiter} {opening closing : Token} {inner rest : List Tree}
      (stands : StandsIn whole (.group delimiter opening inner closing :: rest)) :
      StandsIn whole inner

section StandsIn

variable {whole trees rest : List Tree}

theorem StandsIn.drop (stands : StandsIn whole trees) (count : Nat) :
    StandsIn whole (trees.drop count) := by
  induction count generalizing trees with
  | zero => exact stands
  | succ count inductionHypothesis =>
      cases trees with
      | nil => exact stands
      | cons tree trees => exact inductionHypothesis stands.behind

theorem StandsIn.suffix (stands : StandsIn whole trees) (suffix : rest <:+ trees) :
    StandsIn whole rest := by
  obtain ⟨front, rfl⟩ := suffix
  simpa using stands.drop front.length

/-- What stands in some trees is made of their tokens. -/
theorem StandsIn.subset (stands : StandsIn whole trees) :
    Tree.allTokens trees ⊆ Tree.allTokens whole := by
  induction stands with
  | all => exact List.Subset.refl _
  | behind _ inductionHypothesis =>
      intro token listed
      exact inductionHypothesis (by simp [Tree.allTokens, listed])
  | inside _ inductionHypothesis =>
      intro token listed
      exact inductionHypothesis (by simp [Tree.allTokens, Tree.tokens, listed])

end StandsIn

namespace Parser

variable {α β : Type}

/-- Of trees that stand in `whole` the parser takes some off the front, and what it makes of them is
as wanted. -/
def Yields (whole : List Tree) (wanted : α → Prop) (parser : Parser α) : Prop :=
  ∀ trees value rest, StandsIn whole trees → parser trees = some (value, rest) →
    rest <:+ trees ∧ wanted value

/-- Nothing is said about a value. -/
def Whatever (_ : α) : Prop := True

section Yields

variable {whole : List Tree} {wanted : α → Prop} {further : β → Prop} {parser other : Parser α}
  {next : α → Parser β}

theorem Yields.mono {weaker : α → Prop} (yields : Yields whole wanted parser)
    (implies : ∀ value, wanted value → weaker value) : Yields whole weaker parser := by
  intro trees value rest stands read
  obtain ⟨suffix, holds⟩ := yields trees value rest stands read
  exact ⟨suffix, implies value holds⟩

theorem Yields.whatever (yields : Yields whole wanted parser) : Yields whole Whatever parser :=
  yields.mono fun _ _ => trivial

theorem yields_pure {value : α} (holds : wanted value) : Yields whole wanted (pure value) := by
  intro trees read rest _ found
  obtain ⟨rfl, rfl⟩ := Prod.mk.inj (Option.some.inj found)
  exact ⟨List.suffix_refl _, holds⟩

theorem yields_failure : Yields whole wanted (failure : Parser α) := by
  intro trees value rest _ read
  cases read

theorem Yields.bind (first : Yields whole wanted parser)
    (second : ∀ value, wanted value → Yields whole further (next value)) :
    Yields whole further (parser >>= next) := by
  intro trees result rest stands read
  obtain ⟨⟨value, middle⟩, here, later⟩ := Option.bind_eq_some_iff.mp read
  obtain ⟨suffix, holds⟩ := first trees value middle stands here
  obtain ⟨more, result⟩ := second value holds middle result rest (stands.suffix suffix) later
  exact ⟨more.trans suffix, result⟩

theorem Yields.map {result : α → β} (yields : Yields whole wanted parser)
    (holds : ∀ value, wanted value → further (result value)) :
    Yields whole further (result <$> parser) :=
  yields.bind fun value here => yields_pure (holds value here)

theorem Yields.seqRight {second : Parser β} (first : Yields whole wanted parser)
    (yields : Yields whole further second) : Yields whole further (parser *> second) :=
  first.bind fun _ _ => yields

theorem Yields.orElse (first : Yields whole wanted parser) (second : Yields whole wanted other) :
    Yields whole wanted (parser <|> other) := by
  intro trees value rest stands read
  change (parser trees).orElse (fun _ => other trees) = some (value, rest) at read
  cases found : parser trees with
  | none =>
      rw [found] at read
      exact second trees value rest stands read
  | some result =>
      rw [found] at read
      obtain rfl := Option.some.inj read
      exact first trees value rest stands found

theorem Yields.ite {condition : Prop} [Decidable condition] (first : Yields whole wanted parser)
    (second : Yields whole wanted other) :
    Yields whole wanted (if condition then parser else other) := by
  split
  · exact first
  · exact second

theorem Yields.skip (yields : Yields whole wanted parser) :
    Yields whole Whatever (skip parser) :=
  yields.bind fun _ _ => yields_pure trivial

theorem Yields.maybe (yields : Yields whole wanted parser) :
    Yields whole (fun found => ∀ value ∈ found, wanted value) (maybe parser) := by
  intro trees found rest stands read
  rw [Parser.maybe] at read
  cases here : parser trees with
  | none =>
      rw [here] at read
      obtain ⟨rfl, rfl⟩ := Prod.mk.inj (Option.some.inj read)
      exact ⟨List.suffix_refl _, nofun⟩
  | some result =>
      rw [here] at read
      obtain ⟨rfl, rfl⟩ := Prod.mk.inj (Option.some.inj read)
      obtain ⟨suffix, holds⟩ := yields trees result.1 result.2 stands here
      refine ⟨suffix, fun other listed => ?_⟩
      obtain rfl := Option.some.inj listed
      exact holds

theorem Yields.upTo (yields : Yields whole wanted parser) (count : Nat) :
    Yields whole (fun values => ∀ value ∈ values, wanted value) (upTo parser count) := by
  induction count with
  | zero => exact yields_pure nofun
  | succ count inductionHypothesis =>
      refine yields.maybe.bind fun found holds => ?_
      cases found with
      | none => exact yields_pure nofun
      | some value =>
          exact inductionHypothesis.bind fun values more =>
            yields_pure (List.forall_mem_cons.mpr ⟨holds value rfl, more⟩)

theorem Yields.many (yields : Yields whole wanted parser) :
    Yields whole (fun values => ∀ value ∈ values, wanted value) (many parser) :=
  fun trees => yields.upTo trees.length trees

/-! ## Looking at what is left -/

theorem yields_get {next : List Tree → Parser β}
    (yields : ∀ trees, Yields whole further (next trees)) :
    Yields whole further (get >>= next) := by
  intro trees value rest stands read
  exact yields trees trees value rest stands read

theorem yields_ahead {condition : List Tree → Bool} {next : Bool → Parser β}
    (yields : ∀ answer, Yields whole further (next answer)) :
    Yields whole further (ahead condition >>= next) := by
  intro trees value rest stands read
  exact yields (condition trees) trees value rest stands read

/-! ## Single trees and groups -/

theorem yields_token {condition : Tree → Bool} : Yields whole Whatever (token condition) := by
  intro trees value rest _ read
  unfold token at read
  split at read
  · split at read
    · obtain ⟨rfl, rfl⟩ := Prod.mk.inj (Option.some.inj read)
      exact ⟨List.suffix_cons _ _, trivial⟩
    · cases read
  · cases read

theorem yields_word {name : String} : Yields whole Whatever (word name) := yields_token

theorem yields_mark {c : Char} : Yields whole Whatever (mark c) := yields_token

theorem yields_lifetime : Yields whole Whatever lifetime := yields_token

theorem yields_literal : Yields whole Whatever literal := yields_token

theorem yields_name : Yields whole Whatever name := yields_token

theorem yields_anyWord : Yields whole Whatever anyWord := yields_token

theorem yields_segment : Yields whole Whatever segment := yields_token

theorem yields_anyGroup : Yields whole Whatever anyGroup := by
  intro trees value rest _ read
  unfold anyGroup at read
  split at read
  · obtain ⟨rfl, rfl⟩ := Prod.mk.inj (Option.some.inj read)
    exact ⟨List.suffix_cons _ _, trivial⟩
  · cases read

theorem yields_symbol {spelling : String} : Yields whole Whatever (symbol spelling) := by
  intro trees value rest _ read
  unfold symbol at read
  split at read
  · obtain ⟨rfl, rfl⟩ := Prod.mk.inj (Option.some.inj read)
    exact ⟨List.drop_suffix _ _, trivial⟩
  · cases read

theorem yields_separator {c : Char} : Yields whole Whatever (separator c) := by
  intro trees value rest _ read
  unfold separator at read
  split at read
  · obtain ⟨rfl, rfl⟩ := Prod.mk.inj (Option.some.inj read)
    exact ⟨List.suffix_refl _, trivial⟩
  · split at read
    · obtain ⟨rfl, rfl⟩ := Prod.mk.inj (Option.some.inj read)
      exact ⟨List.suffix_cons _ _, trivial⟩
    · cases read

theorem yields_skipWhile {condition : Tree → Bool} :
    Yields whole Whatever (skipWhile condition) := by
  intro trees value rest _ read
  obtain ⟨rfl, rfl⟩ := Prod.mk.inj (Option.some.inj read)
  exact ⟨List.dropWhile_suffix _, trivial⟩

theorem suffix_of_closeAngles {depth : Nat} {behindDash : Bool} {trees rest : List Tree}
    (closed : closeAngles depth behindDash trees = some rest) : rest <:+ trees := by
  induction trees generalizing depth behindDash with
  | nil => cases closed
  | cons tree trees inductionHypothesis =>
      unfold closeAngles at closed
      have later {depth : Nat} {behindDash : Bool}
          (closed : closeAngles depth behindDash trees = some rest) : rest <:+ tree :: trees :=
        (inductionHypothesis closed).trans (List.suffix_cons _ _)
      split at closed
      · exact later closed
      · split at closed
        · cases depth with
          | zero =>
              obtain rfl := Option.some.inj closed
              exact List.suffix_cons _ _
          | succ depth => exact later closed
        · split at closed
          · cases closed
          · exact later closed

theorem yields_angles : Yields whole Whatever angles := by
  intro trees value rest _ read
  unfold angles at read
  split at read
  · split at read
    · obtain ⟨left, closed, same⟩ := Option.map_eq_some_iff.mp read
      obtain ⟨rfl, rfl⟩ := Prod.mk.inj same
      exact ⟨(suffix_of_closeAngles closed).trans (List.suffix_cons _ _), trivial⟩
    · cases read
  · cases read

theorem Yields.commaSeparated (yields : Yields whole wanted parser) :
    Yields whole (fun values => ∀ value ∈ values, wanted value) (commaSeparated parser) := by
  refine yields.maybe.bind fun found holds => ?_
  cases found with
  | none => exact yields_pure nofun
  | some first =>
      refine (yields_mark.seqRight yields).many.bind fun more rest => ?_
      refine yields_mark.maybe.bind fun _ _ => yields_pure ?_
      exact List.forall_mem_cons.mpr ⟨holds first rfl, rest⟩

/-- What is inside a group that has been read. -/
theorem exists_of_inside {delimiter : Delimiter} {trees rest : List Tree} {value : α}
    (read : inside delimiter parser trees = some (value, rest)) :
    ∃ opening inner closing, trees = .group delimiter opening inner closing :: rest ∧
      parser inner = some (value, []) := by
  unfold inside at read
  split at read
  · rename_i other opening inner closing left
    split at read
    · rename_i same
      subst same
      obtain ⟨result, taken, both⟩ := Option.map_eq_some_iff.mp read
      obtain ⟨rfl, rfl⟩ := Prod.mk.inj both
      refine ⟨opening, inner, closing, rfl, ?_⟩
      unfold all at taken
      split at taken
      · rename_i found
        obtain rfl := Option.some.inj taken
        exact found
      · cases taken
    · cases read
  · cases read

theorem Yields.inside {delimiter : Delimiter} (yields : Yields whole wanted parser) :
    Yields whole wanted (inside delimiter parser) := by
  intro trees value rest stands read
  obtain ⟨opening, inner, closing, rfl, found⟩ := exists_of_inside read
  exact ⟨List.suffix_cons _ _, (yields inner value [] stands.inside found).2⟩

theorem Yields.withText (yields : Yields whole wanted parser) :
    Yields whole (fun read => wanted read.1) (withText parser) := by
  intro trees read rest stands found
  obtain ⟨⟨value, left⟩, here, same⟩ := Option.map_eq_some_iff.mp found
  obtain ⟨rfl, rfl⟩ := Prod.mk.inj same
  exact yields trees value left stands here

end Yields

end Parser

end ProgramIdl.Syntax
