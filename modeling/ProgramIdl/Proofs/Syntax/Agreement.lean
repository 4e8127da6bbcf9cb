import Mathlib.Data.List.Forall2
import Mathlib.Data.Option.Basic
import ProgramIdl.Proofs.Syntax.Likeness

/-!
# Parsers that agree

Two parsers agree if they do the same on lists that are alike: both fail, or both take equally many
trees off the front and return related values.  The agreement is bounded: it is claimed for lists of
fewer tokens than a bound, and a parser that takes at least one tree leaves what follows it a smaller
bound.  So the recursion of the grammar is an induction on the bound.
-/

set_option autoImplicit false

namespace ProgramIdl.Syntax

variable {α β γ δ : Type}

/-- What two parsers make of two lists: both fail, or both take at least `least` trees. -/
inductive Outcome (related : α → β → Prop) (least : Nat) (pairs : List (Tree × Tree))
    (tail tail' : List Tree) : Option (α × List Tree) → Option (β × List Tree) → Prop where
  | failed : Outcome related least pairs tail tail' none none
  | read {value : α} {value' : β} {taken : Nat} (values : related value value')
      (enough : least ≤ taken) (within : taken ≤ pairs.length) :
      Outcome related least pairs tail tail' (some (value, lefts (pairs.drop taken) tail))
        (some (value', rights (pairs.drop taken) tail'))

section Outcome

variable {related : α → β → Prop} {least : Nat} {pairs : List (Tree × Tree)}
  {tail tail' : List Tree} {result : Option (α × List Tree)} {result' : Option (β × List Tree)}

theorem Outcome.here {value : α} {value' : β} (values : related value value') :
    Outcome related 0 pairs tail tail' (some (value, lefts pairs tail))
      (some (value', rights pairs tail')) :=
  @Outcome.read _ _ related 0 pairs tail tail' value value' 0 values (Nat.le_refl _) (Nat.zero_le _)

/-- One tree is taken. -/
theorem Outcome.one {value : α} {value' : β} {pair : Tree × Tree} (enough : least ≤ 1)
    (values : related value value') :
    Outcome related least (pair :: pairs) tail tail' (some (value, lefts pairs tail))
      (some (value', rights pairs tail')) :=
  @Outcome.read _ _ related least (pair :: pairs) tail tail' value value' 1 values enough
    (by simp)

/-- Some trees have been taken in front. -/
theorem Outcome.behind {taken : Nat}
    (outcome : Outcome related least (pairs.drop taken) tail tail' result result')
    (within : taken ≤ pairs.length) :
    Outcome related (taken + least) pairs tail tail' result result' := by
  cases outcome with
  | failed => exact .failed
  | read values enough withinMore =>
      rw [List.length_drop] at withinMore
      rw [List.drop_drop]
      exact .read values (by omega) (by omega)

/-- One tree more has been taken in front. -/
theorem Outcome.cons (outcome : Outcome related least pairs tail tail' result result')
    (pair : Tree × Tree) : Outcome related (least + 1) (pair :: pairs) tail tail' result result' := by
  have behind := @Outcome.behind _ _ related least (pair :: pairs) tail tail' result result' 1 outcome
    (Nat.succ_le_succ (Nat.zero_le _))
  rwa [Nat.add_comm] at behind

/-- What needs a tree fails where no tree is left. -/
theorem Outcome.none_of_nil {tail tail' : List Tree} {result : Option (α × List Tree)}
    {result' : Option (β × List Tree)} (outcome : Outcome related 1 [] tail tail' result result') :
    result = none ∧ result' = none := by
  cases outcome with
  | failed => exact ⟨rfl, rfl⟩
  | read values enough within =>
      rw [List.length_nil] at within
      omega

theorem Outcome.mono {less : Nat} {weaker : α → β → Prop}
    (outcome : Outcome related least pairs tail tail' result result') (fewer : less ≤ least)
    (implies : ∀ value value', related value value' → weaker value value') :
    Outcome weaker less pairs tail tail' result result' := by
  cases outcome with
  | failed => exact .failed
  | read values enough within =>
      exact .read (implies _ _ values) (Nat.le_trans fewer enough) within

/-- The outcome of two steps, the second of which starts where the first has stopped. -/
theorem Outcome.bind {next : α → Parser γ} {next' : β → Parser δ} {wanted : γ → δ → Prop}
    {further : Nat} (first : Outcome related least pairs tail tail' result result')
    (second : ∀ value value' taken, related value value' → least ≤ taken → taken ≤ pairs.length →
      Outcome wanted further (pairs.drop taken) tail tail'
        (next value (lefts (pairs.drop taken) tail))
        (next' value' (rights (pairs.drop taken) tail'))) :
    Outcome wanted (least + further) pairs tail tail' (result.bind fun read => next read.1 read.2)
      (result'.bind fun read => next' read.1 read.2) := by
  cases first with
  | failed => exact .failed
  | read values enough within =>
      rename_i value value' taken
      have later := second value value' taken values enough within
      exact (later.behind within).mono (Nat.add_le_add_right enough further) fun _ _ wanted => wanted

end Outcome

/-- Parsers that do the same on like lists with fewer tokens than a bound. -/
def Parser.Agrees (like : Likeness) (opened : Bool) (least bound : Nat) (related : α → β → Prop)
    (parser : Parser α) (parser' : Parser β) : Prop :=
  ∀ pairs tail tail', Ends opened tail tail' → AllAlike like false pairs → weight pairs < bound →
    Outcome related least pairs tail tail' (parser (lefts pairs tail)) (parser' (rights pairs tail'))

/-- Nothing is said about two values. -/
def Anything (_ : α) (_ : β) : Prop := True

/-- Two values that are there and related. -/
inductive BothSome (related : α → β → Prop) : Option α → Option β → Prop where
  | intro {value : α} {value' : β} (values : related value value') :
      BothSome related (some value) (some value')

namespace Parser

section Agrees

variable {like : Likeness} {opened : Bool} {least bound : Nat} {related : α → β → Prop}
  {parser : Parser α} {parser' : Parser β}

theorem Agrees.mono {less smaller : Nat} {weaker : α → β → Prop}
    (agrees : Agrees like opened least bound related parser parser') (fewer : less ≤ least)
    (below : smaller ≤ bound) (implies : ∀ value value', related value value' → weaker value value') :
    Agrees like opened less smaller weaker parser parser' := by
  intro pairs tail tail' ends alike light
  exact (agrees pairs tail tail' ends alike (Nat.lt_of_lt_of_le light below)).mono fewer implies

theorem Agrees.any (agrees : Agrees like opened least bound related parser parser') :
    Agrees like opened least bound Anything parser parser' :=
  agrees.mono (Nat.le_refl _) (Nat.le_refl _) fun _ _ _ => trivial

theorem Agrees.below {smaller : Nat} (agrees : Agrees like opened least bound related parser parser')
    (below : smaller ≤ bound) : Agrees like opened least smaller related parser parser' :=
  agrees.mono (Nat.le_refl _) below fun _ _ related => related

theorem Agrees.zero (agrees : Agrees like opened least bound related parser parser') :
    Agrees like opened 0 bound related parser parser' :=
  agrees.mono (Nat.zero_le _) (Nat.le_refl _) fun _ _ related => related

theorem agrees_pure {value : α} {value' : β} (values : related value value') :
    Agrees like opened 0 bound related (pure value) (pure value') := by
  intro pairs tail tail' _ _ _
  exact .here values

theorem agrees_failure :
    Agrees like opened least bound related (failure : Parser α) (failure : Parser β) := by
  intro pairs tail tail' _ _ _
  exact .failed

/-- No list has fewer than no tokens. -/
theorem agrees_of_zero : Agrees like opened least 0 related parser parser' :=
  fun _ _ _ _ _ light => absurd light (Nat.not_lt_zero _)

/-! ## Sequences and choices -/

section

variable {next : α → Parser γ} {next' : β → Parser δ} {wanted : γ → δ → Prop}

theorem Agrees.bind (first : Agrees like opened 0 bound related parser parser')
    (second : ∀ value value', related value value' →
      Agrees like opened least bound wanted (next value) (next' value')) :
    Agrees like opened least bound wanted (parser >>= next) (parser' >>= next') := by
  intro pairs tail tail' ends alike light
  have outcome := Outcome.bind (first pairs tail tail' ends alike light)
    fun value value' taken values _ _ =>
      second value value' values (pairs.drop taken) tail tail' ends (alike.drop taken)
        (Nat.lt_of_le_of_lt (weight_drop_le pairs taken) light)
  rwa [Nat.zero_add] at outcome

/-- The trees that the first of two steps takes are taken by both. -/
theorem Agrees.bindAfter (first : Agrees like opened least bound related parser parser')
    (second : ∀ value value', related value value' →
      Agrees like opened 0 bound wanted (next value) (next' value')) :
    Agrees like opened least bound wanted (parser >>= next) (parser' >>= next') := by
  intro pairs tail tail' ends alike light
  exact Outcome.bind (first pairs tail tail' ends alike light)
    fun value value' taken values _ _ =>
      second value value' values (pairs.drop taken) tail tail' ends (alike.drop taken)
        (Nat.lt_of_le_of_lt (weight_drop_le pairs taken) light)

/-- The second of two steps sees a smaller list. -/
theorem Agrees.andThen (first : Agrees like opened 1 (bound + 1) related parser parser')
    (second : ∀ value value', related value value' →
      Agrees like opened 0 bound wanted (next value) (next' value')) :
    Agrees like opened 1 (bound + 1) wanted (parser >>= next) (parser' >>= next') := by
  intro pairs tail tail' ends alike light
  exact Outcome.bind (first pairs tail tail' ends alike light)
    fun value value' taken values enough within =>
      second value value' values (pairs.drop taken) tail tail' ends (alike.drop taken)
        (by have less := weight_drop_lt enough within; omega)

end

theorem Agrees.map {wanted : γ → δ → Prop} {result : α → γ} {result' : β → δ}
    (agrees : Agrees like opened least bound related parser parser')
    (values : ∀ value value', related value value' → wanted (result value) (result' value')) :
    Agrees like opened least bound wanted (result <$> parser) (result' <$> parser') := by
  intro pairs tail tail' ends alike light
  have outcome := agrees pairs tail tail' ends alike light
  change Outcome _ _ _ _ _ ((parser (lefts pairs tail)).bind fun read => some (result read.1, read.2))
    ((parser' (rights pairs tail')).bind fun read => some (result' read.1, read.2))
  generalize parser (lefts pairs tail) = read at outcome
  generalize parser' (rights pairs tail') = read' at outcome
  cases outcome with
  | failed => exact .failed
  | read here enough within => exact .read (values _ _ here) enough within

section

variable {wanted : γ → δ → Prop} {second : Parser γ} {second' : Parser δ}

theorem Agrees.seqRight (first : Agrees like opened 0 bound related parser parser')
    (agrees : Agrees like opened least bound wanted second second') :
    Agrees like opened least bound wanted (parser *> second) (parser' *> second') :=
  first.bind fun _ _ _ => agrees

theorem Agrees.seqAfter (first : Agrees like opened least bound related parser parser')
    (agrees : Agrees like opened 0 bound wanted second second') :
    Agrees like opened least bound wanted (parser *> second) (parser' *> second') :=
  first.bindAfter fun _ _ _ => agrees

theorem Agrees.andRight (first : Agrees like opened 1 (bound + 1) related parser parser')
    (agrees : Agrees like opened 0 bound wanted second second') :
    Agrees like opened 1 (bound + 1) wanted (parser *> second) (parser' *> second') :=
  first.andThen fun _ _ _ => agrees

end

theorem Agrees.orElse {other : Parser α} {other' : Parser β}
    (first : Agrees like opened least bound related parser parser')
    (second : Agrees like opened least bound related other other') :
    Agrees like opened least bound related (parser <|> other) (parser' <|> other') := by
  intro pairs tail tail' ends alike light
  have outcome := first pairs tail tail' ends alike light
  change Outcome _ _ _ _ _ ((parser (lefts pairs tail)).orElse fun _ => other (lefts pairs tail))
    ((parser' (rights pairs tail')).orElse fun _ => other' (rights pairs tail'))
  generalize parser (lefts pairs tail) = read at outcome
  generalize parser' (rights pairs tail') = read' at outcome
  cases outcome with
  | failed => exact second pairs tail tail' ends alike light
  | read here enough within => exact .read here enough within

theorem Agrees.ite {condition condition' : Prop} [Decidable condition] [Decidable condition']
    {other : Parser α} {other' : Parser β} (same : condition ↔ condition')
    (first : Agrees like opened least bound related parser parser')
    (second : Agrees like opened least bound related other other') :
    Agrees like opened least bound related (if condition then parser else other)
      (if condition' then parser' else other') := by
  by_cases holds : condition
  · rwa [if_pos holds, if_pos (same.mp holds)]
  · rwa [if_neg holds, if_neg (same.not.mp holds)]

theorem Agrees.skip (agrees : Agrees like opened least bound related parser parser') :
    Agrees like opened least bound Anything (skip parser) (skip parser') := by
  intro pairs tail tail' ends alike light
  have outcome := agrees pairs tail tail' ends alike light
  exact @Outcome.bind _ _ _ _ related least pairs tail tail' _ _ (fun _ => pure ()) (fun _ => pure ())
    Anything 0 outcome fun _ _ _ _ _ _ => .here trivial

/-! ## Options and repetitions -/

theorem Agrees.maybe (agrees : Agrees like opened least bound related parser parser') :
    Agrees like opened 0 bound (Option.Rel related) (maybe parser) (maybe parser') := by
  intro pairs tail tail' ends alike light
  have outcome := agrees pairs tail tail' ends alike light
  rw [Parser.maybe, Parser.maybe]
  generalize parser (lefts pairs tail) = read at outcome
  generalize parser' (rights pairs tail') = read' at outcome
  cases outcome with
  | failed => exact .here .none
  | read values enough within => exact .read (.some values) (Nat.zero_le _) within

section

variable {next : Option α → Parser γ} {next' : Option β → Parser δ} {wanted : γ → δ → Prop}

/-- What follows an option may see a smaller list if the option has been taken. -/
theorem Agrees.maybe_within {smaller : Nat} (near : bound ≤ smaller + 1)
    (agrees : Agrees like opened 1 bound related parser parser')
    (found : ∀ value value', related value value' →
      Agrees like opened 0 smaller wanted (next (some value)) (next' (some value')))
    (missing : Agrees like opened 1 bound wanted (next none) (next' none)) :
    Agrees like opened 1 bound wanted (Parser.maybe parser >>= next)
      (Parser.maybe parser' >>= next') := by
  intro pairs tail tail' ends alike light
  have outcome := agrees pairs tail tail' ends alike light
  have here := missing pairs tail tail' ends alike light
  change Outcome _ _ _ _ _ ((Parser.maybe parser (lefts pairs tail)).bind fun read => next read.1 read.2)
    ((Parser.maybe parser' (rights pairs tail')).bind fun read => next' read.1 read.2)
  rw [Parser.maybe, Parser.maybe]
  generalize parser (lefts pairs tail) = read at outcome
  generalize parser' (rights pairs tail') = read' at outcome
  cases outcome with
  | failed => exact here
  | read values enough within =>
      exact @Outcome.bind _ _ _ _ related 1 pairs tail tail' _ _ (fun value => next (some value))
        (fun value => next' (some value)) wanted 0 (.read values enough within)
        fun value value' taken values enough within =>
          found value value' values (pairs.drop taken) tail tail' ends (alike.drop taken)
            (by have less := weight_drop_lt enough within; omega)

theorem Agrees.maybe_andThen (agrees : Agrees like opened 1 (bound + 1) related parser parser')
    (found : ∀ value value', related value value' →
      Agrees like opened 0 bound wanted (next (some value)) (next' (some value')))
    (missing : Agrees like opened 1 (bound + 1) wanted (next none) (next' none)) :
    Agrees like opened 1 (bound + 1) wanted (Parser.maybe parser >>= next)
      (Parser.maybe parser' >>= next') :=
  agrees.maybe_within (Nat.le_refl _) found missing

theorem Agrees.maybe_cases (agrees : Agrees like opened 1 bound related parser parser')
    (found : ∀ value value', related value value' →
      Agrees like opened 0 bound wanted (next (some value)) (next' (some value')))
    (missing : Agrees like opened 1 bound wanted (next none) (next' none)) :
    Agrees like opened 1 bound wanted (Parser.maybe parser >>= next)
      (Parser.maybe parser' >>= next') :=
  agrees.maybe_within (Nat.le_succ _) found missing

end

theorem upTo_of_failed {trees : List Tree} (failed : parser trees = none) (count : Nat) :
    upTo parser count trees = some ([], trees) := by
  cases count with
  | zero => rfl
  | succ count =>
      change ((Parser.maybe parser trees).bind _) = _
      rw [Parser.maybe, failed]
      rfl

theorem upTo_of_read {trees rest : List Tree} {value : α} (read : parser trees = some (value, rest))
    (count : Nat) :
    upTo parser (count + 1) trees = (do return value :: (← upTo parser count) : Parser _) rest := by
  change ((Parser.maybe parser trees).bind _) = _
  rw [Parser.maybe, read]
  rfl

theorem upTo_outcome (agrees : Agrees like opened 1 bound related parser parser') {count count' : Nat}
    {pairs : List (Tree × Tree)} {tail tail' : List Tree} (ends : Ends opened tail tail')
    (alike : AllAlike like false pairs) (light : weight pairs < bound)
    (enough : pairs.length ≤ count) (enough' : pairs.length ≤ count') :
    Outcome (List.Forall₂ related) 0 pairs tail tail' (upTo parser count (lefts pairs tail))
      (upTo parser' count' (rights pairs tail')) := by
  induction count generalizing count' pairs with
  | zero =>
      have outcome := agrees pairs tail tail' ends alike light
      generalize read : parser (lefts pairs tail) = result at outcome
      generalize read' : parser' (rights pairs tail') = result' at outcome
      cases outcome with
      | failed =>
          rw [upTo_of_failed read, upTo_of_failed read']
          exact .here .nil
      | read values taken within => omega
  | succ count inductionHypothesis =>
      have outcome := agrees pairs tail tail' ends alike light
      generalize read : parser (lefts pairs tail) = result at outcome
      generalize read' : parser' (rights pairs tail') = result' at outcome
      cases outcome with
      | failed =>
          rw [upTo_of_failed read, upTo_of_failed read']
          exact .here .nil
      | read values some_ within =>
          rename_i value value' taken
          obtain ⟨count', rfl⟩ : ∃ fewer, count' = fewer + 1 := ⟨count' - 1, by omega⟩
          rw [upTo_of_read read, upTo_of_read read']
          have more := fun (value : α) (value' : β) (taken : Nat) (values : related value value')
              (some_ : 1 ≤ taken) (within : taken ≤ pairs.length) =>
            @Outcome.bind _ _ _ _ (List.Forall₂ related) 0 (pairs.drop taken) tail tail' _ _
              (fun more => pure (value :: more)) (fun more => pure (value' :: more))
              (List.Forall₂ related) 0
              (@inductionHypothesis count' _ (alike.drop taken)
                (Nat.lt_of_le_of_lt (weight_drop_le pairs taken) light)
                (by rw [List.length_drop]; omega) (by rw [List.length_drop]; omega))
              fun _ _ _ more _ _ => .here (.cons values more)
          have outcome := @Outcome.bind _ _ _ _ related 1 pairs tail tail' _ _
            (fun value => upTo parser count >>= fun more => pure (value :: more))
            (fun value' => upTo parser' count' >>= fun more => pure (value' :: more))
            (List.Forall₂ related) 0 (.read values some_ within) more
          exact outcome.mono (Nat.zero_le _) fun _ _ more => more

/-- A repetition ends where its parser fails: each time it takes a tree. -/
theorem Agrees.many (agrees : Agrees like opened 1 bound related parser parser') :
    Agrees like opened 0 bound (List.Forall₂ related) (many parser) (many parser') := by
  intro pairs tail tail' ends alike light
  refine upTo_outcome agrees ends alike light ?_ ?_
  · simp [lefts]
  · simp [rights]

theorem Agrees.withText (agrees : Agrees like opened least bound related parser parser') :
    Agrees like opened least bound
      (fun read read' => related read.1 read'.1 ∧ TextAlike like read.2 read'.2)
      (withText parser) (withText parser') := by
  intro pairs tail tail' ends alike light
  have outcome := agrees pairs tail tail' ends alike light
  rw [Parser.withText, Parser.withText]
  generalize parser (lefts pairs tail) = read at outcome
  generalize parser' (rights pairs tail') = read' at outcome
  cases outcome with
  | failed => exact .failed
  | read values enough within =>
      rename_i value value' taken
      simp only [Option.map_some, take_lefts within, take_rights within]
      exact .read ⟨values, _, alike.take taken, rfl, rfl⟩ enough within

/-! ## Looking ahead -/

/-- A condition on lists that like lists satisfy together. -/
def RespectsLists (like : Likeness) (opened : Bool) {α : Type} (condition : List Tree → α) : Prop :=
  ∀ pairs tail tail', Ends opened tail tail' → AllAlike like false pairs →
    condition (lefts pairs tail) = condition (rights pairs tail')

section

variable {wanted : γ → δ → Prop}

theorem agrees_ahead {condition : List Tree → Bool} {next : Bool → Parser γ} {next' : Bool → Parser δ}
    (respects : RespectsLists like opened condition)
    (agrees : ∀ answer, Agrees like opened least bound wanted (next answer) (next' answer)) :
    Agrees like opened least bound wanted (ahead condition >>= next) (ahead condition >>= next') := by
  intro pairs tail tail' ends alike light
  have outcome := agrees (condition (lefts pairs tail)) pairs tail tail' ends alike light
  have same := respects pairs tail tail' ends alike
  change Outcome _ _ _ _ _ (next (condition (lefts pairs tail)) (lefts pairs tail))
    (next' (condition (rights pairs tail')) (rights pairs tail'))
  rwa [← same]

/-- What is read depends on the list that is left. -/
theorem agrees_get {next : List Tree → Parser γ} {next' : List Tree → Parser δ}
    (agrees : ∀ pairs tail tail', Ends opened tail tail' → AllAlike like false pairs →
      weight pairs < bound → Outcome wanted least pairs tail tail'
        (next (lefts pairs tail) (lefts pairs tail)) (next' (rights pairs tail') (rights pairs tail'))) :
    Agrees like opened least bound wanted (get >>= next) (get >>= next') :=
  fun pairs tail tail' ends alike light => agrees pairs tail tail' ends alike light

/-- What is read does not depend on the list that is left. -/
theorem agrees_get_same {next : Parser γ} {next' : Parser δ}
    (agrees : Agrees like opened least bound wanted next next') :
    Agrees like opened least bound wanted (get >>= fun _ => next) (get >>= fun _ => next') :=
  fun pairs tail tail' ends alike light => agrees pairs tail tail' ends alike light

/-- What is read depends on a condition on the list that is left. -/
theorem agrees_get_ite {condition : List Tree → Bool} {next other : List Tree → Parser γ}
    {next' other' : List Tree → Parser δ} (respects : RespectsLists like opened condition)
    (first : Agrees like opened least bound wanted (get >>= next) (get >>= next'))
    (second : Agrees like opened least bound wanted (get >>= other) (get >>= other')) :
    Agrees like opened least bound wanted
      (get >>= fun trees => if condition trees = true then next trees else other trees)
      (get >>= fun trees => if condition trees = true then next' trees else other' trees) := by
  refine agrees_get fun pairs tail tail' ends alike light => ?_
  have same := respects pairs tail tail' ends alike
  rw [← same]
  by_cases holds : condition (lefts pairs tail) = true
  · rw [if_pos holds, if_pos holds]
    exact first pairs tail tail' ends alike light
  · rw [if_neg holds, if_neg holds]
    exact second pairs tail tail' ends alike light

end

theorem respects_headIs {condition : Tree → Bool} (respects : Respects like opened condition) :
    RespectsLists like opened (headIs condition) :=
  fun _ _ _ ends alike => respects.headIs ends alike

theorem respects_headIsWord {names : List String} (known : ∀ name ∈ names, name ∈ keywords) :
    RespectsLists like opened (headIsWord names) :=
  respects_headIs (respects_anyWord known)

theorem respects_symbol {symbol : List Char} (operator : isOperator symbol = true) :
    RespectsLists like opened (startsWithSymbol symbol) :=
  fun _ _ _ ends alike => startsWithSymbol_alike operator ends alike

section

variable {condition other : List Tree → Bool}

theorem RespectsLists.or (first : RespectsLists like opened condition)
    (second : RespectsLists like opened other) :
    RespectsLists like opened (fun trees => condition trees || other trees) := by
  intro pairs tail tail' ends alike
  dsimp only
  rw [first pairs tail tail' ends alike, second pairs tail tail' ends alike]

theorem RespectsLists.and (first : RespectsLists like opened condition)
    (second : RespectsLists like opened other) :
    RespectsLists like opened (fun trees => condition trees && other trees) := by
  intro pairs tail tail' ends alike
  dsimp only
  rw [first pairs tail tail' ends alike, second pairs tail tail' ends alike]

theorem RespectsLists.not (first : RespectsLists like opened condition) :
    RespectsLists like opened (fun trees => !condition trees) := by
  intro pairs tail tail' ends alike
  dsimp only
  rw [first pairs tail tail' ends alike]

end

/-! ## Single trees -/

theorem agrees_token {condition : Tree → Bool} (respects : Respects like opened condition) :
    Agrees like opened 1 bound (like.token false) (token condition) (token condition) := by
  intro pairs tail tail' ends alike _
  cases alike with
  | nil =>
      cases ends with
      | nil => exact .failed
      | semicolon allowed kind kind' =>
          simp only [lefts_nil, rights_nil, token, respects.final allowed _ kind,
            respects.final allowed _ kind']
          exact .failed
  | cons trees joint behind =>
      have same := respects.same trees
      cases trees with
      | group _ _ _ _ => exact .failed
      | leaf tokens =>
          simp only [lefts_cons, rights_cons, Parser.token, same]
          split
          · exact .one (Nat.le_refl _) tokens
          · exact .failed

theorem agrees_mark {c : Char} (kept : opened = true → c ≠ ';') :
    Agrees like opened 1 bound (like.token false) (mark c) (mark c) :=
  agrees_token (respects_isMark kept)

theorem agrees_semicolon : Agrees like false 1 bound (like.token false) (mark ';') (mark ';') :=
  agrees_mark nofun

theorem agrees_word {name : String} (known : name ∈ keywords) :
    Agrees like opened 1 bound (like.token false) (word name) (word name) :=
  agrees_token (respects_isWord known)

theorem agrees_lifetime : Agrees like opened 1 bound (like.token false) lifetime lifetime :=
  agrees_token (respects_isKind nofun)

theorem agrees_literal : Agrees like opened 1 bound (like.token false) literal literal :=
  agrees_token (respects_isKind nofun)

theorem agrees_anyWord : Agrees like opened 1 bound (like.token false) anyWord anyWord :=
  agrees_token (respects_isKind nofun)

theorem agrees_segment : Agrees like opened 1 bound (like.token false) segment segment :=
  agrees_token respects_isSegment

theorem agrees_name : Agrees like opened 1 bound (like.token false) name name := by
  have known : ∀ name ∈ ["self", "Self", "super", "crate"], name ∈ keywords := by decide
  exact agrees_token (respects_isSegment.and (respects_anyWord known).not)

theorem agrees_anyGroup : Agrees like opened 1 bound (fun tree tree' =>
    Tree.Alike like false tree tree' ∧ ∀ token, tree ≠ .leaf token) anyGroup anyGroup := by
  intro pairs tail tail' ends alike _
  cases alike with
  | nil =>
      cases ends with
      | nil => exact .failed
      | semicolon _ _ _ => exact .failed
  | cons trees joint behind =>
      have alike := trees
      cases trees with
      | leaf _ => exact .failed
      | group _ _ _ _ => exact .one (Nat.le_refl _) ⟨alike, fun _ => nofun⟩

theorem agrees_symbol {spelling : String} (some_ : spelling ≠ "")
    (operator : isOperator spelling.toList = true) :
    Agrees like opened 1 bound Anything (symbol spelling) (symbol spelling) := by
  intro pairs tail tail' ends alike _
  have same := startsWithSymbol_alike operator ends alike
  rw [symbol, symbol, ← same]
  by_cases starts : startsWithSymbol spelling.toList (lefts pairs tail) = true
  · have within : spelling.length ≤ pairs.length :=
      length_le_of_startsWithSymbol operator ends starts
    have length : 1 ≤ spelling.length := by
      rw [← String.length_toList]
      exact List.length_pos_iff.mpr (by simpa using some_)
    rw [if_pos starts, if_pos starts, drop_lefts within, drop_rights within]
    exact .read trivial length within
  · rw [if_neg starts, if_neg starts]
    exact .failed

/-! ## Groups -/

/-- The content of a group has fewer tokens than a list with the group in front. -/
theorem weight_inside_lt {delimiter : Delimiter} {opening closing : Token} {other : Tree}
    {inner rest : List (Tree × Tree)} :
    weight inner < weight ((.group delimiter opening (inner.map Prod.fst) closing, other) :: rest) := by
  rw [weight_cons, weight]
  simp only [Tree.tokens, List.length_cons, List.length_append]
  omega

theorem Agrees.all (agrees : Agrees like false least bound related parser parser')
    {pairs : List (Tree × Tree)} (alike : AllAlike like false pairs) (light : weight pairs < bound) :
    Option.Rel related (all parser (pairs.map Prod.fst)) (all parser' (pairs.map Prod.snd)) := by
  have outcome := agrees pairs [] [] .nil alike light
  rw [lefts, rights, List.append_nil, List.append_nil] at outcome
  rw [Parser.all, Parser.all]
  generalize parser (pairs.map Prod.fst) = read at outcome
  generalize parser' (pairs.map Prod.snd) = read' at outcome
  cases outcome with
  | failed => exact .none
  | read values enough within =>
      rename_i value value' taken
      cases pairs.drop taken with
      | nil => exact .some values
      | cons pair rest => exact .none

theorem Agrees.inside {delimiter : Delimiter}
    (agrees : Agrees like false least bound related parser parser') :
    Agrees like opened 1 (bound + 1) related (inside delimiter parser) (inside delimiter parser') := by
  intro pairs tail tail' ends alike light
  cases alike with
  | nil =>
      cases ends with
      | nil => exact .failed
      | semicolon _ _ _ => exact .failed
  | cons trees joint behind =>
      cases trees with
      | leaf _ => exact .failed
      | group openings openingKind contents closings closingKind =>
          have lighter := Nat.lt_of_lt_of_le weight_inside_lt (Nat.le_of_lt_succ light)
          have read := agrees.all contents.first lighter
          simp only [lefts_cons, rights_cons, Parser.inside]
          split
          · generalize Parser.all parser _ = result at read
            generalize Parser.all parser' _ = result' at read
            cases read with
            | none => exact .failed
            | some values => exact .one (Nat.le_refl _) values
          · exact .failed

/-! ## Separated and skipped trees -/

theorem Agrees.commaSeparated (agrees : Agrees like opened 1 bound related parser parser') :
    Agrees like opened 0 bound (List.Forall₂ related) (commaSeparated parser)
      (commaSeparated parser') := by
  have comma : Agrees like opened 1 bound (like.token false) (mark ',') (mark ',') :=
    agrees_mark fun _ => by decide
  refine agrees.maybe.bind ?_
  rintro _ _ (values | _)
  · exact (comma.zero.seqRight agrees).many.bind fun _ _ more =>
      comma.maybe.bind fun _ _ _ => agrees_pure (List.Forall₂.cons values more)
  · exact agrees_pure List.Forall₂.nil

/-- The end of a statement; here nothing else may follow. -/
theorem agrees_separator {c : Char} :
    Agrees like false 0 bound Anything (separator c) (separator c) := by
  intro pairs tail tail' ends alike _
  cases alike with
  | nil =>
      cases ends with
      | nil => exact .here trivial
      | semicolon allowed _ _ => cases allowed
  | cons trees joint behind =>
      have same := (@respects_isMark like false c nofun).same trees
      simp only [lefts_cons, rights_cons, separator, same]
      split
      · exact .one (Nat.zero_le _) trivial
      · exact .failed

theorem agrees_skipWhile {condition : Tree → Bool} (respects : Respects like opened condition) :
    Agrees like opened 0 bound Anything (skipWhile condition) (skipWhile condition) := by
  intro pairs tail tail' ends alike light
  rw [skipWhile, skipWhile]
  induction pairs with
  | nil =>
      cases ends with
      | nil => exact .here trivial
      | semicolon allowed kind kind' =>
          simp only [lefts_nil, rights_nil, List.dropWhile_cons, respects.final allowed _ kind,
            respects.final allowed _ kind']
          exact .here trivial
  | cons pair pairs inductionHypothesis =>
      cases alike with
      | cons trees joint behind =>
          have same := respects.same trees
          simp only [lefts_cons, rights_cons, List.dropWhile_cons, same]
          split
          · have later := inductionHypothesis behind.first
              (Nat.lt_trans (weight_lt_cons _ pairs) light)
            exact (later.cons _).mono (Nat.zero_le _) fun _ _ any => any
          · exact .here trivial

/-! ## Angle brackets -/

theorem closeAngles_outcome {depth : Nat} {dash : Bool} {pairs : List (Tree × Tree)}
    {tail tail' : List Tree} (ends : Ends opened tail tail') (alike : AllAlike like false pairs)
    (joint : dash = true → ∀ next ∈ pairs.head?, next.1.isMark '>' = true →
      next.1.first.isJoint = next.2.first.isJoint) :
    Outcome (Anything : Unit → Unit → Prop) 0 pairs tail tail'
      ((closeAngles depth dash (lefts pairs tail)).map ((), ·))
      ((closeAngles depth dash (rights pairs tail')).map ((), ·)) := by
  induction pairs generalizing depth dash with
  | nil =>
      cases ends with
      | nil => exact .failed
      | semicolon allowed kind kind' =>
          simp only [lefts_nil, rights_nil, closeAngles, Tree.isMark, kind, kind']
          exact .failed
  | cons pair pairs inductionHypothesis =>
      cases alike with
      | cons trees joints behind =>
          rename_i tree tree'
          have mark (c : Char) : tree.isMark c = tree'.isMark c :=
            (@respects_isMark like false c (by simp)).same trees
          have closes : (tree.isMark '>' && !(dash && tree.first.isJoint)) =
              (tree'.isMark '>' && !(dash && tree'.first.isJoint)) := by
            rw [← mark]
            cases closing : tree.isMark '>' with
            | false => rfl
            | true =>
                cases dash with
                | false => rfl
                | true => rw [joint rfl _ rfl closing]
          simp only [lefts_cons, rights_cons, closeAngles, closes]
          rw [mark '<', mark ';', mark '-']
          have further (depth : Nat) (dash : Bool)
              (joint : dash = true → ∀ next ∈ pairs.head?, next.1.isMark '>' = true →
                next.1.first.isJoint = next.2.first.isJoint) :=
            ((@inductionHypothesis depth dash behind.first joint).cons (tree, tree')).mono
              (Nat.zero_le _) fun _ _ any => any
          split
          · exact further _ _ (by simp)
          · split
            · cases depth with
              | zero => exact .one (Nat.zero_le _) trivial
              | succ depth => exact further _ _ (by simp)
            · split
              · exact .failed
              · refine further _ _ fun isDash next listed closing => joints next listed ?_
                exact Tree.joins_of_isMark ((mark '-').trans isDash) closing

theorem agrees_angles : Agrees like opened 1 bound Anything angles angles := by
  intro pairs tail tail' ends alike light
  cases alike with
  | nil =>
      cases ends with
      | nil => exact .failed
      | semicolon allowed kind kind' =>
          simp only [lefts_nil, rights_nil, angles, Tree.isMark, kind, kind']
          exact .failed
  | cons trees joints behind =>
      have mark := (@respects_isMark like false '<' (by simp)).same trees
      simp only [lefts_cons, rights_cons, angles, mark]
      split
      · have closed := @closeAngles_outcome like opened 0 false _ _ _ ends behind.first (by simp)
        exact closed.cons _
      · exact .failed

end Agrees

end Parser

end ProgramIdl.Syntax
