import ProgramIdl.Proofs.Syntax.Steady.Item

/-!
# Items that end with a semicolon

An item ends with a group or with a semicolon.  One that ends with a semicolon is read up to there
whatever stands behind it.
-/

set_option autoImplicit false

namespace ProgramIdl.Syntax

open ProgramIdl.Syntax.Parser

variable {α β γ δ : Type}

theorem weight_append (pairs more : List (Tree × Tree)) :
    weight (pairs ++ more) = weight pairs + weight more := by
  induction pairs with
  | nil => simp
  | cons pair pairs inductionHypothesis =>
      rw [List.cons_append, weight_cons, weight_cons, inductionHypothesis, Nat.add_assoc]

/-- How a list ends that is read as a whole: with a group, if the flag allows it, or with a semicolon
at which a second reader of the other list stops. -/
inductive Closed (grouped : Bool) (related : α → β → Prop) (value : α) (parser' : Parser β) :
    List (Tree × Tree) → Prop where
  | group {front : List (Tree × Tree)} {delimiter : Delimiter} {opening closing : Token}
      {inner : List Tree} {other : Tree} (allowed : grouped = true) :
      Closed grouped related value parser' (front ++ [(.group delimiter opening inner closing, other)])
  | semicolon {front : List (Tree × Tree)} {token token' : Token} (kind : token.kind = .mark ';')
      (kind' : token'.kind = .mark ';')
      (stops : ∀ rest, ∃ value', related value value' ∧
        parser' (rights front (.leaf token' :: rest)) = some (value', rest)) :
      Closed grouped related value parser' (front ++ [(.leaf token, .leaf token')])

/-- The last of the pairs of a list that is read as a whole. -/
inductive Last (grouped : Bool) : Tree × Tree → Prop where
  | group {delimiter : Delimiter} {opening closing : Token} {inner : List Tree} {other : Tree}
      (allowed : grouped = true) : Last grouped (.group delimiter opening inner closing, other)
  | semicolon {token token' : Token} (kind : token.kind = .mark ';') (kind' : token'.kind = .mark ';') :
      Last grouped (.leaf token, .leaf token')

section Closed

variable {grouped : Bool} {related : α → β → Prop} {value : α} {parser' : Parser β}
  {pairs front : List (Tree × Tree)}

theorem Closed.exists_last (closed : Closed grouped related value parser' pairs) :
    ∃ front last, pairs = front ++ [last] := by
  cases closed with
  | group _ => exact ⟨_, _, rfl⟩
  | semicolon => exact ⟨_, _, rfl⟩

theorem Closed.last {last : Tree × Tree} (closed : Closed grouped related value parser' (front ++ [last])) :
    Last grouped last := by
  generalize whole : front ++ [last] = pairs at closed
  cases closed with
  | group allowed =>
      obtain ⟨_, same⟩ := List.append_inj' whole rfl
      obtain ⟨rfl, _⟩ := List.cons.inj same
      exact .group allowed
  | semicolon kind kind' _ =>
      obtain ⟨_, same⟩ := List.append_inj' whole rfl
      obtain ⟨rfl, _⟩ := List.cons.inj same
      exact .semicolon kind kind'

theorem Closed.stops {token token' : Token}
    (closed : Closed grouped related value parser' (front ++ [(.leaf token, .leaf token')]))
    (rest : List Tree) : ∃ value', related value value' ∧
      parser' (rights front (.leaf token' :: rest)) = some (value', rest) := by
  generalize whole : front ++ [(Tree.leaf token, Tree.leaf token')] = pairs at closed
  cases closed with
  | group _ =>
      obtain ⟨_, same⟩ := List.append_inj' whole rfl
      simp at same
  | semicolon _ _ stops =>
      obtain ⟨rfl, same⟩ := List.append_inj' whole rfl
      simp only [List.cons.injEq, Prod.mk.injEq, Tree.leaf.injEq, and_true] at same
      obtain ⟨rfl, rfl⟩ := same
      exact stops rest

end Closed

theorem lefts_nil_tail (pairs : List (Tree × Tree)) : lefts pairs [] = pairs.map Prod.fst := by
  rw [lefts, List.append_nil]

theorem Outcome.of_read {related : α → β → Prop} {least : Nat} {pairs : List (Tree × Tree)}
    {tail tail' left : List Tree} {value : α} {result : Option (α × List Tree)}
    {result' : Option (β × List Tree)}
    (outcome : Outcome related least pairs tail tail' result result')
    (read : result = some (value, left)) :
    ∃ value' taken, related value value' ∧ least ≤ taken ∧ taken ≤ pairs.length ∧
      left = lefts (pairs.drop taken) tail ∧ result' = some (value', rights (pairs.drop taken) tail') := by
  cases outcome with
  | failed => cases read
  | read values enough within =>
      obtain ⟨rfl, rfl⟩ := Prod.mk.inj (Option.some.inj read)
      exact ⟨_, _, values, enough, within, rfl, rfl⟩

/-- A condition that is the same on like lists, wherever they end. -/
def RespectsAll (like : Likeness) (condition : List Tree → γ) : Prop :=
  ∀ opened, RespectsLists like opened condition

/-- A condition on the list that is read holds of the other one up to its semicolon and beyond. -/
theorem Closed.imp {like : Likeness} {grouped : Bool} {related : α → β → Prop} {parser' other' : Parser β} {value : α}
    {pairs : List (Tree × Tree)} {condition : List Tree → γ} (respects : RespectsAll like condition)
    (alike : AllAlike like false pairs)
    (closed : Closed grouped related value parser' pairs)
    (same : ∀ trees, condition trees = condition (pairs.map Prod.fst) → parser' trees = other' trees) :
    Closed grouped related value other' pairs := by
  cases closed with
  | group allowed => exact .group allowed
  | @semicolon front token token' kind kind' stops =>
      refine .semicolon kind kind' fun rest => ?_
      obtain ⟨value', values, read⟩ := stops rest
      refine ⟨value', values, (same _ ?_).symm.trans read⟩
      have part := alike.take front.length
      rw [List.take_left] at part
      have held := respects true front [.leaf token] (.leaf token' :: rest)
        (.semicolon rfl kind kind') part
      rw [← held]
      simp [lefts]

namespace Parser

/-- Where the first parser reads a whole list, this ends with a group, or the second parser reads the
other list up to its semicolon. -/
def Closes (like : Likeness) (grouped : Bool) (bound : Nat) (related : α → β → Prop) (parser : Parser α)
    (parser' : Parser β) : Prop :=
  ∀ pairs, AllAlike like false pairs → weight pairs < bound → ∀ value,
    parser (pairs.map Prod.fst) = some (value, []) → Closed grouped related value parser' pairs

/-- A parser that ends with a group where it reads a whole list. -/
def GroupLast (parser : Parser α) : Prop :=
  ∀ trees value, parser trees = some (value, []) →
    ∃ front delimiter opening inner closing, trees = front ++ [.group delimiter opening inner closing]

section Closes

variable {like : Likeness} {grouped : Bool} {least bound : Nat} {related : α → β → Prop} {wanted : γ → δ → Prop}
  {parser other : Parser α} {parser' other' : Parser β} {next : α → Parser γ} {next' : β → Parser δ}

theorem Closes.bindWithin {smaller : Nat}
    (first : ∀ opened, Agrees like opened least bound related parser parser')
    (light : ∀ pairs taken, least ≤ taken → taken ≤ pairs.length → weight pairs < bound →
      weight (pairs.drop taken) < smaller)
    (second : ∀ value value', related value value' →
      Closes like grouped smaller wanted (next value) (next' value')) :
    Closes like grouped bound wanted (parser >>= next) (parser' >>= next') := by
  intro pairs alike within value read
  obtain ⟨⟨found, left⟩, readFirst, readSecond⟩ := Option.bind_eq_some_iff.mp read
  rw [← lefts_nil_tail] at readFirst
  obtain ⟨found', taken, values, enough, inside, rfl, _⟩ :=
    (first false pairs [] [] .nil alike within).of_read readFirst
  rw [lefts_nil_tail] at readSecond
  have later := second found found' values _ (alike.drop taken) (light pairs taken enough inside within)
    value readSecond
  obtain ⟨front, last, behind⟩ := later.exists_last
  have split : pairs = (pairs.take taken ++ front) ++ [last] := by
    rw [List.append_assoc, ← behind, List.take_append_drop]
  rw [behind] at later
  rw [split]
  cases later.last with
  | group allowed => exact .group allowed
  | @semicolon token token' kind kind' =>
      refine .semicolon kind kind' fun rest => ?_
      have alikeFront : AllAlike like false (pairs.take taken ++ front) := by
        rw [split] at alike
        have part := alike.take (pairs.take taken ++ front).length
        rwa [List.take_left] at part
      have lightFront : weight (pairs.take taken ++ front) < bound := by
        have whole := congrArg weight split
        rw [weight_append] at whole
        omega
      have readAgain : parser (lefts (pairs.take taken ++ front) [.leaf token]) =
          some (found, lefts (pairs.drop taken) []) := by
        rw [← readFirst, lefts_nil_tail]
        conv_rhs => rw [split]
        simp [lefts]
      obtain ⟨found', taken', values, _, inside', same, readThere⟩ :=
        (first true _ _ (.leaf token' :: rest) (.semicolon rfl kind kind') alikeFront
          lightFront).of_read readAgain
      obtain rfl : taken' = taken := by
        have lengths := congrArg List.length same
        have whole := congrArg List.length split
        simp only [length_lefts, List.length_drop, List.length_append, List.length_cons,
          List.length_nil] at lengths whole inside'
        omega
      have readSecond' := second found found' values _ (alike.drop taken')
        (light pairs taken' enough inside within) value readSecond
      rw [behind] at readSecond'
      obtain ⟨value', results, ends⟩ := readSecond'.stops rest
      have dropped : (pairs.take taken' ++ front).drop taken' = front := by
        rw [List.drop_append_of_le_length (by simpa using inside), List.drop_take]
        simp
      rw [dropped] at readThere
      refine ⟨value', results, ?_⟩
      change (parser' _).bind _ = _
      rw [readThere]
      exact ends

theorem Closes.bind (first : ∀ opened, Agrees like opened 0 bound related parser parser')
    (second : ∀ value value', related value value' →
      Closes like grouped bound wanted (next value) (next' value')) :
    Closes like grouped bound wanted (parser >>= next) (parser' >>= next') :=
  .bindWithin first (fun pairs taken _ _ => Nat.lt_of_le_of_lt (weight_drop_le pairs taken)) second

/-- What follows a tree has fewer tokens. -/
theorem Closes.andThen (first : ∀ opened, Agrees like opened 1 (bound + 1) related parser parser')
    (second : ∀ value value', related value value' →
      Closes like grouped bound wanted (next value) (next' value')) :
    Closes like grouped (bound + 1) wanted (parser >>= next) (parser' >>= next') := by
  refine .bindWithin first (fun pairs taken enough inside light => ?_) second
  have less := weight_drop_lt enough inside
  omega

/-- A semicolon is the last tree that is read. -/
theorem closes_semicolon {result : Token → Parser γ} {result' : Token → Parser δ}
    (pure_ : ∀ token token', like.token false token token' → ∃ value value',
      result token = pure value ∧ result' token' = pure value' ∧ wanted value value') :
    Closes like grouped bound wanted (mark ';' >>= result) (mark ';' >>= result') := by
  intro pairs alike _ value read
  obtain ⟨⟨found, left⟩, readMark, same⟩ := Option.bind_eq_some_iff.mp read
  obtain ⟨split, isMark⟩ := token_eq_some readMark
  cases alike with
  | nil => cases split
  | @cons _ tree tree' rest trees _ _ =>
      obtain ⟨rfl, rfl⟩ := List.cons.inj split
      cases trees with
      | @leaf _ _ token' tokens =>
          obtain ⟨first, first', isPure, isPure', values⟩ := pure_ _ _ tokens
          simp only [isPure] at same
          obtain ⟨rfl, none⟩ := Prod.mk.inj (Option.some.inj same)
          obtain rfl := List.map_eq_nil_iff.mp none
          have kind : found.kind = .mark ';' := by simpa [Tree.isMark] using isMark
          have kind' : token'.kind = .mark ';' := (like.kind tokens).symm.trans kind
          refine @Closed.semicolon _ _ _ _ _ _ [] _ _ kind kind' fun rest => ⟨first', values, ?_⟩
          have isMark' : Tree.isMark ';' (.leaf token') = true := by simp [Tree.isMark, kind']
          change (mark ';' (.leaf token' :: rest)).bind _ = _
          rw [mark, Parser.token, if_pos isMark']
          simp only [Option.bind_some, isPure']
          rfl

theorem closed_of_group {wanted : γ → δ → Prop} {value : γ} {parser' : Parser δ}
    {pairs : List (Tree × Tree)} {front inner : List Tree} {delimiter : Delimiter}
    {opening closing : Token}
    (split : pairs.map Prod.fst = front ++ [.group delimiter opening inner closing]) :
    Closed true wanted value parser' pairs := by
  obtain ⟨front', behind, rfl, rfl, same⟩ := List.map_eq_append_iff.mp split
  obtain ⟨⟨_, other⟩, rfl, rfl⟩ := List.map_eq_singleton_iff.mp same
  exact .group rfl

theorem GroupLast.closes (last : GroupLast parser) : Closes like true bound related parser parser' := by
  intro pairs _ _ value read
  obtain ⟨_, _, _, _, _, split⟩ := last _ _ read
  exact closed_of_group split

theorem groupLast_inside (delimiter : Delimiter) (parser : Parser α) :
    GroupLast (inside delimiter parser) := by
  intro trees value read
  obtain ⟨opening, inner, closing, rfl⟩ := inside_eq_some read
  exact ⟨[], _, _, _, _, rfl⟩

theorem groupLast_anyGroup : GroupLast anyGroup := by
  intro trees value read
  obtain ⟨_, _, _, _, rfl, rfl⟩ := Grammar.anyGroup_eq_some read
  exact ⟨[], _, _, _, _, rfl⟩

theorem GroupLast.thenPure (last : GroupLast parser)
    (pure_ : ∀ value, ∃ result, next value = pure result) : GroupLast (parser >>= next) := by
  intro trees value read
  obtain ⟨first, readFirst, _⟩ := exists_of_thenPure pure_ read
  exact last _ _ readFirst

theorem GroupLast.bind (settles : Settles parser) (last : ∀ value, GroupLast (next value)) :
    GroupLast (parser >>= next) := by
  intro trees value read
  obtain ⟨⟨first, left⟩, readFirst, readSecond⟩ := Option.bind_eq_some_iff.mp read
  obtain ⟨taken, rfl, _⟩ := settles _ _ _ readFirst
  obtain ⟨front, delimiter, opening, inner, closing, rfl⟩ := last first _ _ readSecond
  exact ⟨taken ++ front, delimiter, opening, inner, closing, (List.append_assoc ..).symm⟩

theorem GroupLast.orElse {other : Parser α} (first : GroupLast parser) (second : GroupLast other) :
    GroupLast (parser <|> other) := by
  intro trees value read
  change (parser trees).orElse (fun _ => other trees) = _ at read
  cases found : parser trees with
  | none =>
      rw [found] at read
      exact second _ _ read
  | some result =>
      rw [found] at read
      obtain rfl := Option.some.inj read
      exact first _ _ found

/-- A semicolon may follow a group. -/
theorem closes_optional (first : ∀ opened, Agrees like opened 0 bound related parser parser')
    (last : GroupLast parser)
    (ends : ∀ value trees result, next value trees = some (result, []) →
      trees = [] ∨ ∃ token : Token, token.kind = .mark ';' ∧ trees = [.leaf token])
    (stops : ∀ value value' token token' result rest, related value value' →
      Token.kind token' = .mark ';' → next value [.leaf token] = some (result, []) →
        ∃ result', wanted result result' ∧
          next' value' (.leaf token' :: rest) = some (result', rest)) :
    Closes like true bound wanted (parser >>= next) (parser' >>= next') := by
  intro pairs alike light value read
  obtain ⟨⟨found, left⟩, readFirst, readSecond⟩ := Option.bind_eq_some_iff.mp read
  rcases ends found left value readSecond with rfl | ⟨token, kind, rfl⟩
  · obtain ⟨_, _, _, _, _, split⟩ := last _ _ readFirst
    exact closed_of_group split
  · rw [← lefts_nil_tail] at readFirst
    obtain ⟨_, taken, _, _, inside, only, _⟩ :=
      (first false pairs [] [] .nil alike light).of_read readFirst
    rw [lefts_nil_tail] at only
    obtain ⟨⟨_, other⟩, behind, here⟩ := List.map_eq_singleton_iff.mp only.symm
    obtain rfl : _ = Tree.leaf token := here
    have alikeLast := alike.drop taken
    rw [behind] at alikeLast
    cases alikeLast with
    | @cons _ _ _ _ trees _ _ =>
        cases trees with
        | @leaf _ _ token' tokens =>
            have kind' : token'.kind = .mark ';' := (like.kind tokens).symm.trans kind
            have split : pairs = pairs.take taken ++ [(.leaf token, .leaf token')] := by
              rw [← behind, List.take_append_drop]
            rw [split]
            refine .semicolon kind kind' fun rest => ?_
            have lightFront : weight (pairs.take taken) < bound := by
              have whole := congrArg weight split
              rw [weight_append] at whole
              omega
            have readAgain : parser (lefts (pairs.take taken) [.leaf token]) =
                some (found, [.leaf token]) := by
              rw [← readFirst, lefts_nil_tail]
              conv_rhs => rw [split]
              simp [lefts]
            obtain ⟨found', taken', values, _, inside', same, readThere⟩ :=
              (first true _ _ (.leaf token' :: rest) (.semicolon rfl kind kind') (alike.take taken)
                lightFront).of_read readAgain
            have none : (pairs.take taken).drop taken' = [] := by
              have lengths := congrArg List.length same
              rw [← List.length_eq_zero_iff]
              simpa using lengths
            rw [none] at readThere
            obtain ⟨value', results, readLast⟩ := stops _ _ _ _ _ rest values kind' readSecond
            refine ⟨value', results, ?_⟩
            change (parser' _).bind _ = _
            rw [readThere]
            exact readLast

theorem Closes.ite {condition condition' : Prop} [Decidable condition] [Decidable condition']
    (same : condition ↔ condition') (first : Closes like grouped bound related parser parser')
    (second : Closes like grouped bound related other other') :
    Closes like grouped bound related (if condition then parser else other)
      (if condition' then parser' else other') := by
  by_cases holds : condition
  · rwa [if_pos holds, if_pos (same.mp holds)]
  · rwa [if_neg holds, if_neg (same.not.mp holds)]

theorem closes_ahead {condition : List Tree → Bool} {next : Bool → Parser γ} {next' : Bool → Parser δ}
    (respects : RespectsAll like condition)
    (closes : ∀ answer, Closes like grouped bound wanted (next answer) (next' answer)) :
    Closes like grouped bound wanted (ahead condition >>= next) (ahead condition >>= next') := by
  intro pairs alike light value read
  refine (closes _ pairs alike light value read).imp respects alike fun trees same => ?_
  change _ = next' (condition trees) trees
  rw [same]

/-- A condition on the list chooses between two parsers. -/
theorem closes_get_ite {condition : List Tree → Bool} {others : List Tree → Parser α}
    {others' : List Tree → Parser β} (respects : RespectsAll like condition)
    (first : Closes like grouped bound related (guarded condition parser) (guarded condition parser'))
    (second : Closes like grouped bound related (get >>= others) (get >>= others')) :
    Closes like grouped bound related
      (get >>= fun trees => if condition trees = true then parser else others trees)
      (get >>= fun trees => if condition trees = true then parser' else others' trees) := by
  intro pairs alike light value read
  change (if condition (pairs.map Prod.fst) = true then parser else others (pairs.map Prod.fst))
    (pairs.map Prod.fst) = _ at read
  split at read
  · rename_i holds
    refine (first pairs alike light value ?_).imp respects alike fun trees same => ?_
    · rw [guarded, if_pos holds, read]
    · change guarded condition parser' trees = (if condition trees = true then parser'
        else others' trees) trees
      rw [guarded, same, if_pos holds, if_pos holds]
  · rename_i fails
    refine (second pairs alike light value read).imp respects alike fun trees same => ?_
    change others' trees trees = (if condition trees = true then parser' else others' trees) trees
    rw [same, if_neg fails]

theorem Closes.guarded {condition : List Tree → Bool}
    (closes : Closes like grouped bound related parser parser') (respects : RespectsAll like condition) :
    Closes like grouped bound related (guarded condition parser) (guarded condition parser') := by
  intro pairs alike light value read
  rw [Parser.guarded] at read
  split at read
  · rename_i holds
    refine (closes pairs alike light value read).imp respects alike fun trees same => ?_
    rw [Parser.guarded, same, if_pos holds]
  · cases read

end Closes

end Parser

end ProgramIdl.Syntax
