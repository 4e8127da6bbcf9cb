import ProgramIdl.Proofs.Syntax.Steady.Conditions

/-!
# Reading that ends with a group

A parser that takes a list with a group at the end does the same when more trees follow, if these
trees do not start with what it may go on with.  It is put together from steady parsers in front of
one that takes the group.
-/

set_option autoImplicit false

namespace ProgramIdl.Syntax

open ProgramIdl.Syntax.Parser

variable {α β : Type}

/-- What follows an item does not belong to it: no semicolon and no group comes first. -/
structure Follows (rest : List Tree) : Prop where
  mark : headIs (Tree.isMark ';') rest = false
  group (delimiter : Delimiter) : headIs (Tree.isGroup delimiter) rest = false

/-- A group and the same group with something behind it. -/
def Stop.behind (delimiter : Delimiter) (opening closing : Token) (inner rest : List Tree) : Stop :=
  ⟨delimiter, opening, closing, inner, opening, closing, inner, rest⟩

/-- An opening brace. -/
def Token.brace : Token where
  kind := .opening .brace
  text := ['\x7b']
  text_ne := by simp
  lead := []
  start := 0
  line := 1

/-- A block with nothing in it and nothing behind it. -/
def Stop.block : Stop :=
  .behind .brace .brace .brace [] []

namespace Parser

/-- What a parser reads that takes all of a list with a group at the end, which is a part of some
trees; the flag says that the group has braces. -/
structure Concludes (whole : List Tree) (braces : Bool) (parser : Parser α) : Prop where
  of_nil : parser [] = none
  settled {front inner : List Tree} {delimiter : Delimiter} {opening closing : Token} {value : α} :
    front ++ [.group delimiter opening inner closing] <:+ whole →
      parser (front ++ [.group delimiter opening inner closing]) = some (value, []) →
        Settled front ∧ (braces = true → delimiter = .brace)
  continues {front inner rest : List Tree} {delimiter : Delimiter} {opening closing : Token}
      {value : α} :
    front ++ [.group delimiter opening inner closing] <:+ whole →
      parser (front ++ [.group delimiter opening inner closing]) = some (value, []) →
        Follows rest →
          parser (front ++ .group delimiter opening inner closing :: rest) = some (value, rest)

/-- A parser that takes nothing but the group. -/
structure ConcludesAlone (whole : List Tree) (braces : Bool) (parser : Parser α) : Prop extends
    Concludes whole braces parser where
  alone {front inner : List Tree} {delimiter : Delimiter} {opening closing : Token} {value : α} :
    front ++ [.group delimiter opening inner closing] <:+ whole →
      parser (front ++ [.group delimiter opening inner closing]) = some (value, []) → front = []

/-- A parser that does not end with a group. -/
def Never (whole : List Tree) (parser : Parser α) : Prop :=
  ∀ front delimiter opening inner closing value,
    front ++ [.group delimiter opening inner closing] <:+ whole →
      parser (front ++ [.group delimiter opening inner closing]) ≠ some (value, [])

section Concludes

variable {whole : List Tree} {braces : Bool} {parser other : Parser α} {next : α → Parser β}

/-- Trees of which some are left that have a group at the end. -/
theorem exists_of_append_group {taken left front inner : List Tree} {delimiter : Delimiter}
    {opening closing : Token} (some_ : left ≠ [])
    (split : front ++ [.group delimiter opening inner closing] = taken ++ left) :
    ∃ behind, left = behind ++ [.group delimiter opening inner closing] ∧ front = taken ++ behind := by
  obtain ⟨behind, last, rfl⟩ := List.eq_nil_or_concat left |>.resolve_left some_
  rw [List.concat_eq_append, ← List.append_assoc] at split
  obtain ⟨rfl, same⟩ := List.append_inj' split rfl
  obtain ⟨rfl, _⟩ := List.cons.inj same
  exact ⟨behind, List.concat_eq_append, rfl⟩

/-- Where two steps take a list with a group at the end, the first one leaves the group to the
second. -/
theorem exists_of_bind_group (settles : Settles parser) (missing : ∀ value, next value [] = none)
    {front inner : List Tree} {delimiter : Delimiter} {opening closing : Token} {value : β}
    (within : front ++ [.group delimiter opening inner closing] <:+ whole)
    (read : (parser >>= next) (front ++ [.group delimiter opening inner closing]) =
      some (value, [])) :
    ∃ taken behind first, front = taken ++ behind ∧ Settled taken ∧
      behind ++ [.group delimiter opening inner closing] <:+ whole ∧
      parser (front ++ [.group delimiter opening inner closing]) =
        some (first, behind ++ [.group delimiter opening inner closing]) ∧
      next first (behind ++ [.group delimiter opening inner closing]) = some (value, []) := by
  obtain ⟨⟨first, left⟩, readFirst, readSecond⟩ := Option.bind_eq_some_iff.mp read
  obtain ⟨taken, split, settled⟩ := settles _ _ _ readFirst
  have some_ : left ≠ [] := by
    rintro rfl
    cases (missing first).symm.trans readSecond
  obtain ⟨behind, rfl, rfl⟩ := exists_of_append_group some_ split
  rw [List.append_assoc] at within
  exact ⟨taken, behind, first, rfl, settled, (List.suffix_append _ _).trans within, readFirst,
    readSecond⟩

/-- What is steady comes before what ends with the group. -/
theorem Concludes.bind
    (first : ∀ delimiter opening closing inner rest, (braces = true → delimiter = .brace) →
      SteadyBefore (.behind delimiter opening closing inner rest) true parser)
    (nothing : (parser >>= next) [] = none) (second : ∀ value, Concludes whole braces (next value)) :
    Concludes whole braces (parser >>= next) where
  of_nil := nothing
  settled {front inner delimiter opening closing value} within read := by
    have settles := (first .brace .brace .brace [] [] fun _ => rfl).settles
    obtain ⟨taken, behind, middle, rfl, settled, within, _, readSecond⟩ :=
      exists_of_bind_group settles (fun value => (second value).of_nil) within read
    obtain ⟨others, isBrace⟩ := (second middle).settled within readSecond
    exact ⟨settled.append others, isBrace⟩
  continues {front inner rest delimiter opening closing value} within read follows := by
    have settles := (first .brace .brace .brace [] [] fun _ => rfl).settles
    obtain ⟨taken, behind, middle, rfl, settled, within, readFirst, readSecond⟩ :=
      exists_of_bind_group settles (fun value => (second value).of_nil) within read
    obtain ⟨others, isBrace⟩ := (second middle).settled within readSecond
    have continued := (first delimiter opening closing inner rest isBrace).continues _
      (settled.append others).closed
    have later := (second middle).continues within readSecond follows
    change Continued _ _ (parser (taken ++ behind ++ [.group delimiter opening inner closing]))
      (parser (taken ++ behind ++ .group delimiter opening inner closing :: rest)) at continued
    change (parser _).bind _ = _
    rw [readFirst] at continued
    generalize ends : some (middle, behind ++ [.group delimiter opening inner closing]) = result
      at continued
    generalize parser (taken ++ behind ++ .group delimiter opening inner closing :: rest) = result'
      at continued ⊢
    cases continued with
    | failed => cases ends
    | within _ =>
        obtain ⟨rfl, same⟩ := Prod.mk.inj (Option.some.inj ends)
        obtain rfl := List.append_cancel_right same
        exact later
    | past _ => simp at ends

/-- Something optional may come in front as well. -/
theorem Concludes.optional {next : Option α → Parser β}
    (first : ∀ delimiter opening closing inner rest, (braces = true → delimiter = .brace) →
      SteadyBefore (.behind delimiter opening closing inner rest) true parser)
    (missing : parser [] = none) (second : ∀ value, Concludes whole braces (next value)) :
    Concludes whole braces (maybe parser >>= next) := by
  refine .bind (fun _ _ _ _ _ isBrace => (first _ _ _ _ _ isBrace).maybe) ?_ second
  change (maybe parser []).bind _ = none
  rw [maybe, missing]
  exact (second none).of_nil

/-- What reaches the group comes before what takes nothing else. -/
theorem Concludes.reached
    (first : ∀ delimiter opening closing inner rest, (braces = true → delimiter = .brace) →
      Reaches (.behind delimiter opening closing inner rest) parser)
    (nothing : (parser >>= next) [] = none)
    (second : ∀ value, ConcludesAlone whole braces (next value)) :
    Concludes whole braces (parser >>= next) where
  of_nil := nothing
  settled {front inner delimiter opening closing value} within read := by
    have settles := (first .brace .brace .brace [] [] fun _ => rfl).settles
    obtain ⟨taken, behind, middle, rfl, settled, within, _, readSecond⟩ :=
      exists_of_bind_group settles (fun value => (second value).of_nil) within read
    obtain ⟨others, isBrace⟩ := (second middle).settled within readSecond
    exact ⟨settled.append others, isBrace⟩
  continues {front inner rest delimiter opening closing value} within read follows := by
    have settles := (first .brace .brace .brace [] [] fun _ => rfl).settles
    obtain ⟨taken, behind, middle, rfl, _, within, readFirst, readSecond⟩ :=
      exists_of_bind_group settles (fun value => (second value).of_nil) within read
    obtain ⟨_, isBrace⟩ := (second middle).settled within readSecond
    obtain rfl := (second middle).alone within readSecond
    have reached := (first delimiter opening closing inner rest isBrace).reaches readFirst
    change parser (taken ++ [] ++ .group delimiter opening inner closing :: rest) = _ at reached
    change (parser _).bind _ = _
    rw [reached]
    exact (second middle).continues within readSecond follows

theorem Concludes.anyGroup (ends : Concludes whole true parser) : Concludes whole false parser where
  of_nil := ends.of_nil
  settled within read := ⟨(ends.settled within read).1, by simp⟩
  continues := ends.continues

theorem Never.concludesAlone (never : Never whole parser) (nothing : parser [] = none) :
    ConcludesAlone whole braces parser where
  of_nil := nothing
  settled within read := absurd read (never _ _ _ _ _ _ within)
  continues within read := absurd read (never _ _ _ _ _ _ within)
  alone within read := absurd read (never _ _ _ _ _ _ within)

theorem Never.bind (settles : Settles parser) (never : ∀ value, Never whole (next value))
    (missing : ∀ value, next value [] = none) : Never whole (parser >>= next) := by
  intro front delimiter opening inner closing value within read
  obtain ⟨_, behind, middle, rfl, _, within, _, readSecond⟩ :=
    exists_of_bind_group settles missing within read
  exact never middle _ _ _ _ _ _ within readSecond

/-- A token is no group. -/
theorem never_token (condition : Tree → Bool) (result : Token → Parser β)
    (pure_ : ∀ token, ∃ value, result token = pure value) :
    Never whole (token condition >>= result) := by
  intro front delimiter opening inner closing value _ read
  obtain ⟨⟨found, left⟩, readToken, same⟩ := Option.bind_eq_some_iff.mp read
  obtain ⟨split, _⟩ := token_eq_some readToken
  obtain ⟨_, isPure⟩ := pure_ found
  simp only [isPure] at same
  obtain ⟨_, rfl⟩ := Prod.mk.inj (Option.some.inj same)
  cases front with
  | nil => cases split
  | cons tree front => simp at split

/-- Skipped trees do not reach past the group. -/
theorem Never.skipped (never : Never whole parser) (missing : parser [] = none)
    (condition : Tree → Bool) : Never whole (skipWhile condition >>= fun _ => parser) := by
  intro front delimiter opening inner closing value within read
  change parser ((front ++ [Tree.group delimiter opening inner closing]).dropWhile condition) = _ at read
  have some_ : (front ++ [Tree.group delimiter opening inner closing]).dropWhile condition ≠ [] := by
    intro none
    rw [none, missing] at read
    cases read
  obtain ⟨behind, left, _⟩ :=
    exists_of_append_group some_ List.takeWhile_append_dropWhile.symm
  have end_ := List.dropWhile_suffix (l := front ++ [Tree.group delimiter opening inner closing]) condition
  rw [left] at read end_
  exact never _ _ _ _ _ _ (end_.trans within) read

theorem exists_of_thenPure (pure_ : ∀ value, ∃ result, next value = pure result) {trees left : List Tree}
    {value : β} (read : (parser >>= next) trees = some (value, left)) :
    ∃ first, parser trees = some (first, left) ∧ next first = pure value := by
  obtain ⟨⟨first, middle⟩, readFirst, same⟩ := Option.bind_eq_some_iff.mp read
  obtain ⟨result, isPure⟩ := pure_ first
  simp only [isPure] at same
  obtain ⟨rfl, rfl⟩ := Prod.mk.inj (Option.some.inj same)
  exact ⟨first, readFirst, isPure⟩

theorem Concludes.thenPure (ends : Concludes whole braces parser)
    (pure_ : ∀ value, ∃ result, next value = pure result) :
    Concludes whole braces (parser >>= next) where
  of_nil := by
    change (parser []).bind _ = _
    rw [ends.of_nil]
    rfl
  settled within read := by
    obtain ⟨first, readFirst, _⟩ := exists_of_thenPure pure_ read
    exact ends.settled within readFirst
  continues within read follows := by
    obtain ⟨first, readFirst, isPure⟩ := exists_of_thenPure pure_ read
    change (parser _).bind _ = _
    rw [ends.continues within readFirst follows]
    simp only [Option.bind_some, isPure]
    rfl

theorem ConcludesAlone.thenPure (ends : ConcludesAlone whole braces parser)
    (pure_ : ∀ value, ∃ result, next value = pure result) :
    ConcludesAlone whole braces (parser >>= next) where
  toConcludes := ends.toConcludes.thenPure pure_
  alone within read := by
    obtain ⟨first, readFirst, _⟩ := exists_of_thenPure pure_ read
    exact ends.alone within readFirst

/-- A condition on the first tree chooses what takes the group. -/
theorem concludesAlone_ahead {condition : Tree → Bool} {next : Bool → Parser β}
    (ends : ∀ answer, ConcludesAlone whole braces (next answer)) :
    ConcludesAlone whole braces (ahead (headIs condition) >>= next) where
  of_nil := (ends _).of_nil
  settled within read := (ends _).settled within read
  alone within read := (ends _).alone within read
  continues {front inner rest delimiter opening closing value} within read follows := by
    obtain rfl := (ends _).alone within read
    exact (ends _).continues within read follows

theorem ConcludesAlone.ite {condition : Prop} [Decidable condition]
    (first : ConcludesAlone whole braces parser) (second : ConcludesAlone whole braces other) :
    ConcludesAlone whole braces (if condition then parser else other) := by
  split
  · exact first
  · exact second

/-! ## Single trees -/

/-- What a parser does depends on the first tree only, which it takes. -/
structure TakesOne (parser : Parser α) : Prop where
  of_nil : parser [] = none
  first (tree : Tree) : ∃ result : Option α, ∀ rest, parser (tree :: rest) = result.map (·, rest)

theorem takesOne_anyGroup : TakesOne anyGroup := by
  refine ⟨rfl, fun tree => ?_⟩
  cases tree with
  | leaf _ => exact ⟨none, fun _ => rfl⟩
  | group _ _ _ _ => exact ⟨some _, fun _ => rfl⟩

theorem takesOne_inside (delimiter : Delimiter) (parser : Parser α) :
    TakesOne (inside delimiter parser) := by
  refine ⟨rfl, fun tree => ?_⟩
  cases tree with
  | leaf _ => exact ⟨none, fun _ => rfl⟩
  | group other opening inner closing =>
      by_cases same : other = delimiter
      · exact ⟨all parser inner, fun _ => if_pos same⟩
      · exact ⟨none, fun _ => if_neg same⟩

theorem TakesOne.orElse (first : TakesOne parser) (second : TakesOne other) :
    TakesOne (parser <|> other) := by
  refine ⟨?_, fun tree => ?_⟩
  · change (parser []).orElse (fun _ => other []) = none
    rw [first.of_nil, second.of_nil]
    rfl
  · obtain ⟨result, read⟩ := first.first tree
    obtain ⟨result', read'⟩ := second.first tree
    refine ⟨result.orElse fun _ => result', fun rest => ?_⟩
    change (parser (tree :: rest)).orElse (fun _ => other (tree :: rest)) = _
    rw [read, read']
    cases result <;> rfl

/-- Where one tree is all, it is the group. -/
theorem TakesOne.alone (one : TakesOne parser) {front inner : List Tree} {delimiter : Delimiter}
    {opening closing : Token} {value : α}
    (read : parser (front ++ [.group delimiter opening inner closing]) = some (value, [])) :
    front = [] := by
  cases front with
  | nil => rfl
  | cons tree front =>
      obtain ⟨result, found⟩ := one.first tree
      rw [List.cons_append, found] at read
      obtain ⟨_, _, same⟩ := Option.map_eq_some_iff.mp read
      simp at same

theorem TakesOne.again (one : TakesOne parser) {tree : Tree} {left : List Tree} {value : α}
    (read : parser (tree :: left) = some (value, left)) (rest : List Tree) :
    parser (tree :: rest) = some (value, rest) := by
  obtain ⟨result, found⟩ := one.first tree
  rw [found] at read ⊢
  obtain ⟨_, rfl, same⟩ := Option.map_eq_some_iff.mp read
  rw [← (Prod.mk.inj same).1]
  rfl

theorem TakesOne.concludesAlone (one : TakesOne parser) : ConcludesAlone whole false parser where
  of_nil := one.of_nil
  settled _ read := by
    obtain rfl := one.alone read
    exact ⟨.nil, by simp⟩
  continues _ read _ := by
    obtain rfl := one.alone read
    exact one.again read _
  alone _ read := one.alone read

/-- A group is read as a whole. -/
theorem concludesAlone_inside (parser : Parser α) :
    ConcludesAlone whole true (inside .brace parser) where
  toConcludes :=
    { (takesOne_inside .brace parser).concludesAlone.toConcludes with
      settled := fun {front inner delimiter opening closing value} _ read => by
        obtain rfl := (takesOne_inside .brace parser).alone read
        refine ⟨.nil, fun _ => ?_⟩
        rw [List.nil_append, inside] at read
        split at read
        · assumption
        · cases read }
  alone _ read := (takesOne_inside .brace parser).alone read

theorem maybe_mark {c : Char} {trees : List Tree} (other : headIs (Tree.isMark c) trees = false) :
    maybe (mark c) trees = some (none, trees) := by
  rw [maybe, mark]
  cases trees with
  | nil => rfl
  | cons tree rest =>
      cases tree with
      | group _ _ _ _ => rfl
      | leaf token =>
          have differs : Tree.isMark c (.leaf token) = false := other
          rw [Parser.token, if_neg (by simp [differs])]

/-- A mark may be left out, or it is the first tree. -/
theorem eq_of_maybe_mark {c : Char} {trees left : List Tree} {found : Option Token}
    (read : maybe (mark c) trees = some (found, left)) :
    trees = left ∨ ∃ token, Tree.isMark c (.leaf token) = true ∧ trees = .leaf token :: left := by
  rw [maybe] at read
  split at read
  · rename_i token rest isMark
    obtain ⟨rfl, rfl⟩ := Prod.mk.inj (Option.some.inj read)
    obtain ⟨split, isMark⟩ := token_eq_some isMark
    exact .inr ⟨token, isMark, split⟩
  · exact .inl (Prod.mk.inj (Option.some.inj read)).2

/-- A semicolon may follow the group, but does not. -/
theorem TakesOne.maybeSemicolon (one : TakesOne parser) (result : α → β) :
    ConcludesAlone whole false
      (parser >>= fun value => maybe (mark ';') >>= fun _ => pure (result value)) := by
  have alone {front inner : List Tree} {delimiter : Delimiter} {opening closing : Token} {value : β}
      (read : (parser >>= fun value => maybe (mark ';') >>= fun _ => pure (result value))
        (front ++ [.group delimiter opening inner closing]) = some (value, [])) :
      front = [] ∧ ∃ first, parser [.group delimiter opening inner closing] = some (first, []) ∧
        value = result first := by
    obtain ⟨⟨first, left⟩, readFirst, readMore⟩ := Option.bind_eq_some_iff.mp read
    obtain ⟨⟨found, last⟩, readMark, same⟩ := Option.bind_eq_some_iff.mp readMore
    obtain ⟨rfl, rfl⟩ := Prod.mk.inj (Option.some.inj same)
    cases front with
    | nil =>
        obtain ⟨_, taken⟩ := one.first (.group delimiter opening inner closing)
        rw [List.nil_append, taken] at readFirst
        obtain ⟨_, rfl, same⟩ := Option.map_eq_some_iff.mp readFirst
        obtain ⟨rfl, rfl⟩ := Prod.mk.inj same
        exact ⟨rfl, _, taken [], rfl⟩
    | cons tree front =>
        obtain ⟨_, taken⟩ := one.first tree
        rw [List.cons_append, taken] at readFirst
        obtain ⟨_, rfl, same⟩ := Option.map_eq_some_iff.mp readFirst
        obtain ⟨rfl, rfl⟩ := Prod.mk.inj same
        rcases eq_of_maybe_mark readMark with none | ⟨token, _, only⟩
        · simp at none
        · cases front <;> simp at only
  refine ⟨⟨?_, fun _ read => ?_, fun _ read follows => ?_⟩, fun _ read => (alone read).1⟩
  · change (parser []).bind _ = none
    rw [one.of_nil]
    rfl
  · obtain ⟨rfl, _⟩ := alone read
    exact ⟨.nil, by simp⟩
  · obtain ⟨rfl, first, readFirst, rfl⟩ := alone read
    change (parser _).bind _ = _
    rw [List.nil_append, one.again readFirst]
    change (maybe (mark ';') _).bind _ = _
    rw [maybe_mark follows.mark]
    rfl

/-! ## Conditions -/

/-- A parser that only starts where a condition holds. -/
def guarded (condition : List Tree → Bool) (parser : Parser α) : Parser α := fun trees =>
  if condition trees then parser trees else none

/-- A condition that does not depend on what stands behind a group. -/
def OverlooksBehind (condition : List Tree → Bool) : Prop :=
  ∀ delimiter opening closing inner rest,
    Overlooks (.behind delimiter opening closing inner rest) condition

section Conditions

variable {condition : List Tree → Bool}

theorem Concludes.guarded (ends : Concludes whole braces parser) (overlooks : OverlooksBehind condition) :
    Concludes whole braces (guarded condition parser) := by
  refine ⟨?_, fun within read => ?_, fun {front inner rest delimiter opening closing value} within read
    follows => ?_⟩
  · rw [Parser.guarded, ends.of_nil, ite_self]
  · rw [Parser.guarded] at read
    split at read
    · exact ends.settled within read
    · cases read
  · have same := overlooks delimiter opening closing inner rest front
    change condition (front ++ [.group delimiter opening inner closing]) =
      condition (front ++ .group delimiter opening inner closing :: rest) at same
    rw [Parser.guarded] at read ⊢
    rw [← same]
    split at read
    · rename_i holds
      rw [if_pos holds]
      exact ends.continues within read follows
    · cases read

/-- A condition on the trees chooses what ends with the group. -/
theorem concludes_get_ite {others : List Tree → Parser α} (overlooks : OverlooksBehind condition)
    (first : Concludes whole braces (Parser.guarded condition parser))
    (second : Concludes whole braces (get >>= others)) :
    Concludes whole braces
      (get >>= fun trees => if condition trees = true then parser else others trees) := by
  have apply (trees : List Tree) :
      (get >>= fun trees => if condition trees = true then parser else others trees : Parser α) trees =
        if condition trees = true then Parser.guarded condition parser trees
        else (get >>= others : Parser α) trees := by
    change (if condition trees = true then parser else others trees) trees = _
    rw [Parser.guarded]
    split
    · rfl
    · rfl
  refine ⟨?_, fun within read => ?_, fun {front inner rest delimiter opening closing value} within read
    follows => ?_⟩
  · rw [apply, first.of_nil, second.of_nil, ite_self]
  · rw [apply] at read
    split at read
    · exact first.settled within read
    · exact second.settled within read
  · have same := overlooks delimiter opening closing inner rest front
    change condition (front ++ [.group delimiter opening inner closing]) =
      condition (front ++ .group delimiter opening inner closing :: rest) at same
    rw [apply] at read ⊢
    rw [← same]
    split at read
    · rename_i holds
      rw [if_pos holds]
      exact first.continues within read follows
    · rename_i fails
      rw [if_neg fails]
      exact second.continues within read follows

theorem concludes_ahead {next : Bool → Parser β} (overlooks : OverlooksBehind condition)
    (ends : ∀ answer, Concludes whole braces (next answer)) :
    Concludes whole braces (ahead condition >>= next) where
  of_nil := (ends _).of_nil
  settled within read := (ends _).settled within read
  continues {front inner rest delimiter opening closing value} within read follows := by
    have same := overlooks delimiter opening closing inner rest front
    change condition (front ++ [.group delimiter opening inner closing]) =
      condition (front ++ .group delimiter opening inner closing :: rest) at same
    change next (condition (front ++ .group delimiter opening inner closing :: rest)) _ = _
    rw [← same]
    exact (ends _).continues within read follows

end Conditions

end Concludes

end Parser

end ProgramIdl.Syntax
