import ProgramIdl.Proofs.Syntax.AngleBrackets
import ProgramIdl.Proofs.Syntax.Agreement

/-!
# Reading up to a group

A construct that ends with a group is read the same whatever stands behind the group, and whatever
stands in it as long as that is not looked at.  A parser is steady if it does the same in both cases
with the trees in front of the group, or takes the group in both.
-/

set_option autoImplicit false

namespace ProgramIdl.Syntax

open ProgramIdl.Syntax.Parser

variable {α β : Type}

/-- A group at the end of a list, and a group with the same delimiters in its place with more trees
behind it. -/
structure Stop where
  delimiter : Delimiter
  (opening closing : Token)
  inner : List Tree
  (opening' closing' : Token)
  inner' : List Tree
  rest : List Tree

namespace Stop

def here (stop : Stop) : Tree :=
  .group stop.delimiter stop.opening stop.inner stop.closing

def there (stop : Stop) : Tree :=
  .group stop.delimiter stop.opening' stop.inner' stop.closing'

/-- Some trees with the group at their end. -/
def short (stop : Stop) (front : List Tree) : List Tree :=
  front ++ [stop.here]

/-- The same trees with the other group and what stands behind it. -/
def long (stop : Stop) (front : List Tree) : List Tree :=
  front ++ stop.there :: stop.rest

variable (stop : Stop)

@[simp] theorem short_nil : stop.short [] = [stop.here] := rfl

@[simp] theorem long_nil : stop.long [] = stop.there :: stop.rest := rfl

@[simp] theorem short_cons (tree : Tree) (front : List Tree) :
    stop.short (tree :: front) = tree :: stop.short front := rfl

@[simp] theorem long_cons (tree : Tree) (front : List Tree) :
    stop.long (tree :: front) = tree :: stop.long front := rfl

@[simp] theorem length_short (front : List Tree) :
    (stop.short front).length = front.length + 1 := by
  simp [short]

theorem short_append (first second : List Tree) :
    stop.short (first ++ second) = first ++ stop.short second := by
  simp [short]

theorem long_append (first second : List Tree) :
    stop.long (first ++ second) = first ++ stop.long second := by
  simp [long]

theorem short_ne_nil (front : List Tree) : stop.short front ≠ [] := by
  simp [short]

theorem short_eq_here {stop : Stop} {front : List Tree} (same : stop.short front = [stop.here]) :
    front = [] := by
  simpa [short] using same

end Stop

/-- What two runs of a parser come to: both fail, both leave the group with the same trees in front
of it, or both take the group. -/
inductive Continued (stop : Stop) (passing : Bool) :
    Option (α × List Tree) → Option (α × List Tree) → Prop where
  | failed : Continued stop passing none none
  | within {value : α} {front : List Tree} (closed : AnglesClosed front) :
      Continued stop passing (some (value, stop.short front)) (some (value, stop.long front))
  | past {value value' : α} {left : List Tree} (passes : passing = true) :
      Continued stop passing (some (value, [])) (some (value', left))

namespace Parser

/-- What the parser takes is settled. -/
def Settles (parser : Parser α) : Prop :=
  ∀ trees value left, parser trees = some (value, left) → ∃ taken, trees = taken ++ left ∧ Settled taken

/-- The parser does the same in front of both groups; the flag says whether it may take them. -/
structure SteadyBefore (stop : Stop) (passing : Bool) (parser : Parser α) : Prop where
  settles : Settles parser
  continues : ∀ front, AnglesClosed front →
    Continued stop passing (parser (stop.short front)) (parser (stop.long front))

/-- The parser never fails. -/
def Total (parser : Parser α) : Prop :=
  ∀ trees, parser trees ≠ none

section Settles

variable {parser other : Parser α} {next : α → Parser β}

theorem Settles.bind (first : Settles parser) (second : ∀ value, Settles (next value)) :
    Settles (parser >>= next) := by
  intro trees value left read
  obtain ⟨⟨middle, between⟩, readFirst, readSecond⟩ := Option.bind_eq_some_iff.mp read
  obtain ⟨taken, rfl, settled⟩ := first _ _ _ readFirst
  obtain ⟨more, rfl, others⟩ := second _ _ _ _ readSecond
  exact ⟨taken ++ more, (List.append_assoc ..).symm, settled.append others⟩

theorem settles_pure (value : α) : Settles (pure value : Parser α) := by
  intro trees _ left read
  obtain ⟨rfl, rfl⟩ := Prod.mk.inj (Option.some.inj read)
  exact ⟨[], rfl, .nil⟩

theorem settles_failure : Settles (failure : Parser α) :=
  fun _ _ _ read => by cases read

theorem Settles.orElse (first : Settles parser) (second : Settles other) :
    Settles (parser <|> other) := by
  intro trees value left read
  change (parser trees).orElse (fun _ => other trees) = _ at read
  cases found : parser trees with
  | none =>
      rw [found] at read
      exact second _ _ _ read
  | some result =>
      rw [found] at read
      obtain rfl := Option.some.inj read
      exact first _ _ _ found

theorem Settles.maybe (settles : Settles parser) : Settles (maybe parser) := by
  intro trees value left read
  rw [Parser.maybe] at read
  split at read
  · rename_i found
    obtain ⟨rfl, rfl⟩ := Prod.mk.inj (Option.some.inj read)
    exact settles _ _ _ found
  · obtain ⟨rfl, rfl⟩ := Prod.mk.inj (Option.some.inj read)
    exact ⟨[], rfl, .nil⟩

theorem Settles.upTo (settles : Settles parser) (count : Nat) : Settles (upTo parser count) := by
  induction count with
  | zero => exact settles_pure []
  | succ count inductionHypothesis =>
      refine settles.maybe.bind fun found => ?_
      cases found with
      | none => exact settles_pure []
      | some value => exact inductionHypothesis.bind fun _ => settles_pure _

theorem Settles.many (settles : Settles parser) : Settles (many parser) :=
  fun _ _ _ read => settles.upTo _ _ _ _ read

theorem Settles.withText (settles : Settles parser) : Settles (withText parser) := by
  intro trees value left read
  obtain ⟨⟨_, _⟩, found, same⟩ := Option.map_eq_some_iff.mp read
  obtain ⟨rfl, rfl⟩ := Prod.mk.inj same
  exact settles _ _ _ found

theorem Settles.ite {condition : Prop} [Decidable condition] (first : Settles parser)
    (second : Settles other) : Settles (if condition then parser else other) := by
  split
  · exact first
  · exact second

/-- What is read may depend on the list that is left. -/
theorem settles_get {next : List Tree → Parser β}
    (settles : ∀ trees value left, next trees trees = some (value, left) →
      ∃ taken, trees = taken ++ left ∧ Settled taken) : Settles (get >>= next) :=
  fun trees value left read => settles trees value left read

theorem settles_ahead {condition : List Tree → Bool} {next : Bool → Parser β}
    (settles : ∀ answer, Settles (next answer)) : Settles (ahead condition >>= next) :=
  fun trees value left read => settles (condition trees) trees value left read

theorem settles_token {condition : Tree → Bool}
    (quiet : ∀ tree, condition tree = true → tree.isQuiet = true) : Settles (token condition) := by
  intro trees value left read
  cases trees with
  | nil => cases read
  | cons tree rest =>
      cases tree with
      | group _ _ _ _ => cases read
      | leaf found =>
          rw [token] at read
          split at read
          · rename_i accepted
            obtain ⟨rfl, rfl⟩ := Prod.mk.inj (Option.some.inj read)
            exact ⟨[.leaf found], rfl, settled_quiet (quiet _ accepted)⟩
          · cases read

/-- Nothing is left of no trees. -/
theorem Settles.of_nil (settles : Settles parser) {value : α} {left : List Tree}
    (read : parser [] = some (value, left)) : left = [] := by
  obtain ⟨taken, split, _⟩ := settles _ _ _ read
  exact (List.append_eq_nil_iff.mp split.symm).2

end Settles

theorem total_pure (value : α) : Total (pure value : Parser α) :=
  fun _ => Option.some_ne_none _

theorem total_maybe (parser : Parser α) : Total (maybe parser) := by
  intro trees
  rw [Parser.maybe]
  split <;> exact Option.some_ne_none _

theorem Total.bind {parser : Parser α} {next : α → Parser β} (first : Total parser)
    (second : ∀ value, Total (next value)) : Total (parser >>= next) := by
  intro trees
  obtain ⟨⟨value, left⟩, read⟩ := Option.ne_none_iff_exists'.mp (first trees)
  change (parser trees).bind _ ≠ none
  rw [read]
  exact second value left

theorem total_upTo (parser : Parser α) (count : Nat) : Total (upTo parser count) := by
  induction count with
  | zero => exact total_pure []
  | succ count inductionHypothesis =>
      refine (total_maybe parser).bind fun found => ?_
      cases found with
      | none => exact total_pure []
      | some value => exact inductionHypothesis.bind fun _ => total_pure _

theorem total_many (parser : Parser α) : Total (many parser) :=
  fun trees => total_upTo parser trees.length trees

section SteadyBefore

variable {stop : Stop} {passing : Bool} {parser other : Parser α} {next : α → Parser β}

theorem SteadyBefore.passed (steady : SteadyBefore stop false parser) : SteadyBefore stop passing parser where
  settles := steady.settles
  continues front closed := by
    have continued := steady.continues front closed
    generalize parser (stop.short front) = read at continued ⊢
    generalize parser (stop.long front) = read' at continued ⊢
    cases continued with
    | failed => exact .failed
    | within closed => exact .within closed
    | past passes => cases passes

theorem SteadyBefore.bind (first : SteadyBefore stop false parser)
    (second : ∀ value, SteadyBefore stop passing (next value)) : SteadyBefore stop passing (parser >>= next) where
  settles := first.settles.bind fun value => (second value).settles
  continues front closed := by
    have continued := first.continues front closed
    change Continued stop passing ((parser (stop.short front)).bind fun read => next read.1 read.2)
      ((parser (stop.long front)).bind fun read => next read.1 read.2)
    generalize parser (stop.short front) = read at continued ⊢
    generalize parser (stop.long front) = read' at continued ⊢
    cases continued with
    | failed => exact .failed
    | within closed => exact (second _).continues _ closed
    | past passes => cases passes

/-- Behind a parser that may take the group stands one that never fails. -/
theorem SteadyBefore.bindTotal (first : SteadyBefore stop true parser)
    (second : ∀ value, SteadyBefore stop true (next value)) (total : ∀ value, Total (next value)) :
    SteadyBefore stop true (parser >>= next) where
  settles := first.settles.bind fun value => (second value).settles
  continues front closed := by
    have continued := first.continues front closed
    change Continued stop true ((parser (stop.short front)).bind fun read => next read.1 read.2)
      ((parser (stop.long front)).bind fun read => next read.1 read.2)
    generalize parser (stop.short front) = read at continued ⊢
    generalize parser (stop.long front) = read' at continued ⊢
    cases continued with
    | failed => exact .failed
    | within closed => exact (second _).continues _ closed
    | @past value value' left _ =>
        obtain ⟨⟨result, none⟩, found⟩ := Option.ne_none_iff_exists'.mp (total value [])
        obtain ⟨result', found'⟩ := Option.ne_none_iff_exists'.mp (total value' left)
        obtain rfl := (second value).settles.of_nil found
        simp only [Option.bind_some, found, found']
        exact .past rfl

theorem steady_pure (value : α) : SteadyBefore stop passing (pure value : Parser α) where
  settles := settles_pure value
  continues _ closed := .within closed

theorem steady_failure : SteadyBefore stop passing (failure : Parser α) where
  settles := settles_failure
  continues _ _ := .failed

theorem SteadyBefore.thenPure (steady : SteadyBefore stop passing parser) (result : α → β) :
    SteadyBefore stop passing (parser >>= fun value => pure (result value)) where
  settles := steady.settles.bind fun _ => settles_pure _
  continues front closed := by
    have continued := steady.continues front closed
    change Continued stop passing ((parser (stop.short front)).bind _)
      ((parser (stop.long front)).bind _)
    generalize parser (stop.short front) = read at continued ⊢
    generalize parser (stop.long front) = read' at continued ⊢
    cases continued with
    | failed => exact .failed
    | within closed => exact .within closed
    | past passes => exact .past passes

theorem SteadyBefore.skip (steady : SteadyBefore stop passing parser) : SteadyBefore stop passing (skip parser) :=
  steady.thenPure fun _ => ()

theorem SteadyBefore.orElse (first : SteadyBefore stop passing parser) (second : SteadyBefore stop passing other) :
    SteadyBefore stop passing (parser <|> other) where
  settles := first.settles.orElse second.settles
  continues front closed := by
    have continued := first.continues front closed
    change Continued stop passing ((parser (stop.short front)).orElse fun _ => other (stop.short front))
      ((parser (stop.long front)).orElse fun _ => other (stop.long front))
    generalize parser (stop.short front) = read at continued ⊢
    generalize parser (stop.long front) = read' at continued ⊢
    cases continued with
    | failed => exact second.continues front closed
    | within closed => exact .within closed
    | past passes => exact .past passes

theorem SteadyBefore.ite {condition : Prop} [Decidable condition] (first : SteadyBefore stop passing parser)
    (second : SteadyBefore stop passing other) :
    SteadyBefore stop passing (if condition then parser else other) := by
  split
  · exact first
  · exact second

theorem SteadyBefore.maybe (steady : SteadyBefore stop passing parser) : SteadyBefore stop passing (maybe parser) where
  settles := steady.settles.maybe
  continues front closed := by
    have continued := steady.continues front closed
    rw [Parser.maybe, Parser.maybe]
    generalize parser (stop.short front) = read at continued ⊢
    generalize parser (stop.long front) = read' at continued ⊢
    cases continued with
    | failed => exact .within closed
    | within closed => exact .within closed
    | past passes => exact .past passes

/-- What stands behind an optional construct comes to nothing if the construct is there. -/
theorem SteadyBefore.maybeCases {next : Option α → Parser β} (steady : SteadyBefore stop passing parser)
    (found : ∀ value, ∃ result, next (some value) = pure result)
    (missing : SteadyBefore stop passing (next none)) :
    SteadyBefore stop passing (Parser.maybe parser >>= next) where
  settles := steady.settles.maybe.bind fun value => by
    cases value with
    | none => exact missing.settles
    | some value =>
        obtain ⟨result, same⟩ := found value
        rw [same]
        exact settles_pure result
  continues front closed := by
    have continued := steady.continues front closed
    change Continued stop passing ((Parser.maybe parser (stop.short front)).bind fun read => next read.1 read.2)
      ((Parser.maybe parser (stop.long front)).bind fun read => next read.1 read.2)
    rw [Parser.maybe, Parser.maybe]
    generalize parser (stop.short front) = read at continued ⊢
    generalize parser (stop.long front) = read' at continued ⊢
    cases continued with
    | failed => exact missing.continues front closed
    | @within value _ closed =>
        obtain ⟨result, same⟩ := found value
        simp only [Option.bind_some, same]
        exact .within closed
    | @past value value' _ passes =>
        obtain ⟨result, same⟩ := found value
        obtain ⟨result', same'⟩ := found value'
        simp only [Option.bind_some, same, same']
        exact .past passes

/-- Some tree is taken. -/
def Progresses (parser : Parser α) : Prop :=
  ∀ trees value left, parser trees = some (value, left) → left.length < trees.length

/-- Each repetition takes a tree in front of the group, and so both runs have enough repetitions. -/
theorem SteadyBefore.upTo (steady : SteadyBefore stop passing parser) (progresses : Progresses parser)
    {count count' : Nat} {front : List Tree} (closed : AnglesClosed front)
    (enough : front.length < count) (enough' : front.length < count') :
    Continued stop passing (upTo parser count (stop.short front))
      (upTo parser count' (stop.long front)) := by
  induction count generalizing count' front with
  | zero => omega
  | succ count inductionHypothesis =>
      obtain ⟨count', rfl⟩ : ∃ fewer, count' = fewer + 1 := ⟨count' - 1, by omega⟩
      have continued := steady.continues front closed
      generalize read : parser (stop.short front) = result at continued
      generalize read' : parser (stop.long front) = result' at continued
      cases continued with
      | failed =>
          rw [upTo_of_failed read, upTo_of_failed read']
          exact .within closed
      | @within value behind closedBehind =>
          rw [upTo_of_read read, upTo_of_read read']
          have shorter := progresses _ _ _ read
          rw [Stop.length_short, Stop.length_short] at shorter
          have later := @inductionHypothesis count' behind closedBehind (by omega) (by omega)
          change Continued stop passing ((Parser.upTo parser count (stop.short behind)).bind _)
            ((Parser.upTo parser count' (stop.long behind)).bind _)
          generalize Parser.upTo parser count (stop.short behind) = more at later ⊢
          generalize Parser.upTo parser count' (stop.long behind) = more' at later ⊢
          cases later with
          | failed => exact .failed
          | within closed => exact .within closed
          | past passes => exact .past passes
      | past passes =>
          rw [upTo_of_read read, upTo_of_read read']
          obtain ⟨⟨more, none⟩, found⟩ := Option.ne_none_iff_exists'.mp (total_upTo parser count [])
          obtain ⟨⟨more', left⟩, found'⟩ :=
            Option.ne_none_iff_exists'.mp (total_upTo parser count' _)
          obtain rfl := (steady.settles.upTo count).of_nil found
          change Continued stop passing ((Parser.upTo parser count []).bind _)
            ((Parser.upTo parser count' _).bind _)
          rw [found, found']
          exact .past passes

theorem SteadyBefore.many (steady : SteadyBefore stop passing parser) (progresses : Progresses parser) :
    SteadyBefore stop passing (many parser) where
  settles := steady.settles.many
  continues front closed := by
    refine steady.upTo progresses closed ?_ ?_
    · simp
    · simp [Stop.long]

theorem SteadyBefore.withText (steady : SteadyBefore stop passing parser) :
    SteadyBefore stop passing (withText parser) where
  settles := steady.settles.withText
  continues front closed := by
    have continued := steady.continues front closed
    rw [Parser.withText, Parser.withText]
    generalize read : parser (stop.short front) = result at continued
    generalize parser (stop.long front) = result' at continued
    cases continued with
    | failed => exact .failed
    | @within value behind _ =>
        obtain ⟨taken, split, _⟩ := steady.settles _ _ _ read
        obtain rfl : front = taken ++ behind := by
          rw [← stop.short_append] at split
          exact List.append_cancel_right split
        have text : (stop.short (taken ++ behind)).take
              ((stop.short (taken ++ behind)).length - (stop.short behind).length) =
            (stop.long (taken ++ behind)).take
              ((stop.long (taken ++ behind)).length - (stop.long behind).length) := by
          simp [Stop.short_append, Stop.long_append]
        simp only [Option.map_some, text]
        exact .within closed.behind
    | past passes => exact .past passes

/-! ## Looking ahead -/

/-- A condition on lists that does not tell the two groups apart. -/
def Overlooks {γ : Type} (stop : Stop) (condition : List Tree → γ) : Prop :=
  ∀ front, condition (stop.short front) = condition (stop.long front)

theorem overlooks_headIs {condition : Tree → Bool}
    (same : condition stop.here = condition stop.there) : Overlooks stop (headIs condition) := by
  intro front
  cases front with
  | nil => exact same
  | cons _ _ => rfl

theorem overlooks_isMark (c : Char) : Overlooks stop (headIs (Tree.isMark c)) :=
  overlooks_headIs rfl

theorem overlooks_isKind (kind : LexemeKind) : Overlooks stop (headIs (Tree.isKind kind)) :=
  overlooks_headIs rfl

theorem overlooks_isGroup (delimiter : Delimiter) :
    Overlooks stop (headIs (Tree.isGroup delimiter)) :=
  overlooks_headIs rfl

theorem overlooks_isWord (names : List String) : Overlooks stop (headIsWord names) :=
  overlooks_headIs rfl

/-- No symbol starts with a group. -/
theorem startsWithSymbol_group (c : Char) (symbol : List Char) (delimiter : Delimiter)
    (opening closing : Token) (inner rest : List Tree) :
    startsWithSymbol (c :: symbol) (.group delimiter opening inner closing :: rest) = false := by
  exact startsWithSymbol_of_not_isMark rfl _ _

/-- No symbol reaches the group. -/
theorem startsWithSymbol_front {symbol : List Char} {front : List Tree} :
    startsWithSymbol symbol (stop.short front) = startsWithSymbol symbol (stop.long front) ∧
      (startsWithSymbol symbol (stop.short front) = true → symbol.length ≤ front.length) := by
  induction symbol generalizing front with
  | nil => simp [startsWithSymbol_empty]
  | cons c symbol inductionHypothesis =>
      cases front with
      | nil =>
          simp [Stop.here, Stop.there, startsWithSymbol_group]
      | cons tree front =>
          obtain ⟨same, within⟩ := @inductionHypothesis front
          cases symbol with
          | nil => simp
          | cons d symbol =>
              cases front with
              | nil => simp [Stop.here, Stop.there, startsWithSymbol_group]
              | cons next front =>
                  simp only [Stop.short_cons, Stop.long_cons, startsWithSymbol_more] at same within ⊢
                  refine ⟨by rw [same], fun starts => ?_⟩
                  simp only [Bool.and_eq_true] at starts
                  exact Nat.succ_le_succ (within starts.2.2)

theorem overlooks_symbol (symbol : List Char) : Overlooks stop (startsWithSymbol symbol) :=
  fun _ => startsWithSymbol_front.1

theorem steady_ahead {condition : List Tree → Bool} {next : Bool → Parser β}
    (overlooks : Overlooks stop condition) (steady : ∀ answer, SteadyBefore stop passing (next answer)) :
    SteadyBefore stop passing (ahead condition >>= next) where
  settles := settles_ahead fun answer => (steady answer).settles
  continues front closed := by
    have continued := (steady (condition (stop.short front))).continues front closed
    change Continued stop passing (next (condition (stop.short front)) (stop.short front))
      (next (condition (stop.long front)) (stop.long front))
    rwa [← overlooks front]

theorem steady_get {next : Parser β} (steady : SteadyBefore stop passing next) :
    SteadyBefore stop passing (get >>= fun _ => next) where
  settles := settles_get fun trees => steady.settles trees
  continues front closed := steady.continues front closed

theorem steady_get_ite {condition : List Tree → Bool} {next other : List Tree → Parser β}
    (overlooks : Overlooks stop condition) (first : SteadyBefore stop passing (get >>= next))
    (second : SteadyBefore stop passing (get >>= other)) :
    SteadyBefore stop passing
      (get >>= fun trees => if condition trees = true then next trees else other trees) where
  settles := by
    refine settles_get fun trees value left read => ?_
    split at read
    · exact first.settles _ _ _ read
    · exact second.settles _ _ _ read
  continues front closed := by
    change Continued stop passing
      ((if condition (stop.short front) = true then next (stop.short front) else other (stop.short front))
        (stop.short front))
      ((if condition (stop.long front) = true then next (stop.long front) else other (stop.long front))
        (stop.long front))
    rw [← overlooks front]
    split
    · exact first.continues front closed
    · exact second.continues front closed

/-! ## Single trees -/

theorem continues_token (condition : Tree → Bool) {front : List Tree} (closed : AnglesClosed front) :
    Continued stop passing (token condition (stop.short front)) (token condition (stop.long front)) := by
  cases front with
  | nil => exact .failed
  | cons tree front =>
      cases tree with
      | group _ _ _ _ => exact .failed
      | leaf found =>
          rw [Stop.short_cons, Stop.long_cons, token, token]
          split
          · exact .within closed.tail
          · exact .failed

theorem steady_token {condition : Tree → Bool}
    (quiet : ∀ tree, condition tree = true → tree.isQuiet = true) :
    SteadyBefore stop passing (token condition) where
  settles := settles_token quiet
  continues _ := continues_token condition

theorem isQuiet_of_kind {tree : Tree} {kind : LexemeKind} (is : tree.isKind kind = true)
    (unmarked : ∀ c, kind ≠ .mark c) : tree.isQuiet = true := by
  cases tree with
  | group _ _ _ _ => cases is
  | leaf token =>
      have kinds : token.kind = kind := by simpa [Tree.isKind] using is
      have differ (c : Char) : token.kind ≠ .mark c := kinds ▸ unmarked c
      simp [Tree.isQuiet, Tree.isMark, differ]

theorem isQuiet_of_isWord {tree : Tree} {name : String} (is : tree.isWord name = true) :
    tree.isQuiet = true := by
  refine @isQuiet_of_kind tree .word ?_ fun _ => by simp
  cases tree with
  | group _ _ _ _ => cases is
  | leaf token =>
      rw [Tree.isWord, Bool.and_eq_true] at is
      exact is.1

theorem isQuiet_of_isMark {tree : Tree} {c : Char} (is : tree.isMark c = true)
    (quiet : c ∉ ['<', '>', ';', '-']) : tree.isQuiet = true := by
  have others (d : Char) (listed : d ∈ ['<', '>', ';', '-']) : tree.isMark d = false :=
    Tree.isMark_other is fun same => quiet (same ▸ listed)
  simp [Tree.isQuiet, others]

theorem settled_of_quiet {trees : List Tree} (quiet : ∀ tree ∈ trees, tree.isQuiet = true) :
    Settled trees := by
  induction trees with
  | nil => exact .nil
  | cons tree trees inductionHypothesis =>
      obtain ⟨first, others⟩ := List.forall_mem_cons.mp quiet
      exact (settled_quiet first).append (inductionHypothesis others)

theorem steady_skipWhile {condition : Tree → Bool}
    (quiet : ∀ tree, condition tree = true → tree.isQuiet = true)
    (plain : condition stop.here = false ∧ condition stop.there = false) :
    SteadyBefore stop passing (skipWhile condition) where
  settles trees value left read := by
    obtain ⟨rfl, rfl⟩ := Prod.mk.inj (Option.some.inj read)
    refine ⟨trees.takeWhile condition, List.takeWhile_append_dropWhile.symm, settled_of_quiet ?_⟩
    exact fun tree listed => quiet tree (List.all_eq_true.mp List.all_takeWhile tree listed)
  continues front closed := by
    rw [skipWhile, skipWhile]
    induction front with
    | nil =>
        simp only [Stop.short_nil, Stop.long_nil, List.dropWhile_cons, plain.1, plain.2]
        exact @Continued.within _ stop passing _ [] closed
    | cons tree front inductionHypothesis =>
        rw [Stop.short_cons, Stop.long_cons, List.dropWhile_cons, List.dropWhile_cons]
        split
        · exact inductionHypothesis closed.tail
        · exact @Continued.within _ stop passing _ (tree :: front) closed

theorem steady_word (name : String) : SteadyBefore stop passing (word name) :=
  steady_token fun _ => isQuiet_of_isWord

theorem steady_mark {c : Char} (quiet : c ∉ ['<', '>', ';', '-']) : SteadyBefore stop passing (mark c) :=
  steady_token fun _ is => isQuiet_of_isMark is quiet

theorem steady_lifetime : SteadyBefore stop passing lifetime :=
  steady_token fun _ is => isQuiet_of_kind is fun _ => by simp

theorem steady_literal : SteadyBefore stop passing literal :=
  steady_token fun _ is => isQuiet_of_kind is fun _ => by simp

theorem steady_anyWord : SteadyBefore stop passing anyWord :=
  steady_token fun _ is => isQuiet_of_kind is fun _ => by simp

theorem isQuiet_of_isSegment {tree : Tree} (is : tree.isSegment = true) : tree.isQuiet = true := by
  rw [Tree.isSegment, Bool.and_eq_true] at is
  exact isQuiet_of_kind is.1 fun _ => by simp

theorem steady_segment : SteadyBefore stop passing segment :=
  steady_token fun _ => isQuiet_of_isSegment

theorem steady_name : SteadyBefore stop passing name :=
  steady_token fun _ is => isQuiet_of_isSegment (Bool.and_eq_true_iff.mp is).1

end SteadyBefore

end Parser

end ProgramIdl.Syntax
