import ProgramIdl.Syntax.Grammar.Item

/-!
# Trees that are alike

The grammar looks at the kinds of tokens, at the words that it knows, and at whether punctuation marks
stand together.  Two lists of trees are alike if they agree in that and in the texts of all tokens but
words; what stands between the tokens, and where the tokens stand, is left to a `Likeness`.

Lists that are read side by side are written as pairs of trees and two tails that nothing reads into:
both tails are empty, or both start with a semicolon.
-/

set_option autoImplicit false

namespace ProgramIdl.Syntax

/-- The words that the grammar looks for. -/
def keywords : List String :=
  reservedWords ++
    ["Self", "_", "auto", "crate", "default", "gen", "macro", "macro_rules", "raw", "safe", "self",
      "super", "try", "union"]

/-- Which tokens are taken to be alike, and which places.  The flag says that something stands in
front of the tokens in a text that is kept. -/
structure Likeness where
  token : Bool → Token → Token → Prop
  start : Nat → Nat → Prop
  stop : Nat → Nat → Prop
  first {inner : Bool} {a b : Token} : token inner a b → token false a b
  kind {inner : Bool} {a b : Token} : token inner a b → a.kind = b.kind
  text {inner : Bool} {a b : Token} : token inner a b → a.kind ≠ .word → a.text = b.text
  word {inner : Bool} {a b : Token} :
    token inner a b → ∀ name ∈ keywords, a.text = name.toList ↔ b.text = name.toList
  mark {inner : Bool} {a b : Token} {c : Char} : token inner a b → a.kind = .mark c → a.text = [c]
  starts {inner : Bool} {a b : Token} : token inner a b → start a.start b.start
  stops {inner : Bool} {a b : Token} : token inner a b → stop a.stop b.stop

/-- Whether two marks belong to one operator if they stand together. -/
def joinedMarks (c d : Char) : Bool :=
  (c = d && c ∈ [':', '.', '&', '|', '<', '>', '=']) || (d = '>' && c ∈ ['-', '=']) ||
    (d = '=' && c ∈ ['!', '<', '>', '+', '-', '*', '/', '%', '^', '&', '|', '.'])

/-- Whether the marks of a symbol belong together one after the other; none is a semicolon. -/
def isOperator : List Char → Bool
  | [] => true
  | c :: rest => c ≠ ';' && rest.head?.all (joinedMarks c) && isOperator rest

/-- Whether two tokens are marks that belong to one operator if they stand together. -/
def Token.joins (token next : Token) : Bool :=
  match token.kind, next.kind with
  | .mark c, .mark d => joinedMarks c d
  | _, _ => false

/-- Whether two trees are marks that belong to one operator if they stand together. -/
def Tree.joins : Tree → Tree → Bool
  | .leaf token, .leaf next => token.joins next
  | _, _ => false

mutual

/-- Trees with like tokens. -/
inductive Tree.Alike (like : Likeness) : Bool → Tree → Tree → Prop where
  | leaf {inner : Bool} {a b : Token} (tokens : like.token inner a b) :
      Tree.Alike like inner (.leaf a) (.leaf b)
  | group {inner : Bool} {delimiter : Delimiter} {opening opening' closing closing' : Token}
      {pairs : List (Tree × Tree)} (openings : like.token inner opening opening')
      (openingKind : opening.kind = .opening delimiter) (inside : AllAlike like true pairs)
      (closings : like.token true closing closing') (closingKind : closing.kind = .closing delimiter) :
      Tree.Alike like inner (.group delimiter opening (pairs.map Prod.fst) closing)
        (.group delimiter opening' (pairs.map Prod.snd) closing')

/-- Pairs of like trees; the marks of an operator stand together on both sides or on neither. -/
inductive AllAlike (like : Likeness) : Bool → List (Tree × Tree) → Prop where
  | nil {inner : Bool} : AllAlike like inner []
  | cons {inner : Bool} {tree tree' : Tree} {rest : List (Tree × Tree)}
      (trees : Tree.Alike like inner tree tree')
      (joint : ∀ next ∈ rest.head?, tree.joins next.1 = true →
        next.1.first.isJoint = next.2.first.isJoint)
      (behind : AllAlike like true rest) : AllAlike like inner ((tree, tree') :: rest)

end

/-- Where the reading of two lists ends. -/
inductive Ends (opened : Bool) : List Tree → List Tree → Prop where
  | nil : Ends opened [] []
  | semicolon {token token' : Token} {rest rest' : List Tree} (allowed : opened = true)
      (kind : token.kind = .mark ';') (kind' : token'.kind = .mark ';') :
      Ends opened (.leaf token :: rest) (.leaf token' :: rest')

/-- The first of two lists that are read side by side. -/
def lefts (pairs : List (Tree × Tree)) (tail : List Tree) : List Tree :=
  pairs.map Prod.fst ++ tail

/-- The second of two lists that are read side by side. -/
def rights (pairs : List (Tree × Tree)) (tail : List Tree) : List Tree :=
  pairs.map Prod.snd ++ tail

@[simp] theorem lefts_nil (tail : List Tree) : lefts [] tail = tail := rfl

@[simp] theorem rights_nil (tail : List Tree) : rights [] tail = tail := rfl

@[simp] theorem lefts_cons (pair : Tree × Tree) (pairs : List (Tree × Tree)) (tail : List Tree) :
    lefts (pair :: pairs) tail = pair.1 :: lefts pairs tail := rfl

@[simp] theorem rights_cons (pair : Tree × Tree) (pairs : List (Tree × Tree)) (tail : List Tree) :
    rights (pair :: pairs) tail = pair.2 :: rights pairs tail := rfl

@[simp] theorem length_lefts (pairs : List (Tree × Tree)) (tail : List Tree) :
    (lefts pairs tail).length = pairs.length + tail.length := by
  simp [lefts]

@[simp] theorem length_rights (pairs : List (Tree × Tree)) (tail : List Tree) :
    (rights pairs tail).length = pairs.length + tail.length := by
  simp [rights]

theorem drop_lefts {pairs : List (Tree × Tree)} {count : Nat} (within : count ≤ pairs.length)
    (tail : List Tree) : (lefts pairs tail).drop count = lefts (pairs.drop count) tail := by
  rw [lefts, List.drop_append_of_le_length (by simpa using within), ← List.map_drop, ← lefts]

theorem drop_rights {pairs : List (Tree × Tree)} {count : Nat} (within : count ≤ pairs.length)
    (tail : List Tree) : (rights pairs tail).drop count = rights (pairs.drop count) tail := by
  rw [rights, List.drop_append_of_le_length (by simpa using within), ← List.map_drop, ← rights]

theorem take_lefts {pairs : List (Tree × Tree)} {count : Nat} (within : count ≤ pairs.length)
    (tail : List Tree) :
    (lefts pairs tail).take ((lefts pairs tail).length - (lefts (pairs.drop count) tail).length) =
      (pairs.take count).map Prod.fst := by
  have taken : (lefts pairs tail).length - (lefts (pairs.drop count) tail).length = count := by
    rw [length_lefts, length_lefts, List.length_drop]
    omega
  rw [taken, lefts, List.take_append_of_le_length (by simpa using within), List.map_take]

theorem take_rights {pairs : List (Tree × Tree)} {count : Nat} (within : count ≤ pairs.length)
    (tail : List Tree) :
    (rights pairs tail).take
        ((rights pairs tail).length - (rights (pairs.drop count) tail).length) =
      (pairs.take count).map Prod.snd := by
  have taken : (rights pairs tail).length - (rights (pairs.drop count) tail).length = count := by
    rw [length_rights, length_rights, List.length_drop]
    omega
  rw [taken, rights, List.take_append_of_le_length (by simpa using within), List.map_take]

section Alike

variable {like : Likeness} {inner opened : Bool} {tree tree' : Tree}
  {pairs : List (Tree × Tree)} {tail tail' : List Tree}

theorem Tree.Alike.first (alike : Tree.Alike like inner tree tree') :
    Tree.Alike like false tree tree' := by
  cases alike with
  | leaf tokens => exact .leaf (like.first tokens)
  | group openings openingKind inside closings closingKind =>
      exact .group (like.first openings) openingKind inside closings closingKind

theorem Tree.Alike.first_token (alike : Tree.Alike like inner tree tree') :
    like.token inner tree.first tree'.first := by
  cases alike with
  | leaf tokens => exact tokens
  | group openings _ _ _ _ => exact openings

theorem AllAlike.first (alike : AllAlike like inner pairs) : AllAlike like false pairs := by
  cases alike with
  | nil => exact .nil
  | cons trees joint behind => exact .cons trees.first joint behind

theorem AllAlike.drop (alike : AllAlike like false pairs) (count : Nat) :
    AllAlike like false (pairs.drop count) := by
  induction count generalizing pairs with
  | zero => exact alike
  | succ count inductionHypothesis =>
      cases alike with
      | nil => exact .nil
      | cons trees joint behind => exact inductionHypothesis behind.first

theorem AllAlike.take (alike : AllAlike like inner pairs) (count : Nat) :
    AllAlike like inner (pairs.take count) := by
  induction count generalizing pairs inner with
  | zero => exact .nil
  | succ count inductionHypothesis =>
      cases alike with
      | nil => exact .nil
      | cons trees joint behind =>
          refine .cons trees (fun next listed => joint next ?_) (inductionHypothesis behind)
          cases count with
          | zero => cases listed
          | succ count => simpa [List.head?_take] using listed

end Alike

mutual

/-- Like trees have equally many tokens. -/
theorem Tree.Alike.length_tokens {like : Likeness} {inner : Bool} {tree tree' : Tree} :
    Tree.Alike like inner tree tree' → tree.tokens.length = tree'.tokens.length
  | .leaf _ => rfl
  | .group _ _ inside _ _ => by
      simp only [Tree.tokens, List.length_append, List.length_cons, inside.length_tokens]

theorem AllAlike.length_tokens {like : Likeness} {inner : Bool} {pairs : List (Tree × Tree)} :
    AllAlike like inner pairs →
      (Tree.allTokens (pairs.map Prod.fst)).length = (Tree.allTokens (pairs.map Prod.snd)).length
  | .nil => rfl
  | .cons trees _ behind => by
      simp only [List.map_cons, Tree.allTokens, List.length_append, trees.length_tokens,
        behind.length_tokens]

end

/-! ## Texts that are kept -/

/-- The source texts of like trees. -/
def TextAlike (like : Likeness) (text text' : String) : Prop :=
  ∃ pairs, AllAlike like false pairs ∧ text = sourceText (pairs.map Prod.fst) ∧
    text' = sourceText (pairs.map Prod.snd)

/-- The names of like tokens. -/
def NameAlike (like : Likeness) (name name' : String) : Prop :=
  ∃ token token', like.token false token token' ∧ name = token.name ∧ name' = token'.name

/-! ## How much is left to read -/

/-- The number of tokens in the first of two lists that are read side by side, tail aside. -/
def weight (pairs : List (Tree × Tree)) : Nat :=
  (Tree.allTokens (pairs.map Prod.fst)).length

theorem Tree.tokens_ne_nil (tree : Tree) : tree.tokens ≠ [] := by
  cases tree <;> simp [Tree.tokens]

@[simp] theorem weight_nil : weight [] = 0 := rfl

theorem weight_cons (pair : Tree × Tree) (pairs : List (Tree × Tree)) :
    weight (pair :: pairs) = pair.1.tokens.length + weight pairs := by
  simp [weight, Tree.allTokens]

theorem weight_lt_cons (pair : Tree × Tree) (pairs : List (Tree × Tree)) :
    weight pairs < weight (pair :: pairs) := by
  have some_ := List.length_pos_iff.mpr pair.1.tokens_ne_nil
  rw [weight_cons]
  omega

theorem weight_drop_le (pairs : List (Tree × Tree)) (count : Nat) :
    weight (pairs.drop count) ≤ weight pairs := by
  induction count generalizing pairs with
  | zero => exact Nat.le_refl _
  | succ count inductionHypothesis =>
      cases pairs with
      | nil => exact Nat.le_refl _
      | cons pair pairs =>
          have less := weight_lt_cons pair pairs
          have here := inductionHypothesis pairs
          rw [List.drop_succ_cons]
          omega

theorem weight_drop_lt {pairs : List (Tree × Tree)} {count : Nat} (some_ : 1 ≤ count)
    (within : count ≤ pairs.length) : weight (pairs.drop count) < weight pairs := by
  cases pairs with
  | nil =>
      rw [List.length_nil] at within
      omega
  | cons pair pairs =>
      obtain ⟨count, rfl⟩ : ∃ more, count = more + 1 := ⟨count - 1, by omega⟩
      have less := weight_lt_cons pair pairs
      have here := weight_drop_le pairs count
      rw [List.drop_succ_cons]
      omega

/-! ## Conditions on one tree -/

/-- A condition that like trees satisfy together, and that no semicolon satisfies where reading may
end in front of one. -/
structure Respects (like : Likeness) (opened : Bool) (condition : Tree → Bool) : Prop where
  same {inner : Bool} {tree tree' : Tree} :
    Tree.Alike like inner tree tree' → condition tree = condition tree'
  final : opened = true → ∀ token : Token, token.kind = .mark ';' → condition (.leaf token) = false

section Respects

variable {like : Likeness} {opened : Bool} {condition other : Tree → Bool}

theorem respects_isMark {c : Char} (kept : opened = true → c ≠ ';') :
    Respects like opened (Tree.isMark c) where
  same alike := by
    cases alike with
    | leaf tokens => rw [Tree.isMark, Tree.isMark, like.kind tokens]
    | group _ _ _ _ _ => rfl
  final allowed token kind := by
    have different := kept allowed
    simpa [Tree.isMark, kind] using Ne.symm different

theorem respects_isWord {name : String} (known : name ∈ keywords) :
    Respects like opened (Tree.isWord name) where
  same alike := by
    cases alike with
    | leaf tokens =>
        have same := like.word tokens name known
        rw [Tree.isWord, Tree.isWord, like.kind tokens]
        simp [same]
    | group _ _ _ _ _ => rfl
  final _ token kind := by simp [Tree.isWord, kind]

theorem respects_any {α : Type} {test : α → Tree → Bool} {values : List α}
    (each : ∀ value ∈ values, Respects like opened (test value)) :
    Respects like opened (fun tree => values.any fun value => test value tree) where
  same alike := by
    rw [Bool.eq_iff_iff, List.any_eq_true, List.any_eq_true]
    refine exists_congr fun value => and_congr_right fun listed => ?_
    rw [(each value listed).same alike]
  final allowed token kind := by
    rw [List.any_eq_false]
    intro value listed
    rw [(each value listed).final allowed token kind]
    exact Bool.false_ne_true

theorem respects_anyWord {names : List String} (known : ∀ name ∈ names, name ∈ keywords) :
    Respects like opened (fun tree => names.any tree.isWord) :=
  respects_any fun name listed => respects_isWord (known name listed)

theorem respects_anyMark {marks : List Char} (kept : ∀ c ∈ marks, c ≠ ';') :
    Respects like opened (fun tree => marks.any tree.isMark) :=
  respects_any fun c listed => respects_isMark fun _ => kept c listed

theorem respects_isKind {kind : LexemeKind} (kept : opened = true → kind ≠ .mark ';') :
    Respects like opened (Tree.isKind kind) where
  same alike := by
    cases alike with
    | leaf tokens => rw [Tree.isKind, Tree.isKind, like.kind tokens]
    | group _ _ _ _ _ => rfl
  final allowed token is := by
    have different := kept allowed
    simpa [Tree.isKind, is] using Ne.symm different

theorem respects_isGroup (delimiter : Delimiter) :
    Respects like opened (Tree.isGroup delimiter) where
  same alike := by
    cases alike with
    | leaf _ => rfl
    | group _ _ _ _ _ => rfl
  final _ _ _ := rfl

theorem Respects.or (first : Respects like opened condition)
    (second : Respects like opened other) :
    Respects like opened (fun tree => condition tree || other tree) where
  same alike := by rw [first.same alike, second.same alike]
  final allowed token kind := by rw [first.final allowed token kind, second.final allowed token kind]; rfl

theorem Respects.and (first : Respects like opened condition)
    (second : Respects like false other) :
    Respects like opened (fun tree => condition tree && other tree) where
  same alike := by rw [first.same alike, second.same alike]
  final allowed token kind := by rw [first.final allowed token kind]; rfl

theorem Respects.not (first : Respects like false condition) :
    Respects like false (fun tree => !condition tree) where
  same alike := by rw [first.same alike]
  final allowed := nomatch allowed

theorem Respects.closed (first : Respects like opened condition) :
    Respects like false condition where
  same := first.same
  final allowed := nomatch allowed

theorem respects_isSegment : Respects like opened Tree.isSegment := by
  have words : ∀ name ∈ reservedWords, name ∈ keywords := fun name listed =>
    List.mem_append_left _ listed
  have kind : Respects like opened (Tree.isKind .word) := respects_isKind fun _ => nofun
  exact kind.and (respects_anyWord words).not

end Respects

/-! ## Conditions on lists -/

section Lists

variable {like : Likeness} {opened : Bool} {condition : Tree → Bool}
  {pairs : List (Tree × Tree)} {tail tail' : List Tree}

theorem Respects.headIs (respects : Respects like opened condition) (ends : Ends opened tail tail')
    (alike : AllAlike like false pairs) :
    headIs condition (lefts pairs tail) = headIs condition (rights pairs tail') := by
  cases alike with
  | nil =>
      cases ends with
      | nil => rfl
      | semicolon allowed kind kind' =>
          change condition _ = condition _
          rw [respects.final allowed _ kind, respects.final allowed _ kind']
  | cons trees _ _ => exact respects.same trees

@[simp] theorem startsWithSymbol_single (c : Char) (tree : Tree) (rest : List Tree) :
    startsWithSymbol [c] (tree :: rest) = tree.isMark c :=
  Bool.and_true _

@[simp] theorem startsWithSymbol_last (c d : Char) (symbol : List Char) (tree : Tree) :
    startsWithSymbol (c :: d :: symbol) [tree] = false :=
  Bool.and_false _

@[simp] theorem startsWithSymbol_more (c d : Char) (symbol : List Char) (tree next : Tree)
    (rest : List Tree) :
    startsWithSymbol (c :: d :: symbol) (tree :: next :: rest) =
      (tree.isMark c && (next.first.isJoint && startsWithSymbol (d :: symbol) (next :: rest))) :=
  rfl

theorem startsWithSymbol_empty (trees : List Tree) : startsWithSymbol [] trees = true := rfl

theorem startsWithSymbol_of_not_isMark {c : Char} {tree : Tree} (other : tree.isMark c = false)
    (symbol : List Char) (rest : List Tree) :
    startsWithSymbol (c :: symbol) (tree :: rest) = false := by
  cases symbol with
  | nil => rw [startsWithSymbol_single, other]
  | cons d symbol =>
      cases rest with
      | nil => rw [startsWithSymbol_last]
      | cons next rest => rw [startsWithSymbol_more, other, Bool.false_and]

theorem isOperator_cons {c : Char} {symbol : List Char} :
    isOperator (c :: symbol) = true ↔
      c ≠ ';' ∧ symbol.head?.all (joinedMarks c) = true ∧ isOperator symbol = true := by
  simp [isOperator, and_assoc]

/-- No operator starts where reading ends. -/
theorem startsWithSymbol_tail {c : Char} {symbol : List Char}
    (operator : isOperator (c :: symbol) = true) (ends : Ends opened tail tail') :
    startsWithSymbol (c :: symbol) tail = false ∧ startsWithSymbol (c :: symbol) tail' = false := by
  cases ends with
  | nil => exact ⟨rfl, rfl⟩
  | semicolon allowed kind kind' =>
      have different : ';' ≠ c := Ne.symm (isOperator_cons.mp operator).1
      constructor <;>
        exact startsWithSymbol_of_not_isMark (by simp [Tree.isMark, kind, kind', different]) _ _

theorem Tree.joins_of_isMark {c d : Char} {tree next : Tree} (mark : tree.isMark c = true)
    (nextMark : next.isMark d = true) : tree.joins next = joinedMarks c d := by
  cases tree with
  | group _ _ _ _ => cases mark
  | leaf token =>
      cases next with
      | group _ _ _ _ => cases nextMark
      | leaf other =>
          have kind : token.kind = .mark c := by simpa [Tree.isMark] using mark
          have nextKind : other.kind = .mark d := by simpa [Tree.isMark] using nextMark
          rw [Tree.joins, Token.joins, kind, nextKind]

theorem isMark_of_startsWithSymbol {c : Char} {symbol : List Char} {tree : Tree} {rest : List Tree}
    (starts : startsWithSymbol (c :: symbol) (tree :: rest) = true) : tree.isMark c = true := by
  rw [← Bool.not_eq_false]
  intro other
  rw [startsWithSymbol_of_not_isMark other] at starts
  cases starts

theorem startsWithSymbol_alike {symbol : List Char} (operator : isOperator symbol = true)
    (ends : Ends opened tail tail') (alike : AllAlike like false pairs) :
    startsWithSymbol symbol (lefts pairs tail) = startsWithSymbol symbol (rights pairs tail') := by
  induction symbol generalizing pairs with
  | nil => rfl
  | cons c symbol inductionHypothesis =>
      obtain ⟨_, joined, rest⟩ := isOperator_cons.mp operator
      cases alike with
      | nil =>
          obtain ⟨first, second⟩ := startsWithSymbol_tail operator ends
          exact first.trans second.symm
      | cons trees joint behind =>
          have marks := (@respects_isMark like false c nofun).same trees
          have later := inductionHypothesis rest behind.first
          rename_i tree tree' others
          cases symbol with
          | nil => simp [marks]
          | cons d symbol =>
              cases others with
              | cons next others =>
                  rw [lefts_cons, rights_cons] at later ⊢
                  rw [lefts_cons, rights_cons, startsWithSymbol_more, startsWithSymbol_more, ← later,
                    ← marks]
                  cases mark : tree.isMark c with
                  | false => rfl
                  | true =>
                      cases starts : startsWithSymbol (d :: symbol) (next.1 :: lefts others tail) with
                      | false => simp
                      | true =>
                          have nextMark := isMark_of_startsWithSymbol starts
                          rw [joint next rfl ((Tree.joins_of_isMark mark nextMark).trans joined)]
              | nil =>
                  obtain ⟨first, second⟩ := startsWithSymbol_tail rest ends
                  cases tail <;> cases tail' <;> simp_all

/-- Nothing of the tails belongs to an operator. -/
theorem length_le_of_startsWithSymbol {symbol : List Char} (operator : isOperator symbol = true)
    (ends : Ends opened tail tail')
    (starts : startsWithSymbol symbol (lefts pairs tail) = true) : symbol.length ≤ pairs.length := by
  induction symbol generalizing pairs with
  | nil => exact Nat.zero_le _
  | cons c symbol inductionHypothesis =>
      obtain ⟨_, _, operatorRest⟩ := isOperator_cons.mp operator
      cases pairs with
      | nil =>
          rw [lefts_nil, (startsWithSymbol_tail operator ends).1] at starts
          cases starts
      | cons pair pairs =>
          have later : startsWithSymbol symbol (lefts pairs tail) = true := by
            cases symbol with
            | nil => exact startsWithSymbol_empty _
            | cons d symbol =>
                rw [lefts_cons] at starts
                cases found : lefts pairs tail with
                | nil => simp [found] at starts
                | cons next rest => simp_all
          have rest := inductionHypothesis operatorRest later
          simp only [List.length_cons]
          omega

end Lists

end ProgramIdl.Syntax
