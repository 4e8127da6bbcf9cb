import ProgramIdl.Declaration.Body
import ProgramIdl.Proofs.Text.Trim

/-!
# Elements of seed arrays

The reader of arrays counts brackets, and the reader of segments follows strings as well.  A text that
means nothing to either is steady: where it stands in an array, it belongs to one element as a whole
(`seedElements?_of_steady`).
-/

set_option autoImplicit false

namespace ProgramIdl

open ProgramIdl.Text

/-! ## Steady texts -/

theorem untilClosed_opening (depth : Nat) (rest : List Char) :
    untilClosed depth ('[' :: rest) = (untilClosed (depth + 1) rest).map ('[' :: ·) := by
  cases depth <;> rfl

theorem untilClosed_closing (depth : Nat) (rest : List Char) :
    untilClosed (depth + 1) (']' :: rest) = (untilClosed depth rest).map (']' :: ·) := rfl

theorem untilClosed_other {c : Char} (opens : c ≠ '[') (closes : c ≠ ']') (depth : Nat)
    (rest : List Char) : untilClosed depth (c :: rest) = (untilClosed depth rest).map (c :: ·) := by
  cases depth <;> simp [untilClosed, opens, closes]

/-- A text that no reader of arrays stops in, and behind which it reads on as before. -/
structure Steady (text : List Char) : Prop where
  closes : ∀ depth rest, untilClosed depth (text ++ rest) =
    (untilClosed depth rest).map (text ++ ·)
  separates : ∀ rest, rawSegments [','] {} (text ++ rest) =
    text.foldr growFirst (rawSegments [','] {} rest)

theorem foldr_growFirst (text segment : List Char) (segments : List (List Char)) :
    text.foldr growFirst (segment :: segments) = (text ++ segment) :: segments := by
  induction text with
  | nil => rfl
  | cons c rest inductionHypothesis => rw [List.foldr_cons, inductionHypothesis, growFirst,
      List.cons_append]

theorem Steady.nil : Steady [] :=
  ⟨fun _ _ => by simp, fun _ => rfl⟩

theorem Steady.append {first second : List Char} (one : Steady first) (other : Steady second) :
    Steady (first ++ second) := by
  constructor
  · intro depth rest
    rw [List.append_assoc, one.closes, other.closes, Option.map_map]
    congr 1
    funext inner
    simp
  · intro rest
    rw [List.append_assoc, one.separates, other.separates, List.foldr_append]

/-! ## Plain characters -/

/-- A character that is no bracket, quote or comma. -/
def isPlain (c : Char) : Bool :=
  !isNestingMark c && c ≠ ','

theorem Nesting.step_of_plain {c : Char} (plain : isPlain c = true) : Nesting.step {} c = {} := by
  simp only [isPlain, isNestingMark, Bool.and_eq_true, Bool.not_eq_true', decide_eq_false_iff_not,
    List.mem_cons, not_or] at plain
  simp [Nesting.step, plain.1]

theorem steady_of_plain {text : List Char} (plain : ∀ c ∈ text, isPlain c = true) :
    Steady text := by
  induction text with
  | nil => exact Steady.nil
  | cons c rest inductionHypothesis =>
      have here := plain c List.mem_cons_self
      have step := Nesting.step_of_plain here
      simp only [isPlain, isNestingMark, Bool.and_eq_true, Bool.not_eq_true',
        decide_eq_false_iff_not, decide_eq_true_eq, List.mem_cons, not_or] at here
      have alone : Steady [c] := by
        constructor
        · intro depth behind
          exact untilClosed_other here.1.2.2.1 here.1.2.2.2.2.2.1 depth behind
        · intro behind
          have passed : Nesting.separates {} [','] c = false := by
            simp [Nesting.separates, eq_comm, here.2]
          rw [List.singleton_append, rawSegments, passed, step]
          rfl
      exact alone.append (inductionHypothesis fun c member => plain c (List.mem_cons_of_mem _ member))

/-- An empty pair of parentheses, as in a conversion. -/
theorem steady_parentheses : Steady ['(', ')'] := by
  constructor
  · intro depth rest
    have opening : '(' ≠ '[' ∧ '(' ≠ ']' := by decide
    have closing : ')' ≠ '[' ∧ ')' ≠ ']' := by decide
    rw [List.cons_append, List.singleton_append, untilClosed_other opening.1 opening.2,
      untilClosed_other closing.1 closing.2, Option.map_map]
    rfl
  · intro rest
    rfl

/-- The characters that mean something to a reader of arrays. -/
def arrayMarks : List Char :=
  ['"', '(', '[', '\x7b', ')', ']', '\x7d', ',']

theorem isPlain_of_kind {kind : Char → Bool} (others : ∀ mark ∈ arrayMarks, kind mark = false)
    {c : Char} (isKind : kind c = true) : isPlain c = true := by
  by_contra mark
  have listed : c ∈ arrayMarks := by
    simp only [isPlain, isNestingMark, Bool.and_eq_true, Bool.not_eq_true', decide_eq_true_eq,
      decide_eq_false_iff_not, List.mem_cons, List.not_mem_nil, or_false] at mark
    simp only [arrayMarks, List.mem_cons, List.not_mem_nil, or_false]
    tauto
  rw [others c listed] at isKind
  cases isKind

theorem isPlain_of_isBlank {c : Char} (blank : isBlank c = true) : isPlain c = true :=
  isPlain_of_kind (forall_mem_of_all (by decide)) blank

theorem isPlain_of_isWordChar {c : Char} (letter : isWordChar c = true) : isPlain c = true :=
  isPlain_of_kind (forall_mem_of_all (by decide)) letter

/-! ## Closing brackets -/

/-- An array is closed if as many brackets close in its text as open, and its own. -/
theorem untilClosed_isSome {text : List Char} {depth : Nat}
    (closing : text.count '[' + depth < text.count ']') : (untilClosed depth text).isSome := by
  induction text generalizing depth with
  | nil => simp at closing
  | cons c rest inductionHypothesis =>
      by_cases opens : c = '['
      · subst opens
        simp only [List.count_cons_self, List.count_cons_of_ne (show '[' ≠ ']' by decide)] at closing
        rw [untilClosed_opening, Option.isSome_map]
        exact inductionHypothesis (by omega)
      · rw [List.count_cons_of_ne opens] at closing
        by_cases closes : c = ']'
        · subst closes
          rw [List.count_cons_self] at closing
          cases depth with
          | zero => rfl
          | succ depth =>
              rw [untilClosed_closing, Option.isSome_map]
              exact inductionHypothesis (by omega)
        · rw [List.count_cons_of_ne closes] at closing
          rw [untilClosed_other opens closes, Option.isSome_map]
          exact inductionHypothesis closing

/-! ## Arrays of elements -/

theorem rawSegments_separator (rest : List Char) :
    rawSegments [','] {} (',' :: rest) = [] :: rawSegments [','] {} rest := by
  have separates : Nesting.separates {} [','] ',' = true := rfl
  rw [rawSegments, if_pos separates]

/-- A text before the first bracket. -/
theorem seedElements?_append {front rest : List Char} (outside : '[' ∉ front) :
    seedElements? (.ofList (front ++ '[' :: rest)) =
      (untilClosed 0 rest).map fun inner =>
        ((topLevelSegments [','] inner).filter fun element => !opensArray element).map
          .ofList := by
  have opened : (front ++ '[' :: rest).dropWhile (· ≠ '[') = '[' :: rest := by
    rw [List.dropWhile_append_of_pos, List.dropWhile_cons_of_neg (by simp)]
    intro c member
    simpa using fun (same : c = '[') => outside (same ▸ member)
  rw [seedElements?, String.toList_ofList, opened]

/-- A steady text at the front of an array is its first element. -/
theorem exists_seedElements {front first rest : List Char} (outside : '[' ∉ front)
    (steady : Steady first) (nonempty : trim first ≠ [])
    (seed : opensArray (trim first) = false)
    (ended : ∃ c behind, rest = c :: behind ∧ (c = ',' ∨ c = ']'))
    (closed : (untilClosed 0 (first ++ rest)).isSome) :
    ∃ others, seedElements? (.ofList (front ++ '[' :: (first ++ rest))) =
      some (.ofList (trim first) :: others) := by
  rw [seedElements?_append outside]
  rw [steady.closes, Option.isSome_map] at closed
  rw [steady.closes]
  obtain ⟨inner, found⟩ := Option.isSome_iff_exists.mp closed
  have segments : ∃ others, rawSegments [','] {} (first ++ inner) = first :: others := by
    rw [steady.separates]
    obtain ⟨c, behind, rfl, separator | closing⟩ := ended
    · subst separator
      rw [untilClosed_other (by decide) (by decide), Option.map_eq_some_iff] at found
      obtain ⟨later, _, rfl⟩ := found
      rw [rawSegments_separator, foldr_growFirst, List.append_nil]
      exact ⟨_, rfl⟩
    · subst closing
      obtain rfl := Option.some.inj found
      rw [rawSegments, foldr_growFirst, List.append_nil]
      exact ⟨_, rfl⟩
  obtain ⟨others, split⟩ := segments
  rw [found, Option.map_some, Option.map_some, topLevelSegments, split, List.map_cons,
    List.filter_cons_of_pos (by simp [nonempty]), List.filter_cons_of_pos (by simp [seed]),
    List.map_cons]
  exact ⟨_, rfl⟩

end ProgramIdl
