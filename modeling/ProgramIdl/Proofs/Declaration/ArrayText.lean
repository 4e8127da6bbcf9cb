import ProgramIdl.Proofs.Declaration.SeedText
import ProgramIdl.Proofs.Text.Compact

/-!
# Arrays as they are written

An array of seeds is written with commas between its elements, and in each element brackets pair up.
Its elements are then read one by one, each in compact form (`seedElements?_of_arrayOf`).
-/

set_option autoImplicit false

namespace ProgramIdl

open ProgramIdl.Text

/-! ## Paired brackets -/

/-- The inside of a string.  Square brackets in it would be counted. -/
inductive Quoted : List Char → Prop where
  | nil : Quoted []
  | plain {c : Char} {rest : List Char} (plain : c ∉ ['"', '\\', '[', ']'])
      (behind : Quoted rest) : Quoted (c :: rest)
  | escaped {c : Char} {rest : List Char} (plain : c ∉ ['[', ']']) (behind : Quoted rest) :
      Quoted ('\\' :: c :: rest)

/-- A text in which brackets pair up and strings close, with or without commas outside of them. -/
inductive Paired : Bool → List Char → Prop where
  | nil {commas : Bool} : Paired commas []
  | plain {commas : Bool} {c : Char} {rest : List Char}
      (plain : isPlain c = true ∨ commas = true ∧ c = ',') (behind : Paired commas rest) :
      Paired commas (c :: rest)
  | string {commas : Bool} {body rest : List Char} (quoted : Quoted body)
      (behind : Paired commas rest) : Paired commas ('"' :: (body ++ '"' :: rest))
  | group {commas : Bool} {opening closing : Char} {inner rest : List Char}
      (pair : (opening, closing) ∈ bracketPairs) (inside : Paired true inner)
      (behind : Paired commas rest) : Paired commas (opening :: (inner ++ closing :: rest))

/-! ## Looking for the end of an array -/

theorem untilClosed_append {text : List Char} (outside : ∀ c ∈ text, c ≠ '[' ∧ c ≠ ']')
    (depth : Nat) (rest : List Char) :
    untilClosed depth (text ++ rest) = (untilClosed depth rest).map (text ++ ·) := by
  induction text with
  | nil => simp
  | cons c text inductionHypothesis =>
      obtain ⟨opens, closes⟩ := outside c List.mem_cons_self
      rw [List.cons_append, untilClosed_other opens closes,
        inductionHypothesis fun c member => outside c (List.mem_cons_of_mem _ member),
        Option.map_map]
      rfl

theorem Quoted.outside {body : List Char} (quoted : Quoted body) :
    ∀ c ∈ body, c ≠ '[' ∧ c ≠ ']' := by
  induction quoted with
  | nil => exact nofun
  | plain plain _ inductionHypothesis =>
      simp only [List.mem_cons, List.not_mem_nil, or_false, not_or] at plain
      exact List.forall_mem_cons.mpr ⟨plain.2.2, inductionHypothesis⟩
  | escaped plain _ inductionHypothesis =>
      simp only [List.mem_cons, List.not_mem_nil, or_false, not_or] at plain
      exact List.forall_mem_cons.mpr ⟨by decide, List.forall_mem_cons.mpr ⟨plain, inductionHypothesis⟩⟩

theorem Paired.untilClosed_append {commas : Bool} {text : List Char} (paired : Paired commas text)
    (depth : Nat) (rest : List Char) :
    untilClosed depth (text ++ rest) = (untilClosed depth rest).map (text ++ ·) := by
  induction paired generalizing depth rest with
  | nil => simp
  | @plain commas c text plain _ inductionHypothesis =>
      have outside : c ≠ '[' ∧ c ≠ ']' := by
        rcases plain with plain | ⟨_, rfl⟩
        · constructor <;> rintro rfl <;> exact absurd plain (by decide)
        · decide
      rw [List.cons_append, untilClosed_other outside.1 outside.2, inductionHypothesis,
        Option.map_map]
      rfl
  | @string commas body text quoted _ inductionHypothesis =>
      have outside : ∀ c ∈ '"' :: (body ++ ['"']), c ≠ '[' ∧ c ≠ ']' := by
        intro c member
        simp only [List.mem_cons, List.mem_append, List.not_mem_nil, or_false] at member
        rcases member with rfl | inside | rfl
        · decide
        · exact quoted.outside c inside
        · decide
      have split (rest : List Char) : '"' :: (body ++ '"' :: text) ++ rest =
          '"' :: (body ++ ['"']) ++ (text ++ rest) := by simp
      rw [split, ProgramIdl.untilClosed_append outside, inductionHypothesis, Option.map_map]
      congr 1
      funext inner
      simp
  | @group commas opening closing inner text pair _ _ insideHypothesis inductionHypothesis =>
      have split (rest : List Char) : opening :: (inner ++ closing :: text) ++ rest =
          opening :: (inner ++ (closing :: (text ++ rest))) := by simp
      simp only [bracketPairs, List.mem_cons, Prod.mk.injEq, List.not_mem_nil, or_false] at pair
      rw [split]
      rcases pair with ⟨rfl, rfl⟩ | ⟨rfl, rfl⟩ | ⟨rfl, rfl⟩
      · rw [untilClosed_other (by decide) (by decide), insideHypothesis,
          untilClosed_other (by decide) (by decide), inductionHypothesis]
        simp [Option.map_map, Function.comp_def]
      · rw [untilClosed_opening, insideHypothesis, untilClosed_closing, inductionHypothesis]
        simp [Option.map_map, Function.comp_def]
      · rw [untilClosed_other (by decide) (by decide), insideHypothesis,
          untilClosed_other (by decide) (by decide), inductionHypothesis]
        simp [Option.map_map, Function.comp_def]

/-! ## Looking for commas -/

theorem Quoted.stringText {body : List Char} (quoted : Quoted body) : StringText body := by
  induction quoted with
  | nil => exact .nil
  | @plain c body plain _ inductionHypothesis =>
      refine .plain (fun member => plain ?_) inductionHypothesis
      simp only [List.mem_cons, List.not_mem_nil, or_false] at member ⊢
      tauto
  | escaped _ _ inductionHypothesis => exact .escaped inductionHypothesis

theorem Paired.seedText {commas : Bool} {text : List Char} (paired : Paired commas text) :
    SeedText commas text := by
  induction paired with
  | nil => exact .nil
  | plain plain _ inductionHypothesis => exact .plain plain inductionHypothesis
  | string quoted _ inductionHypothesis => exact .string quoted.stringText inductionHypothesis
  | group pair _ _ insideHypothesis inductionHypothesis =>
      exact .group pair insideHypothesis inductionHypothesis

theorem Paired.steady {text : List Char} (paired : Paired false text) : Steady text :=
  ⟨paired.untilClosed_append, paired.seedText.unseparated⟩

/-! ## Steady texts between commas -/

theorem untilClosed_intercalate {pieces : List (List Char)} (steady : ∀ piece ∈ pieces, Steady piece)
    (depth : Nat) (rest : List Char) :
    untilClosed depth ([','].intercalate pieces ++ rest) =
      (untilClosed depth rest).map ([','].intercalate pieces ++ ·) := by
  induction pieces with
  | nil => simp
  | cons piece pieces inductionHypothesis =>
      have first := steady piece List.mem_cons_self
      have later := inductionHypothesis fun piece member =>
        steady piece (List.mem_cons_of_mem _ member)
      cases pieces with
      | nil =>
          rw [List.intercalate_singleton]
          exact first.closes depth rest
      | cons next pieces =>
          rw [List.intercalate_cons_cons, List.append_assoc, List.append_assoc,
            first.closes, List.singleton_append, untilClosed_other (by decide) (by decide), later]
          simp [Option.map_map, Function.comp_def]

/-! ## Arrays -/

/-- The text of an array, and its elements as they stand between the commas. -/
structure ArrayOf (text : List Char) (elements : List (List Char)) : Prop where
  split : ∃ front back, '[' ∉ front ∧
    text = front ++ '[' :: ([','].intercalate elements ++ ']' :: back)
  paired : ∀ element ∈ elements, Paired false (compactChars element)

/-- Elements that are seeds: nothing stands behind the last comma, and an array holds the bump. -/
def isSeed (element : List Char) : Bool :=
  !opensArray (compactChars element) && !(compactChars element).isEmpty

theorem squeeze_cons {c : Char} (visible : isBlank c = false)
    (apart : ∀ mark ∈ closedMarks, c ∉ mark) (rest : List Char) :
    squeeze (c :: rest) = c :: squeeze rest := by
  obtain ⟨gap, isGap, split⟩ := squeeze_append_cons visible apart [] rest
  have flush : Flush (c :: rest) := flush_cons_iff.mpr visible
  have compacted := compactChars_flush (c :: rest)
  rw [compactChars_eq_squeeze, trimStart_of_flush flush, ← List.nil_append (c :: rest),
    split] at compacted
  rw [← List.nil_append (c :: rest), split]
  rcases isGap with rfl | rfl
  · rfl
  · exact absurd (compacted ' ' rfl) (by decide)

/-- What is left of an element in the compact text of an array. -/
def Remains (element piece : List Char) : Prop :=
  ∃ gap, Gap gap ∧ piece = squeeze element ++ gap

theorem exists_remains {closing : Char} (visible : isBlank closing = false)
    (apart : ∀ mark ∈ closedMarks, closing ∉ mark) (elements : List (List Char))
    (back : List Char) : ∃ pieces, List.Forall₂ Remains elements pieces ∧
      squeeze ([','].intercalate elements ++ closing :: back) =
        [','].intercalate pieces ++ closing :: squeeze back := by
  induction elements with
  | nil => exact ⟨[], .nil, squeeze_cons visible apart back⟩
  | cons element elements inductionHypothesis =>
      cases elements with
      | nil =>
          obtain ⟨gap, isGap, split⟩ := squeeze_append_cons visible apart element back
          refine ⟨[squeeze element ++ gap], .cons ⟨gap, isGap, rfl⟩ .nil, ?_⟩
          rw [List.intercalate_singleton, split, List.intercalate_singleton, List.append_assoc]
      | cons next elements =>
          obtain ⟨pieces, remain, later⟩ := inductionHypothesis
          obtain ⟨gap, isGap, split⟩ := squeeze_append_cons (c := ',') (by decide) (by decide)
            element ([','].intercalate (next :: elements) ++ closing :: back)
          refine ⟨(squeeze element ++ gap) :: pieces, .cons ⟨gap, isGap, rfl⟩ remain, ?_⟩
          cases remain with
          | cons _ _ =>
              rw [List.intercalate_cons_cons, List.append_assoc, List.append_assoc,
                List.singleton_append, split, later, List.intercalate_cons_cons]
              simp

theorem Remains.trim_eq {element piece : List Char} (remains : Remains element piece) :
    trim piece = compactChars element := by
  obtain ⟨gap, isGap, rfl⟩ := remains
  exact trim_squeeze_append isGap element

theorem map_trim_of_remains {elements pieces : List (List Char)}
    (remain : List.Forall₂ Remains elements pieces) :
    pieces.map trim = elements.map compactChars := by
  induction remain with
  | nil => rfl
  | cons here _ inductionHypothesis =>
      rw [List.map_cons, List.map_cons, here.trim_eq, inductionHypothesis]

theorem Remains.steady {element piece : List Char} (remains : Remains element piece)
    (paired : Paired false (compactChars element)) : Steady piece := by
  obtain ⟨gap, isGap, rfl⟩ := remains
  obtain ⟨front, isFront, split⟩ := squeeze_eq_compactChars element
  have blankSteady {part : List Char} (blank : Blank part) : Steady part :=
    steady_of_plain fun c member => isPlain_of_isBlank (blank c member)
  rw [split]
  exact ((blankSteady isFront.blank).append paired.steady).append (blankSteady isGap.blank)

/-- A bracket at the front of an array stays where it is. -/
theorem exists_compactChars_split (front rest : List Char) :
    ∃ left gap, Gap gap ∧ (∀ c ∈ left, c = ' ' ∨ c ∈ front) ∧
      compactChars (front ++ '[' :: rest) = left ++ gap ++ '[' :: squeeze rest := by
  obtain ⟨blanks, split, _⟩ := exists_trimStart_split front
  obtain ⟨gap, isGap, squeezed⟩ := squeeze_append_cons (c := '[') (by decide) (by decide)
    (trimStart front) rest
  refine ⟨squeeze (trimStart front), gap, isGap, ?_, ?_⟩
  · intro c member
    refine (mem_squeeze member).imp_right fun inside => ?_
    rw [split]
    exact List.mem_append_right _ inside
  · rw [compactChars_eq_squeeze, trimStart_append_cons (by decide), squeezed, List.append_assoc]

/-- The elements of an array that are seeds are read one by one, each in compact form. -/
theorem seedElements?_of_arrayOf {text : String} {elements : List (List Char)}
    (array : ArrayOf text.toList elements) :
    seedElements? (compact text) =
      some ((elements.filter isSeed).map fun element => .ofList (compactChars element)) := by
  obtain ⟨⟨front, back, outside, split⟩, paired⟩ := array
  obtain ⟨left, gap, isGap, inside, compacted⟩ :=
    exists_compactChars_split front ([','].intercalate elements ++ ']' :: back)
  obtain ⟨pieces, remain, squeezed⟩ := @exists_remains ']' (by decide) (by decide) elements back
  have notIn : '[' ∉ left ++ gap := by
    intro member
    rcases List.mem_append.mp member with early | late
    · rcases inside '[' early with impossible | present
      · exact absurd impossible (by decide)
      · exact outside present
    · exact absurd (isGap.blank '[' late) (by decide)
  have steady : ∀ piece ∈ pieces, Steady piece := by
    intro piece member
    obtain ⟨element, listed, remains⟩ := exists_left_of_forall₂ remain member
    exact remains.steady (paired element listed)
  have inner : untilClosed 0 ([','].intercalate pieces ++ ']' :: squeeze back) =
      some ([','].intercalate pieces) := by
    rw [untilClosed_intercalate steady]
    simp [untilClosed]
  have kept : isSeed = fun element =>
      !opensArray (compactChars element) && !(compactChars element).isEmpty := rfl
  rw [compact, split, compacted, squeezed, seedElements?_append notIn, inner, Option.map_some,
    topLevelSegments_intercalate fun piece member => (steady piece member).separates, map_trim_of_remains remain, kept]
  simp [List.filter_map, Function.comp_def]

end ProgramIdl
