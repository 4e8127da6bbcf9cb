import Mathlib.Data.List.Infix
import ProgramIdl.Proofs.Declaration.SeedArrays
import ProgramIdl.Proofs.Pass

/-!
# Elements as texts

An element of a seed array may hold strings with anything in them, and pairs of brackets.  The commas
between elements are found whatever the strings hold (`topLevelSegments_intercalate`).  The end of
the array is found by counting square brackets, those in strings too, so it is the right one if all
of them match (`seedElements?_intercalate`).
-/

set_option autoImplicit false

namespace ProgramIdl

open ProgramIdl.Text

def bracketPairs : List (Char × Char) :=
  [('(', ')'), ('[', ']'), ('\x7b', '\x7d')]

/-- The inside of a string. -/
inductive StringText : List Char → Prop where
  | nil : StringText []
  | plain {c : Char} {rest : List Char} (plain : c ∉ ['"', '\\']) (behind : StringText rest) :
      StringText (c :: rest)
  | escaped {c : Char} {rest : List Char} (behind : StringText rest) :
      StringText ('\\' :: c :: rest)

/-- A text in which brackets pair up and strings close, with or without commas outside of them. -/
inductive SeedText : Bool → List Char → Prop where
  | nil {commas : Bool} : SeedText commas []
  | plain {commas : Bool} {c : Char} {rest : List Char}
      (plain : isPlain c = true ∨ commas = true ∧ c = ',') (behind : SeedText commas rest) :
      SeedText commas (c :: rest)
  | string {commas : Bool} {body rest : List Char} (text : StringText body)
      (behind : SeedText commas rest) : SeedText commas ('"' :: (body ++ '"' :: rest))
  | group {commas : Bool} {opening closing : Char} {inner rest : List Char}
      (pair : (opening, closing) ∈ bracketPairs) (inside : SeedText true inner)
      (behind : SeedText commas rest) : SeedText commas (opening :: (inner ++ closing :: rest))

theorem isPlain_iff {c : Char} : isPlain c = true ↔ c ∉ arrayMarks := by
  simp only [isPlain, isNestingMark, arrayMarks, Bool.and_eq_true, Bool.not_eq_true',
    decide_eq_true_eq, decide_eq_false_iff_not, List.mem_cons, List.not_mem_nil, or_false]
  tauto

theorem SeedText.append {commas : Bool} {first second : List Char} (one : SeedText commas first)
    (other : SeedText commas second) : SeedText commas (first ++ second) := by
  induction one with
  | nil => exact other
  | plain plain _ inductionHypothesis => exact .plain plain (inductionHypothesis other)
  | @string _ body rest text _ inductionHypothesis =>
      have split : '"' :: (body ++ '"' :: rest) ++ second = '"' :: (body ++ '"' :: (rest ++ second)) := by
        simp
      rw [split]
      exact .string text (inductionHypothesis other)
  | @group _ opening closing inner rest pair inside _ _ inductionHypothesis =>
      have split : opening :: (inner ++ closing :: rest) ++ second =
          opening :: (inner ++ closing :: (rest ++ second)) := by simp
      rw [split]
      exact .group pair inside (inductionHypothesis other)

theorem SeedText.withCommas {commas : Bool} {text : List Char} (seedText : SeedText commas text) :
    SeedText true text := by
  induction seedText with
  | nil => exact .nil
  | plain plain _ inductionHypothesis =>
      exact .plain (plain.imp_right fun comma => ⟨rfl, comma.2⟩) inductionHypothesis
  | string text _ inductionHypothesis => exact .string text inductionHypothesis
  | group pair inside _ _ inductionHypothesis => exact .group pair inside inductionHypothesis

theorem seedText_of_plain {commas : Bool} {text : List Char}
    (plain : ∀ c ∈ text, isPlain c = true) : SeedText commas text := by
  induction text with
  | nil => exact .nil
  | cons c text inductionHypothesis =>
      exact .plain (.inl (plain c List.mem_cons_self))
        (inductionHypothesis fun c member => plain c (List.mem_cons_of_mem _ member))

theorem SeedText.intercalate {pieces : List (List Char)}
    (texts : ∀ piece ∈ pieces, SeedText false piece) :
    SeedText true ([','].intercalate pieces) := by
  induction pieces with
  | nil => exact .nil
  | cons piece pieces inductionHypothesis =>
      have first := (texts piece List.mem_cons_self).withCommas
      cases pieces with
      | nil => rwa [List.intercalate_singleton]
      | cons next pieces =>
          rw [List.intercalate_cons_cons, List.append_assoc]
          exact first.append (.plain (.inr ⟨rfl, rfl⟩)
            (inductionHypothesis fun piece member => texts piece (List.mem_cons_of_mem _ member)))

/-! ## Looking for commas -/

theorem rawSegments_of_not_separates {state : Nesting} {c : Char}
    (passed : state.separates [','] c = false) (rest : List Char) :
    rawSegments [','] state (c :: rest) = growFirst c (rawSegments [','] (state.step c) rest) := by
  rw [rawSegments, passed]
  rfl

theorem Nesting.separates_of_isNestingMark {c : Char} (mark : isNestingMark c = true)
    (state : Nesting) (separator : List Char) : state.separates separator c = false := by
  simp [Nesting.separates, mark]

/-- Nothing separates inside a string. -/
theorem Nesting.separates_inside (depth : Int) (quotation : Quotation)
    (quoted : quotation ≠ .outside) (separator : List Char) (c : Char) :
    Nesting.separates ⟨depth, quotation⟩ separator c = false := by
  simp [Nesting.separates, quoted]

theorem StringText.rawSegments_append {body : List Char} (text : StringText body) (depth : Int)
    (rest : List Char) : rawSegments [','] ⟨depth, .inside⟩ (body ++ '"' :: rest) =
      (body ++ ['"']).foldr growFirst (rawSegments [','] ⟨depth, .outside⟩ rest) := by
  induction text with
  | nil =>
      rw [List.nil_append, rawSegments_of_not_separates
        (Nesting.separates_inside depth .inside (by decide) _ _)]
      rfl
  | @plain c body plain _ inductionHypothesis =>
      simp only [List.mem_cons, List.not_mem_nil, or_false, not_or] at plain
      have step : Nesting.step ⟨depth, .inside⟩ c = ⟨depth, .inside⟩ := by
        simp [Nesting.step, plain.1, plain.2]
      rw [List.cons_append, rawSegments_of_not_separates
        (Nesting.separates_inside depth .inside (by decide) _ _), step, inductionHypothesis]
      rfl
  | @escaped c body _ inductionHypothesis =>
      have step : Nesting.step ⟨depth, .inside⟩ '\\' = ⟨depth, .escaped⟩ := rfl
      have behind : Nesting.step ⟨depth, .escaped⟩ c = ⟨depth, .inside⟩ := rfl
      rw [List.cons_append, List.cons_append, rawSegments_of_not_separates
        (Nesting.separates_inside depth .inside (by decide) _ _), step, rawSegments_of_not_separates
        (Nesting.separates_inside depth .escaped (by decide) _ _), behind, inductionHypothesis]
      rfl

/-- A comma separates outside of all brackets only. -/
theorem SeedText.rawSegments_append {commas : Bool} {text : List Char}
    (seedText : SeedText commas text) (depth : Nat) (deep : commas = true → 0 < depth)
    (rest : List Char) : rawSegments [','] ⟨depth, .outside⟩ (text ++ rest) =
      text.foldr growFirst (rawSegments [','] ⟨depth, .outside⟩ rest) := by
  induction seedText generalizing depth rest with
  | nil => rfl
  | @plain commas c text plain _ inductionHypothesis =>
      have passed : Nesting.separates ⟨depth, .outside⟩ [','] c = false := by
        rcases plain with plain | ⟨allowed, rfl⟩
        · have other : ',' ≠ c := by
            rintro rfl
            exact absurd plain (by decide)
          simp [Nesting.separates, other]
        · have positive := deep allowed
          have nested : depth ≠ 0 := by omega
          simp [Nesting.separates, nested]
      have step : Nesting.step ⟨depth, .outside⟩ c = ⟨depth, .outside⟩ := by
        have unmarked : c ∉ ['"', '(', '[', '\x7b', ')', ']', '\x7d'] := by
          rcases plain with plain | ⟨_, rfl⟩
          · rw [isPlain_iff] at plain
            exact fun member => plain (by simp [arrayMarks] at member ⊢; tauto)
          · decide
        simp only [List.mem_cons, List.not_mem_nil, or_false, not_or] at unmarked
        simp [Nesting.step, unmarked]
      rw [List.cons_append, rawSegments_of_not_separates passed, step,
        inductionHypothesis depth deep]
      rfl
  | @string commas body text quoted _ inductionHypothesis =>
      have step : Nesting.step ⟨depth, .outside⟩ '"' = ⟨depth, .inside⟩ := rfl
      rw [List.cons_append, List.append_assoc, List.cons_append, rawSegments_of_not_separates
        (Nesting.separates_of_isNestingMark rfl _ _), step, quoted.rawSegments_append,
        inductionHypothesis depth deep]
      simp
  | @group commas opening closing inner text pair _ _ insideHypothesis inductionHypothesis =>
      have marks : isNestingMark opening = true ∧ isNestingMark closing = true ∧
          Nesting.step ⟨depth, .outside⟩ opening = ⟨(depth + 1 : Nat), .outside⟩ ∧
            Nesting.step ⟨(depth + 1 : Nat), .outside⟩ closing = ⟨depth, .outside⟩ := by
        simp only [bracketPairs, List.mem_cons, Prod.mk.injEq, List.not_mem_nil, or_false] at pair
        rcases pair with ⟨rfl, rfl⟩ | ⟨rfl, rfl⟩ | ⟨rfl, rfl⟩ <;> simp [isNestingMark, Nesting.step]
      obtain ⟨opens, closes, deeper, back⟩ := marks
      rw [List.cons_append, List.append_assoc, List.cons_append, rawSegments_of_not_separates
        (Nesting.separates_of_isNestingMark opens _ _), deeper,
        insideHypothesis (depth + 1) (fun _ => Nat.succ_pos depth), rawSegments_of_not_separates
        (Nesting.separates_of_isNestingMark closes _ _), back, inductionHypothesis depth deep]
      simp

/-- A text that belongs to one segment as a whole. -/
def Unseparated (text : List Char) : Prop :=
  ∀ rest, rawSegments [','] {} (text ++ rest) = text.foldr growFirst (rawSegments [','] {} rest)

theorem SeedText.unseparated {text : List Char} (seedText : SeedText false text) :
    Unseparated text :=
  seedText.rawSegments_append 0 nofun

theorem rawSegments_intercalate {pieces : List (List Char)}
    (unseparated : ∀ piece ∈ pieces, Unseparated piece) (nonempty : pieces ≠ []) :
    rawSegments [','] {} ([','].intercalate pieces) = pieces := by
  induction pieces with
  | nil => exact absurd rfl nonempty
  | cons piece pieces inductionHypothesis =>
      have first := unseparated piece List.mem_cons_self
      cases pieces with
      | nil =>
          have whole := first []
          rw [List.append_nil] at whole
          rw [List.intercalate_singleton, whole, rawSegments, foldr_growFirst, List.append_nil]
      | cons next pieces =>
          have later := inductionHypothesis
            (fun piece member => unseparated piece (List.mem_cons_of_mem _ member)) (by simp)
          rw [List.intercalate_cons_cons, List.append_assoc, first, List.singleton_append,
            rawSegments_separator, foldr_growFirst, List.append_nil, later]

theorem topLevelSegments_intercalate {pieces : List (List Char)}
    (unseparated : ∀ piece ∈ pieces, Unseparated piece) :
    topLevelSegments [','] ([','].intercalate pieces) =
      (pieces.map trim).filter fun segment => !segment.isEmpty := by
  cases pieces with
  | nil => rfl
  | cons piece pieces => rw [topLevelSegments, rawSegments_intercalate unseparated (by simp)]

/-! ## Counting square brackets -/

/-- All square brackets of a text match, wherever they stand. -/
structure SquaresMatch (text : List Char) : Prop where
  total : text.count ']' = text.count '['
  opened : ∀ front back, text = front ++ back → front.count ']' ≤ front.count '['

theorem untilClosed_eq_some {text : List Char} {depth : Nat}
    (total : text.count ']' = text.count '[' + depth)
    (opened : ∀ front back, text = front ++ back → front.count ']' ≤ front.count '[' + depth)
    (rest : List Char) : untilClosed depth (text ++ ']' :: rest) = some text := by
  induction text generalizing depth with
  | nil =>
      have top : depth = 0 := by simpa using total.symm
      subst top
      rfl
  | cons c text inductionHypothesis =>
      have openedBehind (front back : List Char) (split : text = front ++ back) :=
        opened (c :: front) back (by rw [split, List.cons_append])
      simp only [List.count_cons, beq_iff_eq] at total openedBehind
      by_cases opens : c = '['
      · subst opens
        simp at total openedBehind
        rw [List.cons_append, untilClosed_opening, inductionHypothesis (by omega)
          fun front back split => by have := openedBehind front back split; omega, Option.map_some]
      · by_cases closes : c = ']'
        · subst closes
          have here := opened [']'] text rfl
          simp at total openedBehind here
          obtain ⟨depth, rfl⟩ : ∃ outer, depth = outer + 1 := ⟨depth - 1, by omega⟩
          rw [List.cons_append, untilClosed_closing, inductionHypothesis (by omega)
            fun front back split => by have := openedBehind front back split; omega,
            Option.map_some]
        · simp only [opens, closes, if_false, Nat.add_zero] at total openedBehind
          rw [List.cons_append, untilClosed_other opens closes,
            inductionHypothesis total openedBehind, Option.map_some]

theorem SquaresMatch.untilClosed {text : List Char} (matched : SquaresMatch text)
    (rest : List Char) : untilClosed 0 (text ++ ']' :: rest) = some text :=
  untilClosed_eq_some matched.total matched.opened rest

/-! ## Elements of an array -/

/-- An element is an array if a bracket is the first of it behind references and blanks. -/
def StartsArray (element : List Char) : Prop :=
  ∃ signs blanks rest, element = signs ++ blanks ++ '[' :: rest ∧ (∀ c ∈ signs, c = '&') ∧
    Blank blanks

theorem opensArray_iff {element : List Char} : opensArray element = true ↔ StartsArray element := by
  rw [opensArray, decide_eq_true_iff]
  constructor
  · intro head
    obtain ⟨blanks, split, blank⟩ := exists_trimStart_split (element.dropWhile (· == '&'))
    obtain ⟨rest, opened⟩ : ∃ rest, trimStart (element.dropWhile (· == '&')) = '[' :: rest := by
      cases start : trimStart (element.dropWhile (· == '&')) with
      | nil => simp [start] at head
      | cons c rest => exact ⟨rest, by simpa [start] using head⟩
    refine ⟨element.takeWhile (· == '&'), blanks, rest, ?_, ?_, blank⟩
    · rw [List.append_assoc, ← opened, ← split, List.takeWhile_append_dropWhile]
    · intro c member
      simpa using List.mem_takeWhile_imp member
  · rintro ⟨signs, blanks, rest, rfl, allSigns, blank⟩
    have dropped : (signs ++ blanks ++ '[' :: rest).dropWhile (· == '&') =
        blanks ++ '[' :: rest := by
      rw [List.append_assoc, List.dropWhile_append_of_pos (by simpa using allSigns)]
      cases blanks with
      | nil => rfl
      | cons c blanks =>
          have visible : c ≠ '&' := by
            rintro rfl
            exact absurd (blank '&' List.mem_cons_self) (by decide)
          simp [visible]
    rw [dropped, trimStart_append blank]
    rfl

instance (element : List Char) : Decidable (StartsArray element) :=
  decidable_of_iff _ opensArray_iff

/-- A trimmed text that is not empty, with brackets in pairs and strings that are closed. -/
structure ElementText (element : List Char) : Prop where
  text : SeedText false element
  nonempty : element ≠ []
  trimmed : trim element = element

theorem intercalate_space (element : List Char) (elements : List (List Char)) :
    [',', ' '].intercalate (element :: elements) =
      [','].intercalate (element :: elements.map (' ' :: ·)) := by
  induction elements generalizing element with
  | nil => rfl
  | cons next elements inductionHypothesis =>
      rw [List.intercalate_cons_cons, inductionHypothesis, List.map_cons,
        List.intercalate_cons_cons]
      cases elements <;> simp [List.intercalate]

theorem topLevelSegments_spaced {elements : List (List Char)}
    (texts : ∀ element ∈ elements, ElementText element) :
    topLevelSegments [','] ([',', ' '].intercalate elements) = elements := by
  cases elements with
  | nil => rfl
  | cons first elements =>
      have spaced : ∀ element ∈ elements, trim (' ' :: element) = element := by
        intro element listed
        have blank : Blank [' '] := List.forall_mem_singleton.mpr (by decide)
        rw [trim, ← List.singleton_append, trimStart_append blank, ← trim]
        exact (texts element (List.mem_cons_of_mem _ listed)).trimmed
      have unseparated : ∀ piece ∈ first :: elements.map (' ' :: ·), Unseparated piece := by
        intro piece listed
        rcases List.mem_cons.mp listed with rfl | listed
        · exact (texts _ List.mem_cons_self).text.unseparated
        · obtain ⟨element, member, rfl⟩ := List.mem_map.mp listed
          have text := (texts element (List.mem_cons_of_mem _ member)).text
          exact (SeedText.plain (.inl (by decide)) text).unseparated
      have trimmed : (first :: elements.map (' ' :: ·)).map trim = first :: elements := by
        rw [List.map_cons, (texts first List.mem_cons_self).trimmed, List.map_map,
          List.map_congr_left (g := id) (by simpa using spaced), List.map_id]
      rw [intercalate_space, topLevelSegments_intercalate unseparated, trimmed, List.filter_eq_self]
      intro element listed
      simpa using (texts element listed).nonempty

/-- The elements of an array, but for those that are arrays themselves, are read from its text, if
all square brackets in it match, those in strings included. -/
theorem seedElements?_intercalate {front back : List Char} {elements : List (List Char)}
    (outside : '[' ∉ front) (texts : ∀ element ∈ elements, ElementText element)
    (matched : SquaresMatch ([',', ' '].intercalate elements)) :
    seedElements? (.ofList (front ++ '[' :: ([',', ' '].intercalate elements ++ ']' :: back))) =
      some ((elements.filter fun element => ¬ StartsArray element).map .ofList) := by
  have kept : (fun element => !opensArray element) = fun element =>
      decide (¬ StartsArray element) := by
    funext element
    rw [Bool.eq_iff_iff]
    simp [← opensArray_iff]
  rw [seedElements?_append outside, matched.untilClosed, Option.map_some,
    topLevelSegments_spaced texts, kept]

/-- The elements `SEED`, `b"[,\"]"`, `f(a, b)` and `& [bump]`. -/
def orderElements : List (List Char) :=
  [['S', 'E', 'E', 'D'], ['b', '"', '[', ',', '\\', '"', ']', '"'],
    ['f', '(', 'a', ',', ' ', 'b', ')'], ['&', ' ', '[', 'b', 'u', 'm', 'p', ']']]

theorem seedElements?_intercalate_order :
    (∀ element ∈ orderElements, ElementText element) ∧
      SquaresMatch ([',', ' '].intercalate orderElements) ∧
      seedElements? "&[SEED, b\"[,\\\"]\", f(a, b), & [bump]].concat()" =
        some ["SEED", "b\"[,\\\"]\"", "f(a, b)"] := by
  have texts : ∀ element ∈ orderElements, ElementText element := by
    have plain {commas : Bool} {c : Char} {rest : List Char} (here : isPlain c = true)
        (behind : SeedText commas rest) : SeedText commas (c :: rest) := .plain (.inl here) behind
    have name : ElementText ['S', 'E', 'E', 'D'] :=
      ⟨plain rfl (plain rfl (plain rfl (plain rfl .nil))), by decide, by decide⟩
    have literal : ElementText ['b', '"', '[', ',', '\\', '"', ']', '"'] := by
      have inside : StringText ['[', ',', '\\', '"', ']'] :=
        .plain (by decide) (.plain (by decide) (.escaped (.plain (by decide) .nil)))
      exact ⟨plain rfl (.string inside .nil), by decide, by decide⟩
    have call : ElementText ['f', '(', 'a', ',', ' ', 'b', ')'] := by
      have inside : SeedText true ['a', ',', ' ', 'b'] :=
        plain rfl (.plain (.inr ⟨rfl, rfl⟩) (plain rfl (plain rfl .nil)))
      exact ⟨plain rfl (.group (by decide) inside .nil), by decide, by decide⟩
    have bump : ElementText ['&', ' ', '[', 'b', 'u', 'm', 'p', ']'] := by
      have inside : SeedText true ['b', 'u', 'm', 'p'] :=
        plain rfl (plain rfl (plain rfl (plain rfl .nil)))
      exact ⟨plain rfl (plain rfl (.group (by decide) inside .nil)), by decide, by decide⟩
    simp only [orderElements, List.forall_mem_cons]
    exact ⟨name, literal, call, bump, nofun⟩
  have matched : SquaresMatch ([',', ' '].intercalate orderElements) := by
    refine ⟨by decide, fun front back split => ?_⟩
    have prefixes : ∀ front ∈ ([',', ' '].intercalate orderElements).inits,
        front.count ']' ≤ front.count '[' := by decide
    exact prefixes front ((List.mem_inits _ _).mpr ⟨back, split.symm⟩)
  refine ⟨texts, matched, ?_⟩
  exact @seedElements?_intercalate ['&'] ['.', 'c', 'o', 'n', 'c', 'a', 't', '(', ')'] _
    (by decide) texts matched

/-- A bracket in a string ends the array. -/
theorem not_seedElements_closing : ElementText ['b', '"', ']', '"'] ∧
    ¬ StartsArray ['b', '"', ']', '"'] ∧
      seedElements? (.ofList ('[' :: (['b', '"', ']', '"'] ++ [']']))) ≠
        some [.ofList ['b', '"', ']', '"']] := by
  have inside : StringText [']'] := .plain (by decide) .nil
  exact ⟨⟨.plain (.inl rfl) (.string inside .nil), by decide, by decide⟩, by decide,
    by decide +kernel⟩

end ProgramIdl
