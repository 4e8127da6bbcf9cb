import ProgramIdl.Proofs.Declaration.SeedText

/-!
# Splitting and joining

Segments that are joined by commas are found again, whatever blanks stand around them.  The segments
of any other text are cut out of it in order, and nothing but blanks and commas is left behind
(`splitTopLevel_joined_and_scattered`).
-/

set_option autoImplicit false

namespace ProgramIdl

open ProgramIdl.Text

/-! ## Joining -/

/-- A segment with blanks around it. -/
structure PaddedSegment where
  front : List Char
  segment : List Char
  back : List Char
  isFront : Blank front
  isSegment : ElementText segment
  isBack : Blank back

namespace PaddedSegment

def chars (padded : PaddedSegment) : List Char :=
  padded.front ++ padded.segment ++ padded.back

/-- Segments between commas, perhaps with one more comma, and blanks, behind the last of them. -/
def joined (segments : List PaddedSegment) (ending : Option { text : List Char // Blank text }) :
    List Char :=
  [','].intercalate (segments.map chars) ++
    match ending with
    | some blanks => ',' :: blanks.val
    | none => []

theorem trim_chars (padded : PaddedSegment) : trim padded.chars = padded.segment := by
  rw [chars, trim_blanks padded.isFront padded.isBack, padded.isSegment.trimmed]

theorem seedText_of_blank {gap : List Char} (blank : Blank gap) : SeedText false gap :=
  seedText_of_plain fun c listed => isPlain_of_isBlank (blank c listed)

theorem unseparated_chars (padded : PaddedSegment) : Unseparated padded.chars :=
  (((seedText_of_blank padded.isFront).append padded.isSegment.text).append
    (seedText_of_blank padded.isBack)).unseparated

theorem map_trim_chars (segments : List PaddedSegment) :
    ((segments.map chars).map trim).filter (fun segment => !segment.isEmpty) =
      segments.map segment := by
  rw [List.map_map, List.map_congr_left fun padded _ => padded.trim_chars, List.filter_eq_self,
    List.forall_mem_map]
  intro padded _
  simpa using padded.isSegment.nonempty

theorem intercalate_concat (pieces : List (List Char)) (nonempty : pieces ≠ []) (last : List Char) :
    [','].intercalate (pieces ++ [last]) = [','].intercalate pieces ++ ',' :: last := by
  induction pieces with
  | nil => exact absurd rfl nonempty
  | cons piece pieces inductionHypothesis =>
      cases pieces with
      | nil => simp [List.intercalate_cons_cons]
      | cons next pieces =>
          rw [List.cons_append, List.cons_append, List.intercalate_cons_cons, ← List.cons_append,
            inductionHypothesis (List.cons_ne_nil next pieces), List.intercalate_cons_cons,
            List.append_assoc, List.append_assoc, List.append_assoc]

/-- A comma behind some segments adds none. -/
theorem topLevelSegments_comma {pieces : List (List Char)}
    (unseparated : ∀ piece ∈ pieces, Unseparated piece) {blanks : List Char} (blank : Blank blanks) :
    topLevelSegments [','] ([','].intercalate pieces ++ ',' :: blanks) =
      topLevelSegments [','] ([','].intercalate pieces) := by
  have last := (seedText_of_blank blank).unseparated
  have nothing : Blank [] := nofun
  have gone : trim blanks = [] := by
    have whole := trim_blanks blank nothing []
    rwa [List.append_nil, List.append_nil] at whole
  cases pieces with
  | nil =>
      have both : ∀ piece ∈ [[], blanks], Unseparated piece := by
        simpa using ⟨SeedText.nil.unseparated, last⟩
      have read := topLevelSegments_intercalate both
      rw [List.map_cons, List.map_singleton, gone, List.intercalate_cons_cons,
        List.intercalate_singleton] at read
      rw [List.intercalate_nil]
      exact read
  | cons piece pieces =>
      rw [← intercalate_concat _ (List.cons_ne_nil piece pieces),
        topLevelSegments_intercalate unseparated, topLevelSegments_intercalate, List.map_append,
        List.filter_append]
      · simp [gone]
      · intro piece listed
        rcases List.mem_append.mp listed with listed | listed
        · exact unseparated piece listed
        · rwa [List.mem_singleton.mp listed]

theorem topLevelSegments_joined (segments : List PaddedSegment)
    (ending : Option { text : List Char // Blank text }) :
    topLevelSegments [','] (joined segments ending) = segments.map segment := by
  have unseparated : ∀ piece ∈ segments.map chars, Unseparated piece :=
    List.forall_mem_map.mpr fun padded _ => padded.unseparated_chars
  have read : topLevelSegments [','] ([','].intercalate (segments.map chars)) =
      segments.map segment := by
    rw [topLevelSegments_intercalate unseparated, map_trim_chars]
  cases ending with
  | none => rwa [joined, List.append_nil]
  | some blanks => rw [joined, topLevelSegments_comma unseparated blanks.property, read]

end PaddedSegment

/-! ## Splitting -/

theorem rawSegments_ne_nil (separator : List Char) (state : Nesting) (text : List Char) :
    rawSegments separator state text ≠ [] := by
  cases text with
  | nil => exact List.cons_ne_nil _ _
  | cons c rest =>
      rw [rawSegments]
      split
      · exact List.cons_ne_nil _ _
      · cases rawSegments separator (state.step c) rest <;> exact List.cons_ne_nil _ _

theorem intercalate_growFirst (separator : List Char) (c : Char) (segments : List (List Char)) :
    separator.intercalate (growFirst c segments) = c :: separator.intercalate segments := by
  cases segments with
  | nil => rfl
  | cons segment segments =>
      cases segments with
      | nil => rfl
      | cons next segments =>
          rw [growFirst, List.intercalate_cons_cons, List.intercalate_cons_cons]
          rfl

/-- Splitting loses nothing, wherever it starts. -/
theorem intercalate_rawSegments (separator : List Char) (state : Nesting) (text : List Char) :
    separator.intercalate (rawSegments separator state text) = text := by
  induction text generalizing state with
  | nil => rfl
  | cons c rest inductionHypothesis =>
      rw [rawSegments]
      split
      · rename_i separates
        simp only [Nesting.separates, Bool.and_eq_true, decide_eq_true_eq] at separates
        rw [List.intercalate_cons_of_ne_nil (rawSegments_ne_nil separator state rest),
          inductionHypothesis, separates.2]
        rfl
      · rw [intercalate_growFirst, inductionHypothesis]

/-- Parts that stand in a text in this order, apart from each other, with nothing but blanks and commas
around them. -/
inductive Scattered : List (List Char) → List Char → Prop where
  | nil {gap : List Char} (fills : ∀ c ∈ gap, isBlank c = true ∨ c = ',') : Scattered [] gap
  | cons {gap part text : List Char} {parts : List (List Char)}
      (fills : ∀ c ∈ gap, isBlank c = true ∨ c = ',') (behind : Scattered parts text) :
      Scattered (part :: parts) (gap ++ (part ++ text))

theorem Scattered.behind {gap text : List Char} {parts : List (List Char)}
    (fills : ∀ c ∈ gap, isBlank c = true ∨ c = ',') (scattered : Scattered parts text) :
    Scattered parts (gap ++ text) := by
  cases scattered with
  | nil more => exact .nil (List.forall_mem_append.mpr ⟨fills, more⟩)
  | cons more behind =>
      rw [← List.append_assoc]
      exact .cons (List.forall_mem_append.mpr ⟨fills, more⟩) behind

/-- What is left of a piece stands in front of what stands in the text behind it. -/
theorem Scattered.piece {piece text : List Char} {parts : List (List Char)}
    (scattered : Scattered parts text) :
    Scattered (([trim piece].filter fun part => !part.isEmpty) ++ parts) (piece ++ text) := by
  obtain ⟨front, back, split, isFront, isBack⟩ := exists_trim_split piece
  have fills {gap : List Char} (blank : Blank gap) : ∀ c ∈ gap, isBlank c = true ∨ c = ',' :=
    fun c listed => .inl (blank c listed)
  have whole : piece ++ text = front ++ (trim piece ++ (back ++ text)) := by
    conv_lhs => rw [split]
    simp only [List.append_assoc]
  have later := scattered.behind (fills isBack)
  rw [whole]
  cases left : trim piece with
  | nil => exact later.behind (fills isFront)
  | cons c rest => exact .cons (fills isFront) later

theorem scattered_intercalate (pieces : List (List Char)) :
    Scattered ((pieces.map trim).filter fun part => !part.isEmpty) ([','].intercalate pieces) := by
  induction pieces with
  | nil => exact .nil nofun
  | cons piece pieces inductionHypothesis =>
      have comma : ∀ c ∈ [','], isBlank c = true ∨ c = ',' := by simp
      rw [List.map_cons, ← List.singleton_append, List.filter_append]
      cases pieces with
      | nil =>
          have alone := @Scattered.piece piece [] [] (.nil nofun)
          rw [List.append_nil piece] at alone
          rw [List.intercalate_singleton]
          exact alone
      | cons next pieces =>
          rw [List.intercalate_cons_cons, List.append_assoc]
          exact (inductionHypothesis.behind comma).piece

theorem topLevelSegments_scattered (text : List Char) :
    Scattered (topLevelSegments [','] text) text := by
  have scattered := scattered_intercalate (rawSegments [','] {} text)
  rwa [intercalate_rawSegments] at scattered

/-! ## Both ways -/

/-- Splitting undoes joining, and it loses nothing of any text but blanks and commas. -/
theorem splitTopLevel_joined_and_scattered :
    (∀ (segments : List PaddedSegment) (ending : Option { text : List Char // Blank text }),
      splitTopLevel (.ofList (PaddedSegment.joined segments ending)) =
        segments.map fun padded => .ofList padded.segment) ∧
    ∀ text : String,
      (∀ part ∈ splitTopLevel text, part ≠ "" ∧ trim part.toList = part.toList) ∧
      Scattered ((splitTopLevel text).map String.toList) text.toList := by
  constructor
  · intro segments ending
    have comma : ",".toList = [','] := String.toList_ofList
    rw [splitTopLevel, comma, String.toList_ofList, PaddedSegment.topLevelSegments_joined,
      List.map_map]
    rfl
  · intro text
    have comma : ",".toList = [','] := String.toList_ofList
    rw [splitTopLevel, comma]
    constructor
    · rw [List.forall_mem_map]
      intro part listed
      obtain ⟨among, visible⟩ := List.mem_filter.mp listed
      obtain ⟨piece, _, rfl⟩ := List.mem_map.mp among
      rw [String.toList_ofList]
      refine ⟨fun empty => ?_, trim_trim piece⟩
      have nothing : trim piece = [] := by simpa using empty
      rw [nothing] at visible
      cases visible
    · have back : String.toList ∘ String.ofList = id := funext fun _ => String.toList_ofList
      rw [List.map_map, back, List.map_id]
      exact topLevelSegments_scattered text.toList

example : splitTopLevel " a, f(b, c) ,, b\"\\\",\" ,[d, e]," = ["a", "f(b, c)", "b\"\\\",\"", "[d, e]"] := by
  decide +kernel

end ProgramIdl
