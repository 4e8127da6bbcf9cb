import Mathlib.Data.List.Infix
import ProgramIdl.Proofs.Text.Compact

/-!
# Compact text as a normal form

A text is a row of chunks with blanks between them.  Compacting leaves one space between two chunks, or
none if a closed mark stands on either side of it (`exists_woven`).  A chunk that is a single colon can
come to stand beside another colon in that way, and then a space is left beside `::`; nothing else keeps
a compact text from being single spaced (`compact_normal_iff`).
-/

set_option autoImplicit false

namespace ProgramIdl.Text

/-! ## Chunks -/

/-- Some characters, none of them blank. -/
structure Chunk (chunk : List Char) : Prop where
  nonempty : chunk ≠ []
  visible : ∀ c ∈ chunk, isBlank c = false

theorem Chunk.no_space {chunk : List Char} (isChunk : Chunk chunk) : ' ' ∉ chunk := by
  intro listed
  have blank := isChunk.visible ' ' listed
  cases blank

/-- Chunks in a row, with a space between those that are not joined. -/
def woven (joins : List Char → List Char → Bool) : List (List Char) → List Char
  | [] => []
  | [chunk] => chunk
  | chunk :: next :: rest =>
      chunk ++ ((if joins chunk next then [] else [' ']) ++ woven joins (next :: rest))

/-- No chunk is joined to another. -/
def apart (_front _back : List Char) : Bool :=
  false

/-- Whether a mark stands on either side of the place between two chunks. -/
def closes (mark front back : List Char) : Bool :=
  mark.isPrefixOf back || mark.isSuffixOf front

/-- Whether a closed mark stands on either side of the place between two chunks. -/
def touches (front back : List Char) : Bool :=
  closedMarks.any fun mark => closes mark front back

section Weaving

variable {joins : List Char → List Char → Bool}

/-- A chunk is the front of the row that starts with it. -/
theorem exists_woven_cons (joins : List Char → List Char → Bool) (chunk : List Char)
    (rest : List (List Char)) : ∃ behind, woven joins (chunk :: rest) = chunk ++ behind := by
  cases rest with
  | nil => exact ⟨[], (List.append_nil chunk).symm⟩
  | cons next rest => exact ⟨_, rfl⟩

theorem woven_append (earlier : List (List Char)) (last next : List Char) (later : List (List Char)) :
    woven joins (earlier ++ last :: next :: later) =
      woven joins (earlier ++ [last]) ++
        ((if joins last next then [] else [' ']) ++ woven joins (next :: later)) := by
  induction earlier with
  | nil => rfl
  | cons chunk earlier inductionHypothesis =>
      cases earlier with
      | nil => simp only [List.nil_append, List.cons_append, woven, List.append_assoc]
      | cons following earlier =>
          rw [List.cons_append] at inductionHypothesis
          rw [List.cons_append, List.cons_append, woven, inductionHypothesis]
          simp only [List.cons_append, woven, List.append_assoc]

theorem woven_concat (earlier : List (List Char)) (last next : List Char) :
    woven joins (earlier ++ [last, next]) =
      woven joins (earlier ++ [last]) ++ ((if joins last next then [] else [' ']) ++ next) :=
  woven_append earlier last next []

theorem suffix_woven_concat (earlier : List (List Char)) (last : List Char) :
    last <:+ woven joins (earlier ++ [last]) := by
  cases earlier using List.reverseRecOn with
  | nil => exact List.suffix_rfl
  | append_singleton earlier before _ =>
      rw [List.append_assoc, List.singleton_append, woven_concat, ← List.append_assoc]
      exact List.suffix_append _ last

/-- A space in a row stands between two chunks that are not joined. -/
theorem exists_split_of_space {chunks : List (List Char)} (areChunks : ∀ chunk ∈ chunks, Chunk chunk)
    {before behind : List Char} (split : woven joins chunks = before ++ ' ' :: behind) :
    ∃ earlier last next later, chunks = earlier ++ last :: next :: later ∧
      joins last next = false ∧ before = woven joins (earlier ++ [last]) ∧
        behind = woven joins (next :: later) := by
  induction chunks generalizing before with
  | nil => cases before <;> cases split
  | cons chunk rest inductionHypothesis =>
      have isChunk := areChunks chunk List.mem_cons_self
      -- the space stands behind the first chunk
      have behindChunk {more : List Char} (same : chunk ++ more = before ++ ' ' :: behind) :
          ∃ between, before = chunk ++ between ∧ more = between ++ ' ' :: behind := by
        rcases List.append_eq_append_iff.mp same with ⟨between, whole, tail⟩ | ⟨between, whole, tail⟩
        · exact ⟨between, whole, tail⟩
        · cases between with
          | nil => exact ⟨[], by rw [whole]; simp, tail.symm⟩
          | cons c between =>
              obtain ⟨rfl, _⟩ := List.cons.inj tail
              exact absurd (by rw [whole]; simp) isChunk.no_space
      cases rest with
      | nil =>
          rw [woven, ← List.append_nil chunk] at split
          obtain ⟨between, _, tail⟩ := behindChunk split
          cases between <;> cases tail
      | cons next rest =>
          obtain ⟨between, whole, tail⟩ := behindChunk split
          have later {more : List Char} (found : woven joins (next :: rest) = more ++ ' ' :: behind)
              (front : between = (if joins chunk next then [] else [' ']) ++ more) :
              ∃ earlier last following later,
                chunk :: next :: rest = earlier ++ last :: following :: later ∧
                  joins last following = false ∧ before = woven joins (earlier ++ [last]) ∧
                    behind = woven joins (following :: later) := by
            obtain ⟨earlier, last, following, later, row, open_, first, second⟩ :=
              inductionHypothesis (fun chunk listed => areChunks chunk (List.mem_cons_of_mem _ listed))
                found
            refine ⟨chunk :: earlier, last, following, later, by rw [row]; rfl, open_, ?_, second⟩
            rw [whole, front, first]
            cases earlier with
            | nil =>
                obtain ⟨rfl, _⟩ := List.cons.inj row
                rfl
            | cons other earlier =>
                obtain ⟨rfl, _⟩ := List.cons.inj row
                rfl
          by_cases joined : joins chunk next = true
          · rw [if_pos joined] at tail
            exact later tail (by rw [if_pos joined]; rfl)
          · rw [if_neg joined, List.singleton_append] at tail
            cases between with
            | nil =>
                obtain ⟨_, rfl⟩ := List.cons.inj tail
                refine ⟨[], chunk, next, rest, rfl, Bool.eq_false_iff.mpr joined, ?_, rfl⟩
                rw [whole, List.append_nil]
                rfl
            | cons c between =>
                obtain ⟨rfl, found⟩ := List.cons.inj tail
                exact later found (by rw [if_neg joined]; rfl)

end Weaving

/-! ## Closing up a row -/

section Closing

variable {joins : List Char → List Char → Bool} {mark : List Char}

theorem isPrefixOf_append_of_le {front : List Char} (long : mark.length ≤ front.length)
    (behind : List Char) : mark.isPrefixOf (front ++ behind) = mark.isPrefixOf front := by
  rw [Bool.eq_iff_iff, List.isPrefixOf_iff_prefix, List.isPrefixOf_iff_prefix]
  constructor
  · intro starts
    exact List.prefix_of_prefix_length_le starts (List.prefix_append front behind) long
  · intro starts
    exact starts.trans (List.prefix_append front behind)

/-- A mark of one character, or one that no chunks have been joined at, stands in front of a row only if
it stands in front of its first chunk. -/
theorem isPrefixOf_woven (space : ' ' ∉ mark) (short : mark.length = 1 ∨ joins = apart)
    {chunk : List Char} (isChunk : Chunk chunk) (rest : List (List Char)) :
    mark.isPrefixOf (woven joins (chunk :: rest)) = mark.isPrefixOf chunk := by
  cases rest with
  | nil => rfl
  | cons next rest =>
      rcases short with single | rfl
      · have long : mark.length ≤ chunk.length := by
          rw [single]
          exact List.length_pos_iff.mpr isChunk.nonempty
        exact isPrefixOf_append_of_le long _
      · exact isPrefixOf_append_cons space chunk _

theorem dropSpacesBefore_chunk {chunk : List Char} (noSpace : ' ' ∉ chunk) (behind : List Char) :
    dropSpacesBefore mark (chunk ++ behind) = chunk ++ dropSpacesBefore mark behind := by
  induction chunk with
  | nil => rfl
  | cons c chunk inductionHypothesis =>
      have visible : c ≠ ' ' := fun same => noSpace (same ▸ List.mem_cons_self)
      rw [List.cons_append, dropSpacesBefore, if_neg (fun both => visible both.1),
        inductionHypothesis fun listed => noSpace (List.mem_cons_of_mem c listed)]
      rfl

theorem dropSpacesAfter_chunk {chunk : List Char} (noSpace : ' ' ∉ chunk) (before : List Char) :
    dropSpacesAfter mark before chunk = chunk := by
  induction chunk generalizing before with
  | nil => rfl
  | cons c chunk inductionHypothesis =>
      have visible : c ≠ ' ' := fun same => noSpace (same ▸ List.mem_cons_self)
      rw [dropSpacesAfter, if_neg (fun both => visible both.1),
        inductionHypothesis fun listed => noSpace (List.mem_cons_of_mem c listed)]

theorem dropSpacesBefore_woven (space : ' ' ∉ mark) (short : mark.length = 1 ∨ joins = apart)
    {chunks : List (List Char)} (areChunks : ∀ chunk ∈ chunks, Chunk chunk) :
    dropSpacesBefore mark (woven joins chunks) =
      woven (fun front back => joins front back || mark.isPrefixOf back) chunks := by
  induction chunks with
  | nil => rfl
  | cons chunk rest inductionHypothesis =>
      have noSpace := (areChunks chunk List.mem_cons_self).no_space
      cases rest with
      | nil =>
          have whole := @dropSpacesBefore_chunk mark chunk noSpace []
          rwa [List.append_nil, dropSpacesBefore, List.append_nil] at whole
      | cons next rest =>
          have isNext := areChunks next (by simp)
          have later := inductionHypothesis fun chunk listed =>
            areChunks chunk (List.mem_cons_of_mem _ listed)
          rw [woven, woven, dropSpacesBefore_chunk noSpace, ← later]
          by_cases joined : joins chunk next = true
          · rw [if_pos joined, if_pos (by rw [joined, Bool.true_or])]
            rfl
          · rw [if_neg joined, List.singleton_append, dropSpacesBefore,
              isPrefixOf_woven space short isNext, Bool.eq_false_iff.mpr joined, Bool.false_or]
            by_cases starts : mark.isPrefixOf next = true
            · rw [if_pos ⟨rfl, starts⟩, if_pos starts]
              rfl
            · rw [if_neg fun both => starts both.2, if_neg starts]
              rfl

/-- Only the chunk that has just been read tells whether a mark ends there. -/
theorem dropSpacesAfter_woven (space : ' ' ∉ mark)
    (long : ∀ front back, Chunk back → joins front back = true → mark.length ≤ back.length)
    {chunk : List Char} {rest : List (List Char)} (areChunks : ∀ other ∈ chunk :: rest, Chunk other)
    {before : List Char}
    (told : mark.reverse.isPrefixOf (chunk.reverse ++ before) = mark.isSuffixOf chunk) :
    dropSpacesAfter mark before (woven joins (chunk :: rest)) =
      woven (fun front back => joins front back || mark.isSuffixOf front) (chunk :: rest) := by
  induction rest generalizing chunk before with
  | nil => exact dropSpacesAfter_chunk (areChunks chunk List.mem_cons_self).no_space before
  | cons next rest inductionHypothesis =>
      have noSpace := (areChunks chunk List.mem_cons_self).no_space
      have isNext := areChunks next (by simp)
      have later {before : List Char} := @inductionHypothesis next
        (fun other listed => areChunks other (List.mem_cons_of_mem _ listed)) before
      have hidden : ' ' ∉ mark.reverse := by simpa using space
      rw [woven, woven, dropSpacesAfter_append, dropSpacesAfter_chunk noSpace]
      by_cases joined : joins chunk next = true
      · rw [if_pos joined, if_pos (by rw [joined, Bool.true_or]), List.nil_append, later]
        · rfl
        · exact isPrefixOf_append_of_le (by simpa using long chunk next isNext joined) _
      · have behindSpace : mark.reverse.isPrefixOf (next.reverse ++ ' ' :: (chunk.reverse ++ before)) =
            mark.isSuffixOf next := isPrefixOf_append_cons hidden _ _
        rw [if_neg joined, List.singleton_append, dropSpacesAfter, later behindSpace, told,
          Bool.eq_false_iff.mpr joined, Bool.false_or]
        by_cases ends : mark.isSuffixOf chunk = true
        · rw [if_pos ⟨rfl, ends⟩, if_pos ends]
          rfl
        · rw [if_neg fun both => ends both.2, if_neg ends]
          rfl

theorem closeUp_woven (space : ' ' ∉ mark) (short : mark.length = 1 ∨ joins = apart)
    {chunks : List (List Char)} (areChunks : ∀ chunk ∈ chunks, Chunk chunk) :
    closeUp (woven joins chunks) mark =
      woven (fun front back => joins front back || closes mark front back) chunks := by
  rw [closeUp, dropSpacesBefore_woven space short areChunks]
  cases chunks with
  | nil => rfl
  | cons chunk rest =>
      have long (front back : List Char) (isBack : Chunk back)
          (joined : (joins front back || mark.isPrefixOf back) = true) :
          mark.length ≤ back.length := by
        rcases short with single | rfl
        · rw [single]
          exact List.length_pos_iff.mpr isBack.nonempty
        · exact (List.isPrefixOf_iff_prefix.mp joined).length_le
      rw [dropSpacesAfter_woven space long areChunks (by rw [List.append_nil]; rfl)]
      simp only [closes, Bool.or_assoc]

end Closing

/-! ## The row of a text -/

/-- Collapsed text is a row of chunks; the first of them may go on with what stands in front. -/
theorem exists_collapseBlanks_woven (text : List Char) :
    (∃ chunks : List (List Char), (∀ chunk ∈ chunks, Chunk chunk) ∧
      collapseBlanks true text = chunks.flatMap (' ' :: ·)) ∧
    ∃ (start : List Char) (chunks : List (List Char)), (∀ c ∈ start, isBlank c = false) ∧
      (∀ chunk ∈ chunks, Chunk chunk) ∧
      collapseBlanks false text = start ++ chunks.flatMap (' ' :: ·) ∧
        (Flush text → text ≠ [] → start ≠ []) := by
  induction text with
  | nil => exact ⟨⟨[], nofun, rfl⟩, [], [], nofun, nofun, rfl, fun _ none => absurd rfl none⟩
  | cons c rest inductionHypothesis =>
      obtain ⟨⟨behind, areBehind, waiting⟩, start, chunks, visible, areChunks, read, _⟩ :=
        inductionHypothesis
      by_cases blank : isBlank c = true
      · rw [collapseBlanks, collapseBlanks, if_pos blank, if_pos blank]
        refine ⟨⟨behind, areBehind, waiting⟩, [], behind, nofun, areBehind, waiting, ?_⟩
        intro flush
        rw [flush_cons_iff.mp flush] at blank
        cases blank
      · rw [collapseBlanks, collapseBlanks, if_neg blank, if_neg blank, if_pos rfl,
          if_neg Bool.false_ne_true, read]
        have grown : ∀ other ∈ c :: start, isBlank other = false :=
          List.forall_mem_cons.mpr ⟨Bool.eq_false_iff.mpr blank, visible⟩
        refine ⟨⟨(c :: start) :: chunks, ?_, rfl⟩, c :: start, chunks, grown, areChunks, rfl, ?_⟩
        · exact List.forall_mem_cons.mpr ⟨⟨List.cons_ne_nil c start, grown⟩, areChunks⟩
        · intro _ _
          exact List.cons_ne_nil c start

theorem woven_apart (front : List Char) (chunks : List (List Char)) :
    woven apart (front :: chunks) = front ++ chunks.flatMap (' ' :: ·) := by
  induction chunks generalizing front with
  | nil => exact (List.append_nil front).symm
  | cons chunk chunks inductionHypothesis =>
      rw [woven, inductionHypothesis]
      rfl

/-- Compacting joins the chunks of a text at the closed marks. -/
theorem exists_woven (text : List Char) : ∃ chunks, (∀ chunk ∈ chunks, Chunk chunk) ∧
    normalizeBlanks text = woven apart chunks ∧ compactChars text = woven touches chunks := by
  have row : ∃ chunks, (∀ chunk ∈ chunks, Chunk chunk) ∧
      normalizeBlanks text = woven apart chunks := by
    by_cases empty : trimStart text = []
    · exact ⟨[], nofun, by rw [normalizeBlanks, empty]; rfl⟩
    · obtain ⟨_, start, chunks, visible, areChunks, read, begins⟩ :=
        exists_collapseBlanks_woven (trimStart text)
      have isStart : Chunk start := ⟨begins (trimStart_flush text) empty, visible⟩
      refine ⟨start :: chunks, List.forall_mem_cons.mpr ⟨isStart, areChunks⟩, ?_⟩
      rw [normalizeBlanks, read, woven_apart]
  obtain ⟨chunks, areChunks, normal⟩ := row
  refine ⟨chunks, areChunks, normal, ?_⟩
  rw [compactChars, normal, closedMarks, List.foldl_cons, List.foldl_cons, List.foldl_cons,
    List.foldl_nil, closeUp_woven (by decide) (.inr rfl) areChunks,
    closeUp_woven (by decide) (.inl rfl) areChunks, closeUp_woven (by decide) (.inl rfl) areChunks]
  congr 1
  funext front back
  simp [touches, closedMarks, apart, Bool.or_assoc]

/-! ## Marks beside spaces -/

/-- A colon between two spaces, with `::` behind it and no closed mark in front of it. -/
def LoneBefore (text : List Char) : Prop :=
  ∃ front back, text = front ++ ' ' :: ':' :: ' ' :: back ∧ [':', ':'] <+: back ∧
    ∀ mark ∈ closedMarks, ¬ mark <:+ front

/-- A colon between two spaces, with `::` in front of it and no closed mark behind it. -/
def LoneBehind (text : List Char) : Prop :=
  ∃ front back, text = front ++ ' ' :: ':' :: ' ' :: back ∧ [':', ':'] <:+ front ∧
    ∀ mark ∈ closedMarks, ¬ mark <+: back

theorem touches_eq_true_iff {front back : List Char} :
    touches front back = true ↔ ∃ mark ∈ closedMarks, mark <+: back ∨ mark <:+ front := by
  simp only [touches, closes, List.any_eq_true, Bool.or_eq_true, List.isPrefixOf_iff_prefix,
    List.isSuffixOf_iff_suffix]

theorem touches_eq_false_iff {front back : List Char} :
    touches front back = false ↔ ∀ mark ∈ closedMarks, ¬ mark <+: back ∧ ¬ mark <:+ front := by
  rw [← Bool.not_eq_true, touches_eq_true_iff]
  simp only [not_exists, not_and, not_or]

theorem no_space_of_mem_closedMarks : ∀ mark ∈ closedMarks, ' ' ∉ mark := by
  decide

theorem length_of_mem_closedMarks : ∀ mark ∈ closedMarks, mark = [':', ':'] ∨ mark.length = 1 := by
  decide

section Rows

variable {chunks : List (List Char)}

/-- Joining chunks puts a mark in front of a row only where a colon is joined to a chunk that starts with
`::`. -/
theorem prefix_woven_touches {mark next : List Char} {later : List (List Char)}
    (listed : mark ∈ closedMarks) (isNext : Chunk next)
    (starts : mark <+: woven touches (next :: later)) (absent : ¬ mark <+: next) :
    mark = [':', ':'] ∧ next = [':'] ∧
      ∃ after more, later = after :: more ∧ [':', ':'] <+: after := by
  obtain ⟨behind, row⟩ := exists_woven_cons touches next later
  have short : next.length < mark.length := by
    by_contra long
    rw [row, ← List.isPrefixOf_iff_prefix, isPrefixOf_append_of_le (Nat.not_lt.mp long),
      List.isPrefixOf_iff_prefix] at starts
    exact absent starts
  have some_ : 0 < next.length := List.length_pos_iff.mpr isNext.nonempty
  rcases length_of_mem_closedMarks mark listed with rfl | single
  · obtain ⟨c, rfl⟩ := List.length_eq_one_iff.mp (by simp at short; omega : next.length = 1)
    cases later with
    | nil =>
        have long := starts.length_le
        simp [woven] at long
    | cons after more =>
        rw [woven, List.singleton_append, List.cons_prefix_cons] at starts
        obtain ⟨rfl, colon⟩ := starts
        refine ⟨rfl, rfl, after, more, rfl, ?_⟩
        by_cases joined : touches [':'] after = true
        · rw [if_pos joined, List.nil_append] at colon
          obtain ⟨mark, among, beside⟩ := touches_eq_true_iff.mp joined
          have notFront : ∀ mark ∈ closedMarks, ¬ mark <:+ [':'] := by decide
          have front := beside.resolve_right (notFront mark among)
          obtain ⟨rest, row⟩ := exists_woven_cons touches after more
          obtain ⟨tail, whole⟩ := front
          rw [row, ← whole] at colon
          -- the mark that joins the two starts with the colon
          simp only [closedMarks, List.mem_cons, List.not_mem_nil, or_false] at among
          rcases among with rfl | rfl | rfl
          · exact ⟨tail, whole⟩
          · simp at colon
          · simp at colon
        · rw [if_neg joined] at colon
          simp at colon
  · omega

/-- Without joints, all that a mark can reach is the last chunk. -/
theorem suffix_of_woven_apart {mark last : List Char} {earlier : List (List Char)}
    (listed : mark ∈ closedMarks) (ends : mark <:+ woven apart (earlier ++ [last])) : mark <:+ last := by
  cases earlier using List.reverseRecOn with
  | nil => exact ends
  | append_singleton earlier before _ =>
      rw [List.append_assoc, List.singleton_append, woven_concat, ← List.append_assoc] at ends
      change mark <:+ (woven apart (earlier ++ [before]) ++ [' ']) ++ last at ends
      have hidden : ' ' ∉ mark.reverse := by
        simpa using no_space_of_mem_closedMarks mark listed
      rw [← List.reverse_prefix] at ends ⊢
      simp only [List.reverse_append, List.reverse_singleton, List.singleton_append] at ends
      rw [← List.isPrefixOf_iff_prefix] at ends ⊢
      rwa [isPrefixOf_append_cons hidden] at ends

/-- A space in front of a mark has been left in front of a lone colon. -/
theorem loneBefore_of_space (areChunks : ∀ chunk ∈ chunks, Chunk chunk) {mark : List Char}
    (listed : mark ∈ closedMarks) (inside : ' ' :: mark <:+: woven touches chunks) :
    mark = [':', ':'] ∧ LoneBefore (woven apart chunks) := by
  obtain ⟨before, rest, whole⟩ := inside
  have split : woven touches chunks = before ++ ' ' :: (mark ++ rest) := by
    rw [← whole]
    simp
  obtain ⟨earlier, last, next, later, rfl, open_, _, behind⟩ := exists_split_of_space areChunks split
  have untouched := touches_eq_false_iff.mp open_
  have isNext := areChunks next (by simp)
  obtain ⟨rfl, rfl, after, more, rfl, doubled⟩ := prefix_woven_touches listed isNext
    ⟨rest, behind⟩ (untouched mark listed).1
  refine ⟨rfl, woven apart (earlier ++ [last]), woven apart (after :: more), ?_, ?_, ?_⟩
  · rw [woven_append]
    rfl
  · obtain ⟨tail, row⟩ := exists_woven_cons apart after more
    rw [row]
    exact doubled.trans (List.prefix_append after tail)
  · intro mark listed ends
    exact (untouched mark listed).2 (suffix_of_woven_apart listed ends)

theorem space_of_loneBefore (areChunks : ∀ chunk ∈ chunks, Chunk chunk)
    (lone : LoneBefore (woven apart chunks)) : [' ', ':', ':'] <:+: woven touches chunks := by
  obtain ⟨front, back, split, doubled, unmarked⟩ := lone
  obtain ⟨earlier, last, next, later, rfl, _, first, second⟩ := exists_split_of_space areChunks split
  have areLater : ∀ chunk ∈ next :: later, Chunk chunk := by
    intro chunk listed
    exact areChunks chunk (by simp at listed ⊢; tauto)
  have colon : woven apart (next :: later) = [':'] ++ ' ' :: back := second.symm
  obtain ⟨between, single, after, more, row, _, alone, rest⟩ := exists_split_of_space areLater colon
  obtain rfl : between = [] := by
    -- two chunks would have a space between them
    cases between with
    | nil => rfl
    | cons chunk between =>
        have space : ' ' ∈ woven apart (chunk :: (between ++ [single])) := by
          cases between <;> simp [woven, apart]
        rw [← List.cons_append, ← alone] at space
        simp at space
  obtain ⟨same, rfl⟩ := List.cons.inj row
  obtain rfl : next = [':'] := same.trans alone.symm
  have isAfter := areLater after (by simp)
  have starts : [':', ':'] <+: after := by
    rwa [rest, ← List.isPrefixOf_iff_prefix, isPrefixOf_woven (by decide) (.inr rfl) isAfter,
      List.isPrefixOf_iff_prefix] at doubled
  have joined : touches [':'] after = true :=
    touches_eq_true_iff.mpr ⟨[':', ':'], by decide, .inl starts⟩
  have open_ : touches last [':'] = false := by
    refine touches_eq_false_iff.mpr fun mark listed => ⟨?_, fun ends => unmarked mark listed ?_⟩
    · have notFront : ∀ mark ∈ closedMarks, ¬ mark <+: [':'] := by decide
      exact notFront mark listed
    · rw [first]
      exact ends.trans (suffix_woven_concat earlier last)
  obtain ⟨tail, spelled⟩ := starts
  obtain ⟨more, row⟩ := exists_woven_cons touches after more
  rw [woven_append, open_, woven, joined, row, ← spelled]
  exact ⟨woven touches (earlier ++ [last]), ':' :: (tail ++ more), by simp⟩

end Rows

/-! ## The other side -/

theorem woven_reverse (joins : List Char → List Char → Bool) (chunks : List (List Char)) :
    (woven joins chunks).reverse =
      woven (fun front back => joins back.reverse front.reverse) (chunks.map List.reverse).reverse := by
  induction chunks with
  | nil => rfl
  | cons chunk rest inductionHypothesis =>
      cases rest with
      | nil => rfl
      | cons next rest =>
          rw [woven, List.reverse_append, List.reverse_append, inductionHypothesis]
          simp only [List.map_cons, List.reverse_cons, List.append_assoc, List.singleton_append]
          rw [woven_concat, List.reverse_reverse, List.reverse_reverse]
          split <;> rfl

theorem reverse_of_mem_closedMarks : ∀ mark ∈ closedMarks, mark.reverse = mark := by
  decide

theorem touches_reverse (front back : List Char) :
    touches back.reverse front.reverse = touches front back := by
  rw [Bool.eq_iff_iff, touches_eq_true_iff, touches_eq_true_iff]
  refine exists_congr fun mark => and_congr_right fun listed => ?_
  rw [← reverse_of_mem_closedMarks mark listed, List.reverse_prefix, List.reverse_suffix,
    reverse_of_mem_closedMarks mark listed]
  exact or_comm

theorem woven_touches_reverse (chunks : List (List Char)) : (woven touches chunks).reverse =
    woven touches (chunks.map List.reverse).reverse := by
  rw [woven_reverse]
  congr 1
  funext front back
  exact touches_reverse front back

theorem areChunks_reverse {chunks : List (List Char)} (areChunks : ∀ chunk ∈ chunks, Chunk chunk) :
    ∀ chunk ∈ (chunks.map List.reverse).reverse, Chunk chunk := by
  intro chunk listed
  obtain ⟨chunk, among, rfl⟩ := List.mem_map.mp (List.mem_reverse.mp listed)
  have isChunk := areChunks chunk among
  exact ⟨by simpa using isChunk.nonempty, fun c member => isChunk.visible c (List.mem_reverse.mp member)⟩

theorem loneBefore_reverse {text : List Char} : LoneBefore text.reverse ↔ LoneBehind text := by
  have turned {front back : List Char} :
      (front ++ ' ' :: ':' :: ' ' :: back).reverse =
        back.reverse ++ ' ' :: ':' :: ' ' :: front.reverse := by
    simp
  constructor
  · rintro ⟨front, back, split, doubled, unmarked⟩
    refine ⟨back.reverse, front.reverse, ?_, List.reverse_suffix.mpr doubled, ?_⟩
    · rw [← turned, ← split, List.reverse_reverse]
    · intro mark listed ends
      rw [← reverse_of_mem_closedMarks mark listed, List.reverse_prefix] at ends
      exact unmarked mark listed ends
  · rintro ⟨front, back, rfl, doubled, unmarked⟩
    refine ⟨back.reverse, front.reverse, turned, List.reverse_prefix.mpr doubled, ?_⟩
    intro mark listed ends
    rw [← reverse_of_mem_closedMarks mark listed, List.reverse_suffix] at ends
    exact unmarked mark listed ends

theorem loneBehind_of_space {chunks : List (List Char)} (areChunks : ∀ chunk ∈ chunks, Chunk chunk)
    {mark : List Char} (listed : mark ∈ closedMarks) (inside : mark ++ [' '] <:+: woven touches chunks) :
    mark = [':', ':'] ∧ LoneBehind (woven apart chunks) := by
  rw [← loneBefore_reverse, woven_reverse]
  apply loneBefore_of_space (areChunks_reverse areChunks) listed
  rw [← woven_touches_reverse, ← List.reverse_infix, List.reverse_reverse, List.reverse_cons,
    reverse_of_mem_closedMarks mark listed]
  exact inside

theorem space_of_loneBehind {chunks : List (List Char)} (areChunks : ∀ chunk ∈ chunks, Chunk chunk)
    (lone : LoneBehind (woven apart chunks)) : [':', ':', ' '] <:+: woven touches chunks := by
  rw [← loneBefore_reverse, woven_reverse] at lone
  have inside := space_of_loneBefore (areChunks_reverse areChunks) lone
  rwa [← woven_touches_reverse, ← List.reverse_infix, List.reverse_reverse] at inside

/-! ## The normal form -/

section Rows

variable {chunks : List (List Char)} {joins : List Char → List Char → Bool}

theorem filter_woven (joins : List Char → List Char → Bool)
    (areChunks : ∀ chunk ∈ chunks, Chunk chunk) :
    (woven joins chunks).filter (!isBlank ·) = chunks.flatten := by
  induction chunks with
  | nil => rfl
  | cons chunk rest inductionHypothesis =>
      have later := inductionHypothesis fun chunk listed =>
        areChunks chunk (List.mem_cons_of_mem _ listed)
      have here : chunk.filter (!isBlank ·) = chunk := by
        rw [List.filter_eq_self]
        intro c member
        rw [(areChunks chunk List.mem_cons_self).visible c member]
        rfl
      cases rest with
      | nil => rw [woven, here, List.flatten_singleton]
      | cons next rest =>
          have between : (if joins chunk next then [] else [' ']).filter (!isBlank ·) = [] := by
            split <;> rfl
          rw [woven, List.filter_append, List.filter_append, here, between, later, List.nil_append]
          rfl

theorem blank_of_mem_woven (areChunks : ∀ chunk ∈ chunks, Chunk chunk) :
    ∀ c ∈ woven joins chunks, isBlank c = true → c = ' ' := by
  induction chunks with
  | nil => exact nofun
  | cons chunk rest inductionHypothesis =>
      have later := inductionHypothesis fun chunk listed =>
        areChunks chunk (List.mem_cons_of_mem _ listed)
      have here : ∀ c ∈ chunk, isBlank c = true → c = ' ' := by
        intro c member blank
        rw [(areChunks chunk List.mem_cons_self).visible c member] at blank
        cases blank
      cases rest with
      | nil => exact here
      | cons next rest =>
          intro c member
          rw [woven, List.mem_append, List.mem_append] at member
          rcases member with member | member | member
          · exact here c member
          · split at member
            · cases member
            · exact fun _ => List.mem_singleton.mp member
          · exact later c member

theorem not_doubled_woven (areChunks : ∀ chunk ∈ chunks, Chunk chunk) :
    ¬ [' ', ' '] <:+: woven joins chunks := by
  rintro ⟨before, rest, whole⟩
  have split : woven joins chunks = before ++ ' ' :: (' ' :: rest) := by
    rw [← whole]
    simp
  obtain ⟨earlier, last, next, later, rfl, _, _, behind⟩ := exists_split_of_space areChunks split
  have isNext := areChunks next (by simp)
  obtain ⟨more, row⟩ := exists_woven_cons joins next later
  rw [row] at behind
  cases next with
  | nil => exact isNext.nonempty rfl
  | cons c next =>
      obtain ⟨rfl, _⟩ := List.cons.inj behind
      exact isNext.no_space List.mem_cons_self

/-- Joining two chunks shows. -/
theorem not_joined_of_woven_eq (areChunks : ∀ chunk ∈ chunks, Chunk chunk)
    (same : woven joins chunks = woven apart chunks) {earlier later : List (List Char)}
    {last next : List Char} (split : chunks = earlier ++ last :: next :: later) :
    joins last next = false := by
  induction chunks generalizing earlier with
  | nil => simp at split
  | cons chunk rest inductionHypothesis =>
      cases rest with
      | nil => cases earlier <;> simp at split
      | cons following rest =>
          have isFollowing := areChunks following (by simp)
          rw [woven, woven, List.append_cancel_left_eq] at same
          have open_ : joins chunk following = false := by
            by_contra joined
            obtain ⟨more, row⟩ := exists_woven_cons joins following rest
            rw [Bool.not_eq_false] at joined
            rw [joined, row] at same
            cases following with
            | nil => exact isFollowing.nonempty rfl
            | cons c following =>
                obtain ⟨rfl, _⟩ := List.cons.inj same
                exact isFollowing.no_space List.mem_cons_self
          rw [open_] at same
          cases earlier with
          | nil =>
              obtain ⟨rfl, behind⟩ := List.cons.inj split
              obtain ⟨rfl, _⟩ := List.cons.inj behind
              exact open_
          | cons other earlier =>
              exact inductionHypothesis
                (fun chunk listed => areChunks chunk (List.mem_cons_of_mem _ listed))
                (List.append_cancel_left same) (List.cons.inj split).2

end Rows

theorem filter_collapseBlanks (waiting : Bool) (text : List Char) :
    (collapseBlanks waiting text).filter (!isBlank ·) = text.filter (!isBlank ·) := by
  induction text generalizing waiting with
  | nil => rfl
  | cons c rest inductionHypothesis =>
      by_cases blank : isBlank c = true
      · rw [collapseBlanks, if_pos blank, inductionHypothesis,
          List.filter_cons_of_neg (by simp [blank])]
      · have kept : (c :: collapseBlanks false rest).filter (!isBlank ·) =
            (c :: rest).filter (!isBlank ·) := by
          rw [List.filter_cons_of_pos (by simpa using blank), inductionHypothesis,
            List.filter_cons_of_pos (by simpa using blank)]
        rw [collapseBlanks, if_neg blank]
        split
        · rw [List.filter_cons_of_neg (by decide), kept]
        · exact kept

/-- Compacting keeps what is visible. -/
theorem filter_compactChars (text : List Char) :
    (compactChars text).filter (!isBlank ·) = text.filter (!isBlank ·) := by
  obtain ⟨chunks, areChunks, normal, compacted⟩ := exists_woven text
  obtain ⟨front, split, blank⟩ := exists_trimStart_split text
  have gone : front.filter (!isBlank ·) = [] := by
    rw [List.filter_eq_nil_iff]
    intro c member
    simp [blank c member]
  conv_rhs => rw [split]
  rw [compacted, filter_woven touches areChunks, ← filter_woven apart areChunks, ← normal,
    normalizeBlanks, filter_collapseBlanks, List.filter_append, gone, List.nil_append]

/-- What holds of all compact texts. -/
theorem compactChars_spaces (text : List Char) :
    (∀ c ∈ compactChars text, isBlank c = true → c = ' ') ∧ ¬ [' ', ' '] <:+: compactChars text ∧
      ∀ mark ∈ closedMarks, mark ≠ [':', ':'] →
        ¬ ' ' :: mark <:+: compactChars text ∧ ¬ mark ++ [' '] <:+: compactChars text := by
  obtain ⟨chunks, areChunks, _, compacted⟩ := exists_woven text
  rw [compacted]
  refine ⟨blank_of_mem_woven areChunks, not_doubled_woven areChunks, ?_⟩
  intro mark listed other
  constructor
  · intro inside
    exact other (loneBefore_of_space areChunks listed inside).1
  · intro inside
    exact other (loneBehind_of_space areChunks listed inside).1

theorem singleSpaced_compactChars_iff (text : List Char) :
    SingleSpaced (compactChars text) ↔
      ¬ (LoneBefore (normalizeBlanks text) ∨ LoneBehind (normalizeBlanks text)) := by
  obtain ⟨spaces, single, _⟩ := compactChars_spaces text
  have flush := compactChars_flush text
  have ended := compactChars_ended text
  obtain ⟨chunks, areChunks, normal, compacted⟩ := exists_woven text
  rw [compacted] at spaces single flush ended ⊢
  rw [normal]
  have doubled : [':', ':'] ∈ closedMarks := by decide
  constructor
  · intro spaced
    rintro (lone | lone)
    · exact (spaced.marks _ doubled).1 (space_of_loneBefore areChunks lone)
    · exact (spaced.marks _ doubled).2 (space_of_loneBehind areChunks lone)
  · intro none_
    rw [not_or] at none_
    refine ⟨flush, ended, spaces, single, fun mark listed => ⟨fun inside => ?_, fun inside => ?_⟩⟩
    · exact none_.1 (loneBefore_of_space areChunks listed inside).2
    · exact none_.2 (loneBehind_of_space areChunks listed inside).2

/-- The texts that compacting leaves as they are. -/
theorem compactChars_eq_self_iff (text : List Char) : compactChars text = text ↔ SingleSpaced text := by
  refine ⟨fun same => ?_, compactChars_of_singleSpaced⟩
  obtain ⟨spaces, single, _⟩ := compactChars_spaces text
  have flush := compactChars_flush text
  have ended := compactChars_ended text
  rw [same] at spaces single flush ended
  have collapsed : normalizeBlanks text = text := by
    rw [normalizeBlanks, trimStart_of_flush flush]
    exact (collapseBlanks_eq_self ended spaces single).1
  obtain ⟨chunks, areChunks, normal, compacted⟩ := exists_woven text
  have row : text = woven apart chunks := collapsed.symm.trans normal
  have joined : woven touches chunks = woven apart chunks := by
    rw [← compacted, same, row]
  refine ⟨flush, ended, spaces, single, fun mark listed => ⟨?_, ?_⟩⟩
  · rintro ⟨before, rest, whole⟩
    have split : woven apart chunks = before ++ ' ' :: (mark ++ rest) := by
      rw [← row, ← whole]
      simp
    obtain ⟨earlier, last, next, later, places, _, _, behind⟩ := exists_split_of_space areChunks split
    have isNext := areChunks next (by rw [places]; simp)
    have untouched := touches_eq_false_iff.mp (not_joined_of_woven_eq areChunks joined places)
    apply (untouched mark listed).1
    rw [← List.isPrefixOf_iff_prefix, ← isPrefixOf_woven (no_space_of_mem_closedMarks mark listed)
      (.inr rfl) isNext later, ← behind, List.isPrefixOf_iff_prefix]
    exact List.prefix_append mark rest
  · rintro ⟨before, rest, whole⟩
    have split : woven apart chunks = (before ++ mark) ++ ' ' :: rest := by
      rw [← row, ← whole]
      simp
    obtain ⟨earlier, last, next, later, places, _, front, _⟩ := exists_split_of_space areChunks split
    have untouched := touches_eq_false_iff.mp (not_joined_of_woven_eq areChunks joined places)
    apply (untouched mark listed).2
    apply suffix_of_woven_apart listed
    rw [← front]
    exact List.suffix_append before mark

/-- Compact text has no blank at an end, single spaces only, and none beside a point or a question
mark; it is single spaced, and compacting it again leaves it as it is, unless a colon stands alone
beside `::`. -/
theorem compact_normal_iff (text : String) :
    (compact text).toList.filter (!isBlank ·) = text.toList.filter (!isBlank ·) ∧
    (Flush (compact text).toList ∧ Ended (compact text).toList ∧
      (∀ c ∈ (compact text).toList, isBlank c = true → c = ' ') ∧
      ¬ [' ', ' '] <:+: (compact text).toList ∧
      ∀ mark ∈ [['.'], ['?']], ¬ ' ' :: mark <:+: (compact text).toList ∧
        ¬ mark ++ [' '] <:+: (compact text).toList) ∧
    (SingleSpaced (compact text).toList ↔
      ¬ (LoneBefore (normalizeBlanks text.toList) ∨ LoneBehind (normalizeBlanks text.toList))) ∧
    (compact (compact text) = compact text ↔
      ¬ (LoneBefore (normalizeBlanks text.toList) ∨ LoneBehind (normalizeBlanks text.toList))) := by
  have chars : (compact text).toList = compactChars text.toList := String.toList_ofList
  obtain ⟨spaces, single, marks⟩ := compactChars_spaces text.toList
  have again : compact (compact text) = compact text ↔
      SingleSpaced (compactChars text.toList) := by
    rw [← compactChars_eq_self_iff, ← chars, ← String.toList_inj, compact, String.toList_ofList]
  rw [again, chars, singleSpaced_compactChars_iff]
  have others : ∀ mark ∈ [['.'], ['?']], mark ∈ closedMarks ∧ mark ≠ [':', ':'] := by decide
  refine ⟨filter_compactChars _, ⟨compactChars_flush _, compactChars_ended _, spaces, single, ?_⟩,
    Iff.rfl, Iff.rfl⟩
  intro mark listed
  exact marks mark (others mark listed).1 (others mark listed).2

/-- Not all compact texts are single spaced, and not all stay as they are. -/
theorem not_normal_compact : ¬ ∀ text : String,
    SingleSpaced (compact text).toList ∧ compact (compact text) = compact text := by
  intro normal
  have again := (normal "a : ::b").2
  revert again
  decide +kernel

end ProgramIdl.Text
