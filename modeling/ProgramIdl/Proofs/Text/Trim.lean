import Mathlib.Data.List.DropRight
import ProgramIdl.Text.Compact

/-!
# What trimming takes away

Trimming takes blanks off a text, dereferencing blanks and `&` signs, and compacting never leaves a
blank in front.  Each is described by what stands around the text that remains.
-/

set_option autoImplicit false

namespace ProgramIdl.Text

/-- The members of a list are tested one by one: characters are too many to test them all. -/
theorem forall_mem_of_all {α : Type} {property : α → Prop} [DecidablePred property]
    {values : List α} (all : values.all (fun value => decide (property value)) = true) :
    ∀ value ∈ values, property value :=
  fun value listed => of_decide_eq_true (List.all_eq_true.mp all value listed)

/-- The part of a text that satisfies a condition, in front of a character that does not. -/
theorem takeWhile_front {p : Char → Bool} {text rest : List Char} (all : text.all p = true)
    (stops : rest.head?.any p = false) : (text ++ rest).takeWhile p = text := by
  rw [List.takeWhile_append_of_pos fun c listed => List.all_eq_true.mp all c listed]
  cases rest with
  | nil => simp
  | cons c rest =>
      have here : p c = false := by simpa using stops
      rw [List.takeWhile_cons_of_neg (by simp [here]), List.append_nil]

theorem dropWhile_front {p : Char → Bool} {text rest : List Char} (all : text.all p = true)
    (stops : rest.head?.any p = false) : (text ++ rest).dropWhile p = rest := by
  have split := List.takeWhile_append_dropWhile (p := p) (l := text ++ rest)
  rw [takeWhile_front all stops] at split
  exact List.append_cancel_left split

/-- A text of blanks. -/
def Blank (text : List Char) : Prop :=
  ∀ c ∈ text, isBlank c = true

/-- A text with no blank in front. -/
def Flush (text : List Char) : Prop :=
  ∀ c, text.head? = some c → isBlank c = false

theorem flush_cons_iff {c : Char} {rest : List Char} : Flush (c :: rest) ↔ isBlank c = false := by
  simp [Flush]

theorem Flush.nil_of_blank {front rest : List Char} (flush : Flush (front ++ rest))
    (blank : Blank front) : front = [] := by
  cases front with
  | nil => rfl
  | cons c front =>
      have here := flush c rfl
      rw [blank c List.mem_cons_self] at here
      cases here

/-! ## Blanks at the ends -/

theorem exists_trimStart_split (text : List Char) :
    ∃ front, text = front ++ trimStart text ∧ Blank front :=
  ⟨text.takeWhile isBlank, List.takeWhile_append_dropWhile.symm, fun _ =>
    List.mem_takeWhile_imp⟩

theorem trimStart_flush (text : List Char) : Flush (trimStart text) := by
  intro c head
  have stopped := List.head?_dropWhile_not isBlank text
  rw [trimStart] at head
  rw [head] at stopped
  simpa using stopped

theorem trimStart_of_flush {text : List Char} (flush : Flush text) : trimStart text = text := by
  cases text with
  | nil => rfl
  | cons c rest =>
      rw [trimStart, List.dropWhile_cons_of_neg]
      simp [flush_cons_iff.mp flush]

theorem trimStart_append {front : List Char} (blank : Blank front) (rest : List Char) :
    trimStart (front ++ rest) = trimStart rest := by
  rw [trimStart, List.dropWhile_append_of_pos blank, trimStart]

/-- Blanks are taken off the front of a text up to its first visible character. -/
theorem trimStart_append_cons {c : Char} (visible : isBlank c = false) (text rest : List Char) :
    trimStart (text ++ c :: rest) = trimStart text ++ c :: rest := by
  obtain ⟨front, split, blank⟩ := exists_trimStart_split text
  have flush : Flush (trimStart text ++ c :: rest) := by
    intro first head
    cases kept : trimStart text with
    | nil =>
        rw [kept] at head
        exact Option.some.inj head ▸ visible
    | cons other more =>
        rw [kept] at head
        exact trimStart_flush text first (by rw [kept]; exact head)
  conv_lhs => rw [split]
  rw [List.append_assoc, trimStart_append blank, trimStart_of_flush flush]

theorem trimEnd_eq_rdropWhile (text : List Char) : trimEnd text = text.rdropWhile isBlank := rfl

theorem exists_trimEnd_split (text : List Char) :
    ∃ back, text = trimEnd text ++ back ∧ Blank back := by
  refine ⟨text.rtakeWhile isBlank, ?_, fun c member => List.mem_rtakeWhile_imp member⟩
  rw [trimEnd_eq_rdropWhile, List.rdropWhile_append_rtakeWhile]

theorem trimEnd_of_getLast? {text : List Char}
    (last : ∀ c, text.getLast? = some c → isBlank c = false) : trimEnd text = text := by
  rw [trimEnd_eq_rdropWhile, List.rdropWhile_eq_self_iff]
  intro nonempty
  have visible := last (text.getLast nonempty) (List.getLast?_eq_some_getLast nonempty)
  simp [visible]

/-- Blanks at the end are not taken off beyond a visible character. -/
theorem trimEnd_append {front rest : List Char} (visible : ∃ c ∈ rest, isBlank c = false) :
    trimEnd (front ++ rest) = front ++ trimEnd rest := by
  obtain ⟨c, listed, seen⟩ := visible
  have stops : (rest.reverse.dropWhile isBlank).isEmpty = false := by
    rw [List.isEmpty_eq_false_iff]
    intro none
    have blank := List.dropWhile_eq_nil_iff.mp none c (List.mem_reverse.mpr listed)
    rw [seen] at blank
    cases blank
  rw [trimEnd, List.reverse_append, List.dropWhile_append, stops]
  simp [trimEnd]

theorem exists_trimEnd_cons {c : Char} (visible : isBlank c = false) (rest : List Char) :
    ∃ more, trimEnd (c :: rest) = c :: more := by
  obtain ⟨back, split, blank⟩ := exists_trimEnd_split (c :: rest)
  cases ended : trimEnd (c :: rest) with
  | nil =>
      rw [ended, List.nil_append] at split
      have first := blank c (by rw [← split]; exact List.mem_cons_self)
      rw [visible] at first
      cases first
  | cons d more =>
      rw [ended, List.cons_append, List.cons.injEq] at split
      exact ⟨more, by rw [split.1]⟩

theorem getLast?_trimEnd (text : List Char) :
    ∀ c, (trimEnd text).getLast? = some c → isBlank c = false := by
  intro c last
  rw [trimEnd, List.getLast?_reverse] at last
  have stopped := List.head?_dropWhile_not isBlank text.reverse
  rw [last] at stopped
  simpa using stopped

theorem trim_flush (text : List Char) : Flush (trim text) := by
  intro c head
  obtain ⟨back, split, _⟩ := exists_trimEnd_split (trimStart text)
  refine trimStart_flush text c ?_
  rw [split, List.head?_append, ← trim, head]
  rfl

theorem trim_of_flush {text : List Char} (flush : Flush text) : trim text = trimEnd text := by
  rw [trim, trimStart_of_flush flush]

theorem exists_trim_split (text : List Char) :
    ∃ front back, text = front ++ trim text ++ back ∧ Blank front ∧ Blank back := by
  obtain ⟨front, startSplit, frontBlank⟩ := exists_trimStart_split text
  obtain ⟨back, endSplit, backBlank⟩ := exists_trimEnd_split (trimStart text)
  refine ⟨front, back, ?_, frontBlank, backBlank⟩
  rw [trim, List.append_assoc, ← endSplit, ← startSplit]

theorem trim_trim (text : List Char) : trim (trim text) = trim text := by
  rw [trim_of_flush (trim_flush text)]
  exact trimEnd_of_getLast? (getLast?_trimEnd (trimStart text))

/-- A text that is not blank at either end is what is left between blanks. -/
theorem trim_append {front middle back : List Char} (frontBlank : Blank front)
    (backBlank : Blank back) (flush : Flush middle)
    (last : ∀ c, middle.getLast? = some c → isBlank c = false) :
    trim (front ++ middle ++ back) = middle := by
  have ended : trimEnd (middle ++ back) = middle := by
    rw [trimEnd_eq_rdropWhile, List.rdropWhile, List.reverse_append,
      List.dropWhile_append_of_pos fun c member => backBlank c (List.mem_reverse.mp member)]
    exact trimEnd_of_getLast? last
  cases middle with
  | nil =>
      rw [List.append_nil, trim, trimStart_append frontBlank]
      have start := trimStart_append backBlank []
      rw [List.append_nil] at start
      rw [start]
      rfl
  | cons c rest =>
      have flushAll : Flush (c :: rest ++ back) := flush_cons_iff.mpr (flush_cons_iff.mp flush)
      rw [List.append_assoc, trim, trimStart_append frontBlank, trimStart_of_flush flushAll, ended]

/-- Blanks around a text are taken off first. -/
theorem trim_blanks {front back : List Char} (frontBlank : Blank front) (backBlank : Blank back)
    (text : List Char) : trim (front ++ text ++ back) = trim text := by
  obtain ⟨left, right, split, leftBlank, rightBlank⟩ := exists_trim_split text
  have whole : front ++ text ++ back = front ++ left ++ trim text ++ (right ++ back) := by
    conv_lhs => rw [split]
    simp only [List.append_assoc]
  rw [whole]
  refine trim_append ?_ ?_ (trim_flush text) (getLast?_trimEnd (trimStart text))
  · exact fun c member => (List.mem_append.mp member).elim (frontBlank c) (leftBlank c)
  · exact fun c member => (List.mem_append.mp member).elim (rightBlank c) (backBlank c)

/-! ## References -/

/-- In front of what a trimmed text refers to stand `&` signs, and blanks behind them. -/
theorem exists_dereference_split (text : List Char) :
    ∃ signs blanks, trim text = signs ++ blanks ++ dereference text ∧ (∀ c ∈ signs, c = '&') ∧
      Blank blanks ∧ (signs = [] → blanks = []) := by
  have split := List.takeWhile_append_dropWhile (p := (· == '&')) (l := trim text)
  obtain ⟨blanks, back, behind, frontBlank, backBlank⟩ :=
    exists_trim_split ((trim text).dropWhile (· == '&'))
  rw [← dereference] at behind
  have whole : trim text =
      (trim text).takeWhile (· == '&') ++ blanks ++ dereference text ++ back := by
    rw [List.append_assoc, List.append_assoc, ← List.append_assoc blanks, ← behind, split]
  -- No blank is left behind, as a trimmed text ends in none.
  have flushEnd : back = [] := by
    by_contra nonempty
    have last : (trim text).getLast? = some (back.getLast nonempty) := by
      rw [whole, List.getLast?_append_of_ne_nil _ nonempty,
        List.getLast?_eq_some_getLast nonempty]
    have visible := getLast?_trimEnd (trimStart text) _ last
    rw [backBlank _ (List.getLast_mem nonempty)] at visible
    cases visible
  rw [flushEnd, List.append_nil] at whole
  refine ⟨_, blanks, whole, ?_, frontBlank, ?_⟩
  · intro c member
    simpa using List.mem_takeWhile_imp member
  · intro none
    have flush := trim_flush text
    rw [whole, none, List.nil_append] at flush
    exact flush.nil_of_blank frontBlank

theorem dereference_trim (text : List Char) : dereference (trim text) = dereference text := by
  rw [dereference, trim_trim, dereference]

theorem dereference_blanks {front back : List Char} (frontBlank : Blank front)
    (backBlank : Blank back) (text : List Char) :
    dereference (front ++ text ++ back) = dereference text := by
  rw [dereference, trim_blanks frontBlank backBlank, dereference]

theorem dropWhile_signs {signs blanks rest : List Char} (allSigns : ∀ c ∈ signs, c = '&')
    (blank : Blank blanks) (unsigned : rest.head? ≠ some '&') :
    (signs ++ blanks ++ rest).dropWhile (· == '&') = blanks ++ rest := by
  rw [List.append_assoc, List.dropWhile_append_of_pos (by simpa using allSigns)]
  cases blanks with
  | nil =>
      cases rest with
      | nil => rfl
      | cons c rest => rw [List.nil_append, List.dropWhile_cons_of_neg (by simpa using unsigned)]
  | cons c blanks =>
      have visible : c ≠ '&' := by
        rintro rfl
        exact absurd (blank '&' List.mem_cons_self) (by decide)
      rw [List.cons_append, List.dropWhile_cons_of_neg (by simpa using visible)]

theorem dereference_append {signs blanks rest : List Char} (allSigns : ∀ c ∈ signs, c = '&')
    (blank : Blank blanks) (noSigns : signs = [] → blanks = []) (flush : Flush rest)
    (ended : ∀ c, rest.getLast? = some c → isBlank c = false) (unsigned : rest.head? ≠ some '&') (nonempty : rest ≠ []) :
    dereference (signs ++ blanks ++ rest) = rest := by
  have flushAll : Flush (signs ++ blanks ++ rest) := by
    cases signs with
    | nil =>
        rw [noSigns rfl]
        exact flush
    | cons sign signs =>
        rw [allSigns sign List.mem_cons_self]
        exact flush_cons_iff.mpr (by decide)
  have endedAll : ∀ c, (signs ++ blanks ++ rest).getLast? = some c → isBlank c = false := by
    intro c last
    rw [List.getLast?_append_of_ne_nil _ nonempty] at last
    exact ended c last
  have whole : trim (signs ++ blanks ++ rest) = signs ++ blanks ++ rest := by
    rw [trim_of_flush flushAll, trimEnd_of_getLast? endedAll]
  have inner : trim (blanks ++ rest ++ []) = rest := trim_append blank nofun flush ended
  rw [List.append_nil] at inner
  rw [dereference, whole, dropWhile_signs allSigns blank unsigned, inner]

/-! ## Cutting -/

/-- Of endings of which none ends another, only one comes off a text. -/
theorem findSome?_isSuffixOf? {endings : List (List Char)}
    (alone : ∀ ending ∈ endings, ∀ other ∈ endings, ending <:+ other → ending = other)
    {ending : List Char} (listed : ending ∈ endings) (text : List Char) :
    endings.findSome? (fun candidate => candidate.isSuffixOf? (text ++ ending)) = some text := by
  cases found : endings.findSome? fun candidate => candidate.isSuffixOf? (text ++ ending) with
  | none =>
      have absent := List.findSome?_eq_none_iff.mp found ending listed
      have present : ending.isSuffixOf? (text ++ ending) = some text :=
        List.isSuffixOf?_eq_some_iff_append_eq.mpr rfl
      rw [present] at absent
      cases absent
  | some rest =>
      obtain ⟨candidate, candidateListed, ends⟩ := List.exists_of_findSome?_eq_some found
      have whole := List.isSuffixOf?_eq_some_iff_append_eq.mp ends
      have same : candidate = ending := by
        rcases List.suffix_or_suffix_of_suffix ⟨rest, whole⟩ (List.suffix_append text ending)
          with short | long
        · exact alone candidate candidateListed ending listed short
        · exact (alone ending listed candidate candidateListed long).symm
      rw [same] at whole
      rw [List.append_cancel_right whole]

theorem cutAt_eq_some {mark : Char} {text before after : List Char}
    (cut : cutAt mark text = some (before, after)) : text = before ++ mark :: after := by
  induction text generalizing before with
  | nil => cases cut
  | cons c rest inductionHypothesis =>
      rw [cutAt] at cut
      by_cases here : c = mark
      · rw [if_pos here] at cut
        obtain ⟨rfl, rfl⟩ := Prod.mk.inj (Option.some.inj cut)
        rw [here, List.nil_append]
      · rw [if_neg here, Option.map_eq_some_iff] at cut
        obtain ⟨⟨early, _⟩, later, same⟩ := cut
        obtain ⟨rfl, rfl⟩ := Prod.mk.inj same
        rw [inductionHypothesis later, List.cons_append]

theorem cutAt_append {mark : Char} {before : List Char} (absent : mark ∉ before)
    (after : List Char) : cutAt mark (before ++ mark :: after) = some (before, after) := by
  induction before with
  | nil => rw [List.nil_append, cutAt, if_pos rfl]
  | cons c before inductionHypothesis =>
      rw [List.mem_cons, not_or] at absent
      rw [List.cons_append, cutAt, if_neg (Ne.symm absent.1), inductionHypothesis absent.2]
      rfl

theorem cutAt_of_not_mem {mark : Char} {text : List Char} (absent : mark ∉ text) :
    cutAt mark text = none := by
  induction text with
  | nil => rfl
  | cons c text inductionHypothesis =>
      rw [List.mem_cons, not_or] at absent
      rw [cutAt, if_neg (Ne.symm absent.1), inductionHypothesis absent.2]
      rfl

/-! ## Compact text -/

theorem collapseBlanks_flush {text : List Char} (flush : Flush text) :
    Flush (collapseBlanks false text) := by
  cases text with
  | nil => simpa [collapseBlanks] using flush
  | cons c rest =>
      have visible := flush_cons_iff.mp flush
      rw [collapseBlanks, visible]
      exact flush_cons_iff.mpr visible

theorem closeUp_flush {text : List Char} (mark : List Char) (flush : Flush text) :
    Flush (closeUp text mark) := by
  cases text with
  | nil => simpa [closeUp, dropSpacesBefore, dropSpacesAfter] using flush
  | cons c rest =>
      have visible := flush_cons_iff.mp flush
      have ne : c ≠ ' ' := by
        rintro rfl
        exact absurd visible (by decide)
      rw [closeUp, dropSpacesBefore, if_neg (by simp [ne]), dropSpacesAfter,
        if_neg (by simp [ne])]
      exact flush_cons_iff.mpr visible

/-- Compact text has no blank in front. -/
theorem compactChars_flush (text : List Char) : Flush (compactChars text) := by
  have start : Flush (normalizeBlanks text) := collapseBlanks_flush (trimStart_flush text)
  exact closeUp_flush _ (closeUp_flush _ (closeUp_flush _ start))

theorem compact_flush (text : String) : Flush (compact text).toList := by
  rw [compact, String.toList_ofList]
  exact compactChars_flush text.toList

end ProgramIdl.Text
