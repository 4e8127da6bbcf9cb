import ProgramIdl.Proofs.Text.Trim

/-!
# Compact text, piece by piece

Compacting goes through a text from left to right, but a bracket or a comma keeps the two sides of it
apart: what stands on either side is compacted on its own, save for a space beside the mark
(`squeeze_append_cons`).
-/

set_option autoImplicit false

namespace ProgramIdl.Text

/-- At most one space. -/
def Gap (text : List Char) : Prop :=
  text = [] ∨ text = [' ']

theorem Gap.blank {text : List Char} (gap : Gap text) : Blank text := by
  rcases gap with rfl | rfl
  · exact nofun
  · intro c member
    rw [List.mem_singleton.mp member]
    decide

/-! ## Spaces beside one mark -/

section Mark

variable {mark : List Char} {c : Char}

theorem isPrefixOf_append_cons (absent : c ∉ mark) (text rest : List Char) :
    mark.isPrefixOf (text ++ c :: rest) = mark.isPrefixOf text := by
  induction mark generalizing text with
  | nil => simp
  | cons first mark inductionHypothesis =>
      have ne : first ≠ c := fun same => absent (same ▸ List.mem_cons_self)
      have later := inductionHypothesis fun member => absent (List.mem_cons_of_mem _ member)
      cases text with
      | nil => simp [List.isPrefixOf, ne]
      | cons other text => simp [List.isPrefixOf, later]

theorem dropSpacesBefore_append_cons (absent : c ∉ mark) (text rest : List Char) :
    dropSpacesBefore mark (text ++ c :: rest) =
      dropSpacesBefore mark text ++ dropSpacesBefore mark (c :: rest) := by
  induction text with
  | nil => rfl
  | cons other text inductionHypothesis =>
      rw [List.cons_append, dropSpacesBefore, isPrefixOf_append_cons absent, inductionHypothesis]
      conv_rhs => rw [dropSpacesBefore]
      by_cases dropped : other = ' ' ∧ mark.isPrefixOf text
      · rw [if_pos dropped, if_pos dropped]
      · rw [if_neg dropped, if_neg dropped, List.cons_append]

theorem dropSpacesAfter_append (before text rest : List Char) :
    dropSpacesAfter mark before (text ++ rest) =
      dropSpacesAfter mark before text ++ dropSpacesAfter mark (text.reverse ++ before) rest := by
  induction text generalizing before with
  | nil => rfl
  | cons other text inductionHypothesis =>
      have state : (other :: text).reverse ++ before = text.reverse ++ other :: before := by simp
      rw [List.cons_append, dropSpacesAfter, inductionHypothesis, state]
      conv_rhs => rw [dropSpacesAfter]
      by_cases dropped : other = ' ' ∧ mark.reverse.isPrefixOf before
      · rw [if_pos dropped, if_pos dropped]
      · rw [if_neg dropped, if_neg dropped, List.cons_append]

/-- What was read before a character that is not in the mark does not matter behind it. -/
theorem dropSpacesAfter_forget (absent : c ∉ mark) (read before text : List Char) :
    dropSpacesAfter mark (read ++ c :: before) text = dropSpacesAfter mark read text := by
  induction text generalizing read with
  | nil => rfl
  | cons other text inductionHypothesis =>
      have hidden : c ∉ mark.reverse := by simpa using absent
      have later := inductionHypothesis (other :: read)
      rw [List.cons_append] at later
      rw [dropSpacesAfter, isPrefixOf_append_cons hidden, later]
      conv_rhs => rw [dropSpacesAfter]

theorem dropSpacesAfter_cons (visible : c ≠ ' ') (absent : c ∉ mark) (before rest : List Char) :
    dropSpacesAfter mark before (c :: rest) = c :: dropSpacesAfter mark [] rest := by
  have forgotten := dropSpacesAfter_forget absent [] before rest
  rw [List.nil_append] at forgotten
  rw [dropSpacesAfter, if_neg (by simp [visible]), forgotten]

/-- A space in front of a visible character, or behind a mark. -/
theorem dropSpacesAfter_gap {gap : List Char} (isGap : Gap gap) (visible : c ≠ ' ')
    (absent : c ∉ mark) (before rest : List Char) :
    ∃ left, Gap left ∧ dropSpacesAfter mark before (gap ++ c :: rest) =
      left ++ c :: dropSpacesAfter mark [] rest := by
  rcases isGap with rfl | rfl
  · exact ⟨[], .inl rfl, dropSpacesAfter_cons visible absent before rest⟩
  · rw [List.singleton_append, dropSpacesAfter, dropSpacesAfter_cons visible absent]
    by_cases dropped : ' ' = ' ' ∧ mark.reverse.isPrefixOf before
    · rw [if_pos dropped]
      exact ⟨[], .inl rfl, rfl⟩
    · rw [if_neg dropped]
      exact ⟨[' '], .inr rfl, rfl⟩

theorem dropSpacesBefore_gap {gap : List Char} (isGap : Gap gap) (visible : c ≠ ' ')
    (absent : c ∉ mark) (nonempty : mark ≠ []) (rest : List Char) :
    dropSpacesBefore mark (gap ++ c :: rest) = gap ++ c :: dropSpacesBefore mark rest := by
  have here : dropSpacesBefore mark (c :: rest) = c :: dropSpacesBefore mark rest := by
    rw [dropSpacesBefore, if_neg (by simp [visible])]
  rcases isGap with rfl | rfl
  · exact here
  · have apart : mark.isPrefixOf (c :: rest) = false := by
      have start := isPrefixOf_append_cons absent [] rest
      rw [List.nil_append] at start
      rw [start]
      cases mark with
      | nil => exact absurd rfl nonempty
      | cons _ _ => rfl
    rw [List.singleton_append, dropSpacesBefore, if_neg (by simp [apart]), here]
    rfl

/-- A visible character that is not in the mark keeps its two sides apart. -/
theorem closeUp_append_cons {gap : List Char} (isGap : Gap gap) (visible : c ≠ ' ')
    (absent : c ∉ mark) (nonempty : mark ≠ []) (space : ' ' ∉ mark) (text rest : List Char) :
    ∃ left, Gap left ∧
      closeUp (text ++ (gap ++ c :: rest)) mark =
        closeUp text mark ++ (left ++ c :: closeUp rest mark) := by
  have split : dropSpacesBefore mark (text ++ (gap ++ c :: rest)) =
      dropSpacesBefore mark text ++ (gap ++ c :: dropSpacesBefore mark rest) := by
    rw [← dropSpacesBefore_gap isGap visible absent nonempty]
    rcases isGap with rfl | rfl
    · exact dropSpacesBefore_append_cons absent text rest
    · exact dropSpacesBefore_append_cons space text (c :: rest)
  obtain ⟨left, isLeft, behind⟩ := dropSpacesAfter_gap isGap visible absent
    ((dropSpacesBefore mark text).reverse ++ []) (dropSpacesBefore mark rest)
  refine ⟨left, isLeft, ?_⟩
  rw [closeUp, split, dropSpacesAfter_append, behind]
  rfl

end Mark

/-! ## Whole texts -/

/-- A text compacted without regard to blanks in front of it. -/
def squeeze (text : List Char) : List Char :=
  closedMarks.foldl closeUp (collapseBlanks false text)

theorem compactChars_eq_squeeze (text : List Char) :
    compactChars text = squeeze (trimStart text) := rfl

theorem collapseBlanks_append_cons {c : Char} (visible : isBlank c = false) (waiting : Bool)
    (text rest : List Char) : ∃ gap, Gap gap ∧ collapseBlanks waiting (text ++ c :: rest) =
      collapseBlanks waiting text ++ (gap ++ c :: collapseBlanks false rest) := by
  induction text generalizing waiting with
  | nil =>
      cases waiting with
      | true => exact ⟨[' '], .inr rfl, by simp [collapseBlanks, visible]⟩
      | false => exact ⟨[], .inl rfl, by simp [collapseBlanks, visible]⟩
  | cons other text inductionHypothesis =>
      rw [List.cons_append, collapseBlanks]
      conv in collapseBlanks waiting (other :: text) => rw [collapseBlanks]
      by_cases blank : isBlank other = true
      · rw [if_pos blank, if_pos blank]
        exact inductionHypothesis true
      · obtain ⟨gap, isGap, later⟩ := inductionHypothesis false
        refine ⟨gap, isGap, ?_⟩
        rw [if_neg blank, if_neg blank, later]
        split <;> rfl

/-- A character that closes nothing up keeps its two sides apart. -/
theorem squeeze_append_cons {c : Char} (visible : isBlank c = false)
    (apart : ∀ mark ∈ closedMarks, c ∉ mark) (text rest : List Char) :
    ∃ gap, Gap gap ∧ squeeze (text ++ c :: rest) = squeeze text ++ (gap ++ c :: squeeze rest) := by
  have notSpace : c ≠ ' ' := by
    rintro rfl
    exact absurd visible (by decide)
  obtain ⟨first, isFirst, collapsed⟩ := collapseBlanks_append_cons visible false text rest
  have marks : ∀ marks : List (List Char), (∀ mark ∈ marks, c ∉ mark ∧ mark ≠ [] ∧ ' ' ∉ mark) →
      ∀ gap, Gap gap → ∀ left right, ∃ last, Gap last ∧
        marks.foldl closeUp (left ++ (gap ++ c :: right)) =
          marks.foldl closeUp left ++ (last ++ c :: marks.foldl closeUp right) := by
    intro marks
    induction marks with
    | nil => exact fun _ gap isGap left right => ⟨gap, isGap, rfl⟩
    | cons mark marks inductionHypothesis =>
        intro proper gap isGap left right
        obtain ⟨absent, nonempty, space⟩ := proper mark List.mem_cons_self
        obtain ⟨next, isNext, closed⟩ :=
          closeUp_append_cons isGap notSpace absent nonempty space left right
        rw [List.foldl_cons, closed]
        exact inductionHypothesis (fun mark member => proper mark (List.mem_cons_of_mem _ member))
          next isNext _ _
  have proper : ∀ mark ∈ closedMarks, c ∉ mark ∧ mark ≠ [] ∧ ' ' ∉ mark := by
    intro mark member
    have fixed : ∀ mark ∈ closedMarks, mark ≠ [] ∧ ' ' ∉ mark := by decide
    exact ⟨apart mark member, fixed mark member⟩
  rw [squeeze, collapsed]
  exact marks closedMarks proper first isFirst _ _

/-! ## The ends of compact text -/

theorem closeUp_gap {mark gap : List Char} (isGap : Gap gap) (nonempty : mark ≠ [])
    (space : ' ' ∉ mark) (text : List Char) :
    ∃ left, Gap left ∧ closeUp (gap ++ text) mark = left ++ closeUp text mark := by
  rcases isGap with rfl | rfl
  · exact ⟨[], .inl rfl, rfl⟩
  · rw [List.singleton_append, closeUp, dropSpacesBefore]
    by_cases dropped : ' ' = ' ' ∧ mark.isPrefixOf text
    · rw [if_pos dropped]
      exact ⟨[], .inl rfl, rfl⟩
    · have kept : ¬ (' ' = ' ' ∧ mark.reverse.isPrefixOf [] = true) := by simpa using nonempty
      have forgotten := dropSpacesAfter_forget space [] [] (dropSpacesBefore mark text)
      rw [List.nil_append] at forgotten
      rw [if_neg dropped, dropSpacesAfter, if_neg kept, forgotten]
      exact ⟨[' '], .inr rfl, rfl⟩

theorem collapseBlanks_of_flush {text : List Char} (flush : Flush text) (waiting : Bool) :
    ∃ gap, Gap gap ∧ collapseBlanks waiting text = gap ++ collapseBlanks false text := by
  cases text with
  | nil => exact ⟨[], .inl rfl, rfl⟩
  | cons c rest =>
      have visible := flush_cons_iff.mp flush
      cases waiting with
      | true => exact ⟨[' '], .inr rfl, by simp [collapseBlanks, visible]⟩
      | false => exact ⟨[], .inl rfl, rfl⟩

/-- A run of blanks in front of a text is one with the blanks that have been read before it. -/
theorem collapseBlanks_eq_normalizeBlanks (waiting : Bool) (text : List Char) :
    ∃ gap, Gap gap ∧ collapseBlanks waiting text = gap ++ normalizeBlanks text := by
  induction text generalizing waiting with
  | nil => exact ⟨[], .inl rfl, rfl⟩
  | cons c rest inductionHypothesis =>
      by_cases blank : isBlank c = true
      · have skipped : normalizeBlanks (c :: rest) = normalizeBlanks rest := by
          rw [normalizeBlanks, trimStart, List.dropWhile_cons_of_pos blank]
          rfl
        rw [collapseBlanks, if_pos blank, skipped]
        exact inductionHypothesis true
      · rw [Bool.not_eq_true] at blank
        have flush : Flush (c :: rest) := flush_cons_iff.mpr blank
        rw [normalizeBlanks, trimStart_of_flush flush]
        exact collapseBlanks_of_flush flush waiting

/-- Blanks in front of a text leave at most a space. -/
theorem squeeze_eq_compactChars (text : List Char) :
    ∃ gap, Gap gap ∧ squeeze text = gap ++ compactChars text := by
  have marks : ∀ marks : List (List Char), (∀ mark ∈ marks, mark ≠ [] ∧ ' ' ∉ mark) →
      ∀ gap, Gap gap → ∀ rest, ∃ last, Gap last ∧
        marks.foldl closeUp (gap ++ rest) = last ++ marks.foldl closeUp rest := by
    intro marks
    induction marks with
    | nil => exact fun _ gap isGap rest => ⟨gap, isGap, rfl⟩
    | cons mark marks inductionHypothesis =>
        intro proper gap isGap rest
        obtain ⟨nonempty, space⟩ := proper mark List.mem_cons_self
        obtain ⟨next, isNext, closed⟩ := closeUp_gap isGap nonempty space rest
        rw [List.foldl_cons, closed]
        exact inductionHypothesis (fun mark member => proper mark (List.mem_cons_of_mem _ member))
          next isNext _
  obtain ⟨gap, isGap, collapsed⟩ := collapseBlanks_eq_normalizeBlanks false text
  rw [squeeze, collapsed, compactChars]
  exact marks closedMarks (by decide) gap isGap _

/-- A text that does not end in a blank. -/
def Ended (text : List Char) : Prop :=
  ∀ c, text.getLast? = some c → isBlank c = false

theorem ended_cons {c : Char} {rest : List Char} (ended : Ended rest)
    (alone : rest = [] → isBlank c = false) : Ended (c :: rest) := by
  intro last found
  cases rest with
  | nil =>
      obtain rfl := Option.some.inj found
      exact alone rfl
  | cons next rest => exact ended last (by rwa [List.getLast?_cons_cons] at found)

theorem collapseBlanks_ended (waiting : Bool) (text : List Char) :
    Ended (collapseBlanks waiting text) := by
  induction text generalizing waiting with
  | nil => exact nofun
  | cons c rest inductionHypothesis =>
      rw [collapseBlanks]
      by_cases blank : isBlank c = true
      · rw [if_pos blank]
        exact inductionHypothesis true
      · rw [Bool.not_eq_true] at blank
        have here := ended_cons (inductionHypothesis false) fun _ => blank
        rw [if_neg (by simp [blank])]
        split
        · exact ended_cons here fun none => absurd none (List.cons_ne_nil _ _)
        · exact here

theorem getLast?_dropSpacesBefore {mark text : List Char} {c : Char}
    (last : text.getLast? = some c) (visible : c ≠ ' ') :
    (dropSpacesBefore mark text).getLast? = some c := by
  induction text with
  | nil => cases last
  | cons other rest inductionHypothesis =>
      cases rest with
      | nil =>
          obtain rfl : other = c := by simpa using last
          simp [dropSpacesBefore, visible]
      | cons next rest =>
          rw [List.getLast?_cons_cons] at last
          have later := inductionHypothesis last
          rw [dropSpacesBefore]
          split
          · exact later
          · rw [List.getLast?_cons, later]
            rfl

theorem getLast?_dropSpacesAfter {mark text : List Char} {c : Char}
    (last : text.getLast? = some c) (visible : c ≠ ' ') (before : List Char) :
    (dropSpacesAfter mark before text).getLast? = some c := by
  induction text generalizing before with
  | nil => cases last
  | cons other rest inductionHypothesis =>
      cases rest with
      | nil =>
          obtain rfl : other = c := by simpa using last
          simp [dropSpacesAfter, visible]
      | cons next rest =>
          rw [List.getLast?_cons_cons] at last
          have later := inductionHypothesis last (other :: before)
          rw [dropSpacesAfter]
          split
          · exact later
          · rw [List.getLast?_cons, later]
            rfl

theorem closeUp_ended {text : List Char} (mark : List Char) (ended : Ended text) :
    Ended (closeUp text mark) := by
  cases last : text.getLast? with
  | none =>
      rw [List.getLast?_eq_none_iff.mp last]
      exact nofun
  | some c =>
      have visible : c ≠ ' ' := by
        rintro rfl
        exact absurd (ended ' ' last) (by decide)
      have kept : (dropSpacesAfter mark [] (dropSpacesBefore mark text)).getLast? = some c :=
        getLast?_dropSpacesAfter (getLast?_dropSpacesBefore last visible) visible []
      intro other found
      rw [closeUp, kept] at found
      obtain rfl := Option.some.inj found
      exact ended c last

/-- Compact text has no blank at its end. -/
theorem compactChars_ended (text : List Char) : Ended (compactChars text) := by
  have start : Ended (normalizeBlanks text) := collapseBlanks_ended false (trimStart text)
  exact closeUp_ended _ (closeUp_ended _ (closeUp_ended _ start))

/-- Trimming finds the compact form of a text in what is left of it inside a longer text. -/
theorem trim_squeeze_append {gap : List Char} (isGap : Gap gap) (text : List Char) :
    trim (squeeze text ++ gap) = compactChars text := by
  obtain ⟨front, isFront, split⟩ := squeeze_eq_compactChars text
  rw [split]
  exact trim_append isFront.blank isGap.blank (compactChars_flush text) (compactChars_ended text)

theorem collapseBlanks_append_blank {back : List Char} (blank : Blank back) (waiting : Bool)
    (text : List Char) : collapseBlanks waiting (text ++ back) = collapseBlanks waiting text := by
  induction text generalizing waiting with
  | nil =>
      induction back generalizing waiting with
      | nil => rfl
      | cons c back inductionHypothesis =>
          have later := inductionHypothesis
            (fun c member => blank c (List.mem_cons_of_mem _ member)) true
          change (if isBlank c then collapseBlanks true back else _) = []
          rw [if_pos (blank c List.mem_cons_self)]
          exact later
  | cons c rest inductionHypothesis =>
      rw [List.cons_append, collapseBlanks, collapseBlanks, inductionHypothesis, inductionHypothesis]

/-- Blanks at the ends of a text leave nothing. -/
theorem normalizeBlanks_append {front back : List Char} (frontBlank : Blank front)
    (backBlank : Blank back) (text : List Char) :
    normalizeBlanks (front ++ text ++ back) = normalizeBlanks text := by
  obtain ⟨start, split, startBlank⟩ := exists_trimStart_split text
  have flush := trimStart_flush text
  have whole : trimStart (front ++ text ++ back) = trimStart (trimStart text ++ back) := by
    conv_lhs => rw [split]
    rw [List.append_assoc, trimStart_append frontBlank, List.append_assoc,
      trimStart_append startBlank]
  rw [normalizeBlanks, normalizeBlanks, whole]
  cases kept : trimStart text with
  | nil =>
      have nothing := trimStart_append backBlank []
      rw [List.append_nil] at nothing
      rw [List.nil_append, nothing]
      rfl
  | cons c rest =>
      rw [kept] at flush
      have flushAll : Flush (c :: rest ++ back) := flush_cons_iff.mpr (flush_cons_iff.mp flush)
      rw [trimStart_of_flush flushAll, collapseBlanks_append_blank backBlank]

theorem compactChars_append {front back : List Char} (frontBlank : Blank front)
    (backBlank : Blank back) (text : List Char) :
    compactChars (front ++ text ++ back) = compactChars text := by
  rw [compactChars, compactChars, normalizeBlanks_append frontBlank backBlank]

/-! ## What compacting leaves -/

theorem mem_dropSpacesBefore {mark text : List Char} {c : Char}
    (member : c ∈ dropSpacesBefore mark text) : c ∈ text := by
  induction text with
  | nil => exact member
  | cons other rest inductionHypothesis =>
      rw [dropSpacesBefore] at member
      split at member
      · exact List.mem_cons_of_mem other (inductionHypothesis member)
      · rcases List.mem_cons.mp member with rfl | later
        · exact List.mem_cons_self
        · exact List.mem_cons_of_mem other (inductionHypothesis later)

theorem mem_dropSpacesAfter {mark before text : List Char} {c : Char}
    (member : c ∈ dropSpacesAfter mark before text) : c ∈ text := by
  induction text generalizing before with
  | nil => exact member
  | cons other rest inductionHypothesis =>
      rw [dropSpacesAfter] at member
      split at member
      · exact List.mem_cons_of_mem other (inductionHypothesis member)
      · rcases List.mem_cons.mp member with rfl | later
        · exact List.mem_cons_self
        · exact List.mem_cons_of_mem other (inductionHypothesis later)

theorem mem_collapseBlanks {waiting : Bool} {text : List Char} {c : Char}
    (member : c ∈ collapseBlanks waiting text) : c = ' ' ∨ c ∈ text := by
  induction text generalizing waiting with
  | nil => cases member
  | cons other rest inductionHypothesis =>
      have later {waiting : Bool} (behind : c ∈ collapseBlanks waiting rest) :
          c = ' ' ∨ c ∈ other :: rest :=
        (inductionHypothesis behind).imp_right (List.mem_cons_of_mem other)
      rw [collapseBlanks] at member
      split at member
      · exact later member
      · split at member
        · rcases List.mem_cons.mp member with rfl | member
          · exact .inl rfl
          · rcases List.mem_cons.mp member with rfl | member
            · exact .inr List.mem_cons_self
            · exact later member
        · rcases List.mem_cons.mp member with rfl | member
          · exact .inr List.mem_cons_self
          · exact later member

/-- No character but a space is new in compact text. -/
theorem mem_squeeze {text : List Char} {c : Char} (member : c ∈ squeeze text) :
    c = ' ' ∨ c ∈ text := by
  have closed {mark rest : List Char} (inside : c ∈ closeUp rest mark) : c ∈ rest :=
    mem_dropSpacesBefore (mem_dropSpacesAfter inside)
  exact mem_collapseBlanks (closed (closed (closed member)))

/-! ## Texts that compacting leaves as they are -/

/-- Every blank is a single space, and none stands at an end or beside a closed mark. -/
structure SingleSpaced (text : List Char) : Prop where
  flush : Flush text
  ended : Ended text
  spaces : ∀ c ∈ text, isBlank c = true → c = ' '
  single : ¬ [' ', ' '] <:+: text
  marks : ∀ mark ∈ closedMarks, ¬ ' ' :: mark <:+: text ∧ ¬ mark ++ [' '] <:+: text

theorem Ended.of_cons {c : Char} {rest : List Char} (ended : Ended (c :: rest)) : Ended rest := by
  intro last found
  cases rest with
  | nil => cases found
  | cons next rest => exact ended last (by rwa [List.getLast?_cons_cons])

theorem collapseBlanks_eq_self {text : List Char} (ended : Ended text)
    (spaces : ∀ c ∈ text, isBlank c = true → c = ' ') (single : ¬ [' ', ' '] <:+: text) :
    collapseBlanks false text = text ∧
      (text ≠ [] → Flush text → collapseBlanks true text = ' ' :: text) := by
  induction text with
  | nil => exact ⟨rfl, fun nonempty => absurd rfl nonempty⟩
  | cons c rest inductionHypothesis =>
      have later := inductionHypothesis ended.of_cons
        (fun c member => spaces c (List.mem_cons_of_mem _ member))
        (fun infix_ => single (infix_.trans (List.suffix_cons c rest).isInfix))
      by_cases blank : isBlank c = true
      · obtain rfl := spaces c List.mem_cons_self blank
        have nonempty : rest ≠ [] := by
          rintro rfl
          exact absurd (ended ' ' rfl) (by decide)
        have flush : Flush rest := by
          intro next head
          by_contra nextBlank
          rw [Bool.not_eq_false] at nextBlank
          obtain ⟨more, rfl⟩ := List.head?_eq_some_iff.mp head
          obtain rfl := spaces next (by simp) nextBlank
          exact single ⟨[], more, rfl⟩
        refine ⟨?_, fun _ flushAll => ?_⟩
        · rw [collapseBlanks, if_pos blank, later.2 nonempty flush]
        · rw [flush_cons_iff.mp flushAll] at blank
          cases blank
      · rw [collapseBlanks, collapseBlanks, if_neg blank, if_neg blank, later.1]
        exact ⟨rfl, fun _ _ => rfl⟩

theorem dropSpacesBefore_eq_self {mark text : List Char} (apart : ¬ ' ' :: mark <:+: text) :
    dropSpacesBefore mark text = text := by
  induction text with
  | nil => rfl
  | cons c rest inductionHypothesis =>
      have kept : ¬ (c = ' ' ∧ mark.isPrefixOf rest = true) := by
        rintro ⟨rfl, start⟩
        obtain ⟨more, rfl⟩ := List.isPrefixOf_iff_prefix.mp start
        exact apart ⟨[], more, rfl⟩
      rw [dropSpacesBefore, if_neg kept, inductionHypothesis fun infix_ =>
        apart (infix_.trans (List.suffix_cons c rest).isInfix)]

theorem dropSpacesAfter_eq_self {mark before text : List Char}
    (apart : ¬ mark ++ [' '] <:+: before.reverse ++ text) :
    dropSpacesAfter mark before text = text := by
  induction text generalizing before with
  | nil => rfl
  | cons c rest inductionHypothesis =>
      have kept : ¬ (c = ' ' ∧ mark.reverse.isPrefixOf before = true) := by
        rintro ⟨rfl, start⟩
        obtain ⟨more, rfl⟩ := List.isPrefixOf_iff_prefix.mp start
        exact apart ⟨more.reverse, rest, by simp⟩
      rw [dropSpacesAfter, if_neg kept, inductionHypothesis (by simpa using apart)]

theorem compactChars_of_singleSpaced {text : List Char} (spaced : SingleSpaced text) :
    compactChars text = text := by
  have collapsed : normalizeBlanks text = text := by
    rw [normalizeBlanks, trimStart_of_flush spaced.flush]
    exact (collapseBlanks_eq_self spaced.ended spaced.spaces spaced.single).1
  have closed : ∀ mark ∈ closedMarks, closeUp text mark = text := by
    intro mark listed
    obtain ⟨before, after⟩ := spaced.marks mark listed
    have apart : ¬ mark ++ [' '] <:+: List.reverse [] ++ text := after
    rw [closeUp, dropSpacesBefore_eq_self before, dropSpacesAfter_eq_self apart]
  rw [compactChars, collapsed, closedMarks, List.foldl_cons, List.foldl_cons, List.foldl_cons,
    List.foldl_nil, closed _ (by decide), closed _ (by decide), closed _ (by decide)]

/-- A text without blanks is compact. -/
theorem compactChars_of_visible {text : List Char} (visible : ∀ c ∈ text, isBlank c = false) :
    compactChars text = text := by
  have noSpace : ' ' ∉ text := fun listed => by
    have blank := visible ' ' listed
    cases blank
  have absent (part : List Char) (space : ' ' ∈ part) : ¬ part <:+: text := fun inside =>
    noSpace (inside.subset space)
  apply compactChars_of_singleSpaced
  refine ⟨fun c first => visible c (List.mem_of_head? first),
    fun c last => visible c (List.mem_of_getLast? last), ?_, absent _ (by simp), fun mark _ =>
      ⟨absent _ (by simp), absent _ (by simp)⟩⟩
  intro c listed blank
  rw [visible c listed] at blank
  cases blank

end ProgramIdl.Text
