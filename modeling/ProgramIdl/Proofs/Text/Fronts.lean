import ProgramIdl.Proofs.Text.Compact
import ProgramIdl.Proofs.Text.Identifier

/-!
# Words at the front of compact text

Compaction leaves a word at the front of a text as it is, and does not put it together with what
follows it.
-/

set_option autoImplicit false

namespace ProgramIdl.Text

/-- A word ends in front of the text. -/
def StopsWord (text : List Char) : Prop :=
  text.head?.any isWordChar = false

theorem takeWhile_word {word rest : List Char} (letters : ∀ c ∈ word, isWordChar c = true)
    (stops : StopsWord rest) : (word ++ rest).takeWhile isWordChar = word :=
  takeWhile_front (List.all_eq_true.mpr letters) stops

theorem dropWhile_word {word rest : List Char} (letters : ∀ c ∈ word, isWordChar c = true)
    (stops : StopsWord rest) : (word ++ rest).dropWhile isWordChar = rest :=
  dropWhile_front (List.all_eq_true.mpr letters) stops

theorem stopsWord_cons {c : Char} {rest : List Char} (mark : isWordChar c = false) :
    StopsWord (c :: rest) := by
  simpa [StopsWord] using mark

theorem StopsWord.takeWhile_append {behind : List Char} (stops : StopsWord behind)
    (front : List Char) :
    (front ++ behind).takeWhile isWordChar = front.takeWhile isWordChar := by
  induction front with
  | nil => exact @takeWhile_word [] _ nofun stops
  | cons c front inductionHypothesis =>
      rw [List.cons_append, List.takeWhile_cons, List.takeWhile_cons, inductionHypothesis]

theorem StopsWord.dropWhile_append {behind : List Char} (stops : StopsWord behind)
    (front : List Char) :
    (front ++ behind).dropWhile isWordChar = front.dropWhile isWordChar ++ behind := by
  induction front with
  | nil => exact @dropWhile_word [] _ nofun stops
  | cons c front inductionHypothesis =>
      rw [List.cons_append, List.dropWhile_cons, List.dropWhile_cons, inductionHypothesis]
      split <;> rfl

/-! ## Visible fronts -/

theorem collapseBlanks_append {front : List Char} (visible : ∀ c ∈ front, isBlank c = false)
    (rest : List Char) : collapseBlanks false (front ++ rest) = front ++ collapseBlanks false rest := by
  induction front with
  | nil => rfl
  | cons c front inductionHypothesis =>
      obtain ⟨first, others⟩ := List.forall_mem_cons.mp visible
      rw [List.cons_append, collapseBlanks, first, inductionHypothesis others]
      rfl

theorem dropSpacesBefore_append {front mark : List Char} (noSpace : ∀ c ∈ front, c ≠ ' ')
    (rest : List Char) :
    dropSpacesBefore mark (front ++ rest) = front ++ dropSpacesBefore mark rest := by
  induction front with
  | nil => rfl
  | cons c front inductionHypothesis =>
      obtain ⟨first, others⟩ := List.forall_mem_cons.mp noSpace
      rw [List.cons_append, dropSpacesBefore, if_neg (fun both => first both.1),
        inductionHypothesis others, List.cons_append]

theorem dropSpacesAfter_visible {front mark : List Char} (noSpace : ∀ c ∈ front, c ≠ ' ')
    (before : List Char) : dropSpacesAfter mark before front = front := by
  induction front generalizing before with
  | nil => rfl
  | cons c front inductionHypothesis =>
      obtain ⟨first, others⟩ := List.forall_mem_cons.mp noSpace
      rw [dropSpacesAfter, if_neg (fun both => first both.1), inductionHypothesis others]

/-- A front without spaces stays at the front. -/
theorem exists_closeUp_append {front mark : List Char} (noSpace : ∀ c ∈ front, c ≠ ' ')
    (rest : List Char) : ∃ behind, closeUp (front ++ rest) mark = front ++ behind := by
  rw [closeUp, dropSpacesBefore_append noSpace, dropSpacesAfter_append,
    dropSpacesAfter_visible noSpace]
  exact ⟨_, rfl⟩

/-- What stands behind a character that is not in the mark is closed up on its own. -/
theorem closeUp_append {front mark : List Char} {last : Char}
    (noSpace : ∀ c ∈ front ++ [last], c ≠ ' ') (absent : last ∉ mark) (rest : List Char) :
    closeUp (front ++ [last] ++ rest) mark = front ++ [last] ++ closeUp rest mark := by
  have forgotten := dropSpacesAfter_forget absent [] (front.reverse ++ [])
    (dropSpacesBefore mark rest)
  rw [closeUp, dropSpacesBefore_append noSpace, dropSpacesAfter_append,
    dropSpacesAfter_visible noSpace, List.reverse_append]
  exact congrArg (front ++ [last] ++ ·) forgotten

/-! ## Words -/

theorem ne_space_of_isWordChar {c : Char} (letter : isWordChar c = true) : c ≠ ' ' := by
  rintro rfl
  cases letter

theorem not_mem_closedMarks {c : Char} (letter : isWordChar c = true) :
    ∀ mark ∈ closedMarks, c ∉ mark := by
  have marks : ∀ d ∈ closedMarks.flatten, isWordChar d = false := forall_mem_of_all (by decide)
  intro mark listed inside
  rw [marks c (List.mem_flatten.mpr ⟨mark, listed, inside⟩)] at letter
  cases letter

theorem foldl_closeUp_append {front : List Char} {last : Char} {marks : List (List Char)}
    (noSpace : ∀ c ∈ front ++ [last], c ≠ ' ') (absent : ∀ mark ∈ marks, last ∉ mark)
    (rest : List Char) :
    marks.foldl closeUp (front ++ [last] ++ rest) =
      front ++ [last] ++ marks.foldl closeUp rest := by
  induction marks generalizing rest with
  | nil => rfl
  | cons mark marks inductionHypothesis =>
      obtain ⟨first, others⟩ := List.forall_mem_cons.mp absent
      rw [List.foldl_cons, closeUp_append noSpace first, inductionHypothesis others, List.foldl_cons]

/-- A visible front that ends with a character of no mark is set off from what follows it. -/
theorem squeeze_append {front : List Char} {last : Char}
    (visible : ∀ c ∈ front ++ [last], isBlank c = false) (absent : ∀ mark ∈ closedMarks, last ∉ mark)
    (rest : List Char) : squeeze (front ++ [last] ++ rest) = front ++ [last] ++ squeeze rest := by
  have noSpace : ∀ c ∈ front ++ [last], c ≠ ' ' := by
    rintro _ listed rfl
    cases visible ' ' listed
  rw [squeeze, collapseBlanks_append visible, foldl_closeUp_append noSpace absent]
  rfl

theorem squeeze_visible {c : Char} (visible : isBlank c = false)
    (absent : ∀ mark ∈ closedMarks, c ∉ mark) (rest : List Char) :
    squeeze (c :: rest) = c :: squeeze rest :=
  @squeeze_append [] c (by simpa using visible) absent rest

/-- A word at the front stays as it is, and what follows it is compacted on its own. -/
theorem squeeze_word {word : List Char} (some_ : word ≠ [])
    (letters : ∀ c ∈ word, isWordChar c = true) (rest : List Char) :
    squeeze (word ++ rest) = word ++ squeeze rest := by
  obtain ⟨front, last, rfl⟩ := (List.eq_nil_or_concat word).resolve_left some_
  rw [List.concat_eq_append] at letters ⊢
  refine squeeze_append (fun c listed => not_isBlank_of_isWordChar (letters c listed)) ?_ rest
  exact not_mem_closedMarks (letters last (by simp))

theorem compactChars_word {word : List Char} (some_ : word ≠ [])
    (letters : ∀ c ∈ word, isWordChar c = true) (rest : List Char) :
    compactChars (word ++ rest) = word ++ squeeze rest := by
  have flush : Flush (word ++ rest) := by
    intro c head
    rw [List.head?_append_of_ne_nil _ some_] at head
    exact not_isBlank_of_isWordChar (letters c (List.mem_of_head? head))
  rw [compactChars_eq_squeeze, trimStart_of_flush flush, squeeze_word some_ letters]

/-! ## What follows a word -/

theorem collapseBlanks_waiting (text : List Char) :
    collapseBlanks true text = [] ∨ ∃ rest, collapseBlanks true text = ' ' :: rest := by
  induction text with
  | nil => exact .inl rfl
  | cons c text inductionHypothesis =>
      rw [collapseBlanks]
      split
      · exact inductionHypothesis
      · exact .inr ⟨_, rfl⟩

theorem StopsWord.collapseBlanks {text : List Char} (stops : StopsWord text) :
    StopsWord (collapseBlanks false text) := by
  cases text with
  | nil => exact stops
  | cons c text =>
      rw [Text.collapseBlanks]
      split
      · rcases collapseBlanks_waiting text with none | ⟨rest, space⟩
        · rw [none]
          rfl
        · rw [space]
          exact stopsWord_cons (by decide)
      · exact stops

theorem StopsWord.closeUp {text mark : List Char} (stops : StopsWord text)
    (listed : mark ∈ closedMarks) : StopsWord (closeUp text mark) := by
  have proper : ∃ c rest, mark = c :: rest ∧ c ≠ ' ' ∧ isWordChar c = false := by
    have all : ∀ mark ∈ closedMarks, mark.head?.any (fun c => c ≠ ' ' && !isWordChar c) := by decide
    have here := all mark listed
    cases mark with
    | nil => cases here
    | cons c rest => exact ⟨c, rest, rfl, by simpa using here⟩
  obtain ⟨first, others, rfl, visible, noLetter⟩ := proper
  have before : StopsWord (dropSpacesBefore (first :: others) text) := by
    cases text with
    | nil => exact stops
    | cons c text =>
        rw [dropSpacesBefore]
        split
        · rename_i dropped
          cases text with
          | nil => cases dropped.2
          | cons d text =>
              have same : first = d ∧ others.isPrefixOf text = true := by simpa using dropped.2
              obtain ⟨rfl, _⟩ := same
              rw [dropSpacesBefore, if_neg (fun both => visible both.1)]
              exact stopsWord_cons noLetter
        · exact stops
  rw [Text.closeUp]
  cases found : dropSpacesBefore (first :: others) text with
  | nil => rfl
  | cons c rest =>
      rw [found] at before
      rw [dropSpacesAfter, if_neg (by simp)]
      exact before

theorem StopsWord.squeeze {text : List Char} (stops : StopsWord text) : StopsWord (squeeze text) := by
  have marks : ∀ marks : List (List Char), (∀ mark ∈ marks, mark ∈ closedMarks) →
      ∀ text, StopsWord text → StopsWord (marks.foldl Text.closeUp text) := by
    intro marks
    induction marks with
    | nil => exact fun _ _ stops => stops
    | cons mark marks inductionHypothesis =>
        intro listed text stops
        obtain ⟨first, others⟩ := List.forall_mem_cons.mp listed
        exact inductionHypothesis others _ (stops.closeUp first)
  exact marks closedMarks (fun _ listed => listed) _ stops.collapseBlanks

/-! ## The front of any text -/

theorem stopsWord_dropWhile (text : List Char) : StopsWord (text.dropWhile isWordChar) := by
  rw [StopsWord]
  cases found : text.dropWhile isWordChar with
  | nil => rfl
  | cons c rest =>
      have stopped := @List.head_dropWhile_not _ isWordChar text (by simp [found])
      simpa [found] using stopped

/-- Compaction keeps the word at the front of a text, if there is one. -/
theorem compactChars_eq {text : List Char} (flush : Flush text) :
    compactChars text = text.takeWhile isWordChar ++ squeeze (text.dropWhile isWordChar) := by
  have split : text.takeWhile isWordChar ++ text.dropWhile isWordChar = text :=
    List.takeWhile_append_dropWhile
  cases word : text.takeWhile isWordChar with
  | nil =>
      rw [word, List.nil_append] at split
      rw [split, compactChars_eq_squeeze, trimStart_of_flush flush, List.nil_append]
  | cons c more =>
      have letters : ∀ d ∈ c :: more, isWordChar d = true := by
        rw [← word]
        exact fun d listed => List.mem_takeWhile_imp listed
      rw [word] at split
      conv_lhs => rw [← split]
      exact compactChars_word (List.cons_ne_nil _ _) letters _

theorem takeWhile_compactChars {text : List Char} (flush : Flush text) :
    (compactChars text).takeWhile isWordChar = text.takeWhile isWordChar := by
  rw [compactChars_eq flush]
  exact takeWhile_word (fun c listed => List.mem_takeWhile_imp listed)
    (stopsWord_dropWhile text).squeeze

theorem dropWhile_compactChars {text : List Char} (flush : Flush text) :
    (compactChars text).dropWhile isWordChar = squeeze (text.dropWhile isWordChar) := by
  rw [compactChars_eq flush]
  exact dropWhile_word (fun c listed => List.mem_takeWhile_imp listed)
    (stopsWord_dropWhile text).squeeze

/-! ## Members and paths -/

theorem collapseBlanks_of_blank {blanks : List Char} (blank : Blank blanks) (waiting : Bool) :
    collapseBlanks waiting blanks = [] := by
  rw [← List.nil_append blanks, collapseBlanks_append_blank blank]
  rfl

/-- Blanks in front of a visible character leave at most a space. -/
theorem exists_collapseBlanks_gap {blanks : List Char} (blank : Blank blanks) {c : Char}
    (visible : isBlank c = false) (rest : List Char) :
    ∃ gap, Gap gap ∧ collapseBlanks false (blanks ++ c :: rest) =
      gap ++ c :: collapseBlanks false rest := by
  obtain ⟨gap, isGap, split⟩ := collapseBlanks_append_cons visible false blanks rest
  exact ⟨gap, isGap, by rw [split, collapseBlanks_of_blank blank, List.nil_append]⟩

/-- A mark of one character takes the spaces away that stand beside it. -/
theorem closeUp_gaps {mark c : Char} (isMark : mark ≠ ' ') (visible : c ≠ ' ') (other : c ≠ mark)
    {gap gap' : List Char} (before : Gap gap) (behind : Gap gap') (rest : List Char) :
    closeUp (gap ++ mark :: (gap' ++ c :: rest)) [mark] = mark :: c :: closeUp rest [mark] := by
  have absent : c ∉ [mark] := by simpa using other
  have front : closeUp (gap ++ mark :: (gap' ++ c :: rest)) [mark] =
      closeUp (mark :: (gap' ++ c :: rest)) [mark] := by
    rcases before with rfl | rfl
    · rfl
    · rw [closeUp, closeUp, List.singleton_append, dropSpacesBefore, if_pos ⟨rfl, by simp⟩]
  rw [front]
  rcases behind with rfl | rfl
  · exact @closeUp_append [mark] _ _ (by simp [isMark, visible]) absent rest
  · have kept : dropSpacesBefore [mark] (mark :: ' ' :: c :: rest) =
        mark :: ' ' :: c :: dropSpacesBefore [mark] rest := by
      simp [dropSpacesBefore, isMark, visible, other.symm]
    have forgotten := dropSpacesAfter_cons visible absent [' ', mark] (dropSpacesBefore [mark] rest)
    rw [closeUp, List.singleton_append, kept, dropSpacesAfter, if_neg (by simp [isMark]),
      dropSpacesAfter, if_pos ⟨rfl, by simp⟩, forgotten]
    rfl

/-- A point between words stands without blanks around it. -/
theorem squeeze_member {blanks blanks' : List Char} (before : Blank blanks) (behind : Blank blanks')
    {c : Char} (letter : isWordChar c = true) (rest : List Char) :
    squeeze (blanks ++ '.' :: (blanks' ++ c :: rest)) = '.' :: squeeze (c :: rest) := by
  have visible := not_isBlank_of_isWordChar letter
  have noSpace := ne_space_of_isWordChar letter
  have absent := not_mem_closedMarks letter
  obtain ⟨gap, isGap, first⟩ :=
    exists_collapseBlanks_gap before (c := '.') (by decide) (blanks' ++ c :: rest)
  obtain ⟨gap', isGap', second⟩ := exists_collapseBlanks_gap behind visible rest
  have alone : collapseBlanks false (c :: rest) = c :: collapseBlanks false rest := by
    rw [collapseBlanks, visible]
    rfl
  -- The double colon leaves the point as it is, and the point takes the spaces beside it away.
  obtain ⟨left, isLeft, colons⟩ := closeUp_append_cons isGap
    (by decide : '.' ≠ ' ') (by decide : '.' ∉ [':', ':']) (by decide) (by decide) []
    (gap' ++ c :: collapseBlanks false rest)
  obtain ⟨left', isLeft', more⟩ := closeUp_append_cons isGap' noSpace
    (absent [':', ':'] (by decide)) (by decide) (by decide) [] (collapseBlanks false rest)
  have point := closeUp_gaps (by decide) noSpace
    (List.mem_singleton.not.mp (absent ['.'] (by decide))) isLeft isLeft'
  have question := @closeUp_append ['.'] ['?'] c (by simp [noSpace]) (absent _ (by decide))
  have word := squeeze_visible visible absent rest
  rw [word]
  simp only [List.nil_append] at colons more
  have empty : closeUp [] [':', ':'] = [] := rfl
  rw [empty, List.nil_append] at colons more
  rw [squeeze, first, second]
  change closeUp (closeUp (closeUp _ [':', ':']) ['.']) ['?'] = _
  rw [colons, more, point]
  exact question _

/-- Blanks in front of a double colon are dropped. -/
theorem exists_squeeze_colons {blanks : List Char} (blank : Blank blanks) (rest : List Char) :
    ∃ behind, squeeze (blanks ++ ':' :: ':' :: rest) = ':' :: ':' :: behind := by
  have visible : ∀ c ∈ [':', ':'], c ≠ ' ' := by simp
  obtain ⟨gap, isGap, collapsed⟩ :=
    exists_collapseBlanks_gap blank (c := ':') (by decide) (':' :: rest)
  have next : collapseBlanks false (':' :: rest) = ':' :: collapseBlanks false rest := rfl
  have colons : ∃ behind, closeUp (gap ++ ':' :: ':' :: collapseBlanks false rest) [':', ':'] =
      [':', ':'] ++ behind := by
    rcases isGap with rfl | rfl
    · exact exists_closeUp_append visible _
    · rw [closeUp, List.singleton_append, dropSpacesBefore, if_pos ⟨rfl, rfl⟩]
      exact exists_closeUp_append visible _
  obtain ⟨first, colons⟩ := colons
  obtain ⟨second, points⟩ := @exists_closeUp_append _ ['.'] visible first
  obtain ⟨third, questions⟩ := @exists_closeUp_append _ ['?'] visible second
  refine ⟨third, ?_⟩
  rw [squeeze, collapsed, next]
  change closeUp (closeUp (closeUp _ _) _) _ = _
  rw [colons, points, questions]
  rfl

/-- A compact text starts with the first visible character of a text, or with a space in front of
it. -/
theorem head?_squeeze {blanks : List Char} (blank : Blank blanks) {c : Char}
    (visible : isBlank c = false) (rest : List Char) :
    (squeeze (blanks ++ c :: rest)).head? = some ' ' ∨
      (squeeze (blanks ++ c :: rest)).head? = some c := by
  have noSpace : c ≠ ' ' := by
    rintro rfl
    cases visible
  have closed (marks : List (List Char)) (proper : ∀ mark ∈ marks, mark ≠ [] ∧ ' ' ∉ mark)
      (gap behind : List Char) (isGap : Gap gap) :
      ∃ left more, Gap left ∧ marks.foldl closeUp (gap ++ c :: behind) = left ++ c :: more := by
    induction marks generalizing gap behind with
    | nil => exact ⟨gap, behind, isGap, rfl⟩
    | cons mark marks inductionHypothesis =>
        obtain ⟨⟨nonempty, space⟩, others⟩ := List.forall_mem_cons.mp proper
        obtain ⟨more, alone⟩ := @exists_closeUp_append [c] mark
          (by simpa using noSpace) behind
        obtain ⟨left, isLeft, next⟩ := closeUp_gap isGap nonempty space (c :: behind)
        rw [List.singleton_append] at alone
        rw [List.foldl_cons, next, alone]
        exact inductionHypothesis others left more isLeft
  obtain ⟨gap, isGap, collapsed⟩ := exists_collapseBlanks_gap blank visible rest
  obtain ⟨left, more, isLeft, same⟩ := closed closedMarks (by decide) gap _ isGap
  rw [squeeze, collapsed, same]
  rcases isLeft with rfl | rfl
  · exact .inr rfl
  · exact .inl rfl

theorem head?_squeeze_cons {c : Char} (visible : isBlank c = false) (rest : List Char) :
    (squeeze (c :: rest)).head? = some ' ' ∨ (squeeze (c :: rest)).head? = some c :=
  @head?_squeeze [] nofun _ visible rest

/-- What starts with no point does not start with one once it is compact. -/
theorem head?_squeeze_ne_point {front behind : List Char}
    (visible : ∀ c ∈ front, isBlank c = false ∧ c ≠ '.')
    (apart : front = [] → (squeeze behind).head? ≠ some '.') :
    (squeeze (front ++ behind)).head? ≠ some '.' := by
  cases front with
  | nil => exact apart rfl
  | cons c rest =>
      obtain ⟨seen, noPoint⟩ := visible c List.mem_cons_self
      rw [List.cons_append]
      rcases head?_squeeze_cons seen (rest ++ behind) with space | same
      · rw [space]
        exact nofun
      · rw [same]
        exact fun both => noPoint (Option.some.inj both)

end ProgramIdl.Text
