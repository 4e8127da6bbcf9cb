import Mathlib.Data.List.Basic
import ProgramIdl.Proofs.Declaration.SeedArrays
import ProgramIdl.Proofs.Declaration.Substitution
import ProgramIdl.Proofs.Text.Identifier
import ProgramIdl.Proofs.Text.QualifiedName
import ProgramIdl.Seed

/-!
# Texts that name a constant

A text names a constant if nothing is left of it but the constant's path when references are taken
off its front and conversions off its end.  Such a text means nothing to the readers of arrays, and
if a local name stands at its front, then that is the constant's name (`NamesConstant.frontName?_trim`).
-/

set_option autoImplicit false

namespace ProgramIdl

open ProgramIdl.Text

/-! ## What names a constant -/

theorem exists_conversions (limit : Nat) (text : List Char) :
    ∃ conversions : List (List Char), text = Seed.dropConversions limit text ++ conversions.flatten ∧
      ∀ conversion ∈ conversions, conversion ∈ Seed.conversions := by
  induction limit generalizing text with
  | zero => exact ⟨[], by simp [Seed.dropConversions], by simp⟩
  | succ limit inductionHypothesis =>
      rw [Seed.dropConversions]
      cases found : Seed.conversions.findSome? fun conversion => conversion.isSuffixOf? text with
      | none => exact ⟨[], by simp, by simp⟩
      | some rest =>
          obtain ⟨conversion, listed, ending⟩ := List.exists_of_findSome?_eq_some found
          obtain ⟨conversions, split, all⟩ := inductionHypothesis rest
          refine ⟨conversions ++ [conversion], ?_, ?_⟩
          · rw [List.flatten_append, ← List.append_assoc, ← split]
            simpa using (List.isSuffixOf?_eq_some_iff_append_eq.mp ending).symm
          · intro other member
            rcases List.mem_append.mp member with early | last
            · exact all other early
            · rw [List.mem_singleton.mp last]
              exact listed

/-- A conversion is a word behind a dot, and a pair of parentheses. -/
theorem conversion_eq : ∀ conversion ∈ Seed.conversions,
    conversion = conversion.take (conversion.length - 2) ++ ['(', ')'] ∧
      (∀ c ∈ conversion.take (conversion.length - 2), isPlain c = true) ∧
        conversion.head? = some '.' := by
  have all : ∀ conversion ∈ Seed.conversions,
      conversion = conversion.take (conversion.length - 2) ++ ['(', ')'] ∧
        (conversion.take (conversion.length - 2)).all isPlain = true ∧
          conversion.head? = some '.' := by decide
  intro conversion listed
  obtain ⟨whole, plain, dot⟩ := all conversion listed
  exact ⟨whole, List.all_eq_true.mp plain, dot⟩

theorem steady_conversions {conversions : List (List Char)}
    (all : ∀ conversion ∈ conversions, conversion ∈ Seed.conversions) :
    Steady conversions.flatten := by
  induction conversions with
  | nil => exact Steady.nil
  | cons conversion rest inductionHypothesis =>
      obtain ⟨shape, plain, _⟩ := conversion_eq conversion (all conversion List.mem_cons_self)
      have here : Steady conversion := by
        rw [shape]
        exact (steady_of_plain plain).append steady_parentheses
      rw [List.flatten_cons]
      exact here.append (inductionHypothesis fun other member =>
        all other (List.mem_cons_of_mem _ member))

theorem head?_conversions {conversions : List (List Char)}
    (all : ∀ conversion ∈ conversions, conversion ∈ Seed.conversions) :
    conversions.flatten = [] ∨ conversions.flatten.head? = some '.' := by
  cases conversions with
  | nil => exact .inl rfl
  | cons conversion rest =>
      obtain ⟨_, _, head⟩ := conversion_eq conversion (all conversion List.mem_cons_self)
      right
      rw [List.flatten_cons, List.head?_append, head]
      rfl

/-- A text that names a constant: references to it, its qualified name, and conversions of it,
perhaps behind a line break. -/
structure NamesConstant (text constant : List Char) where
  signs : List Char
  blanks : List Char
  path : List Char
  lineBreak : List Char
  conversions : List Char
  eq : trim text = signs ++ blanks ++ (path ++ (lineBreak ++ conversions))
  signs_eq : ∀ c ∈ signs, c = '&'
  blanks_blank : Blank blanks
  blanks_eq : signs = [] → blanks = []
  flush : Flush (path ++ (lineBreak ++ conversions))
  qualified : Qualified path constant
  lineBreak_eq : lineBreak = [] ∨ lineBreak = ['\n']
  steady : Steady conversions
  conversions_eq : conversions = [] ∨ conversions.head? = some '.'

theorem exists_dropFinalBreak (text : List Char) :
    ∃ lineBreak, text = dropFinalBreak text ++ lineBreak ∧
      (lineBreak = [] ∨ lineBreak = ['\n']) := by
  rw [dropFinalBreak]
  by_cases broken : text.getLast? = some '\n'
  · rw [if_pos broken]
    exact ⟨['\n'], (List.dropLast_append_getLast? '\n' broken).symm, .inr rfl⟩
  · rw [if_neg broken]
    exact ⟨[], by simp, .inl rfl⟩

theorem SeedTable.byteConstant?_trim (table : SeedTable) (text : String) :
    table.byteConstant? (.ofList (trim text.toList)) = table.byteConstant? text := by
  simp only [byteConstant?, Seed.subject, String.toList_ofList, dereference_trim]

theorem qualified_of_qualifiedName? {text name : List Char}
    (read : qualifiedName? text = some name) : Qualified (dropFinalBreak text) name := by
  rw [qualifiedName?] at read
  split at read
  · rename_i proper
    rw [← intercalate_pathSegments (dropFinalBreak text)]
    exact qualified_intercalate (by simpa using proper) read
  · cases read

theorem SeedTable.namesConstant {table : SeedTable} {text constant : String} {bytes : List UInt8}
    (found : table.byteConstant? text = some (constant, bytes)) :
    Nonempty (NamesConstant text.toList constant.toList) := by
  simp only [byteConstant?, Option.bind_eq_bind, Option.bind_eq_some_iff, Option.some.injEq,
    Prod.mk.injEq] at found
  obtain ⟨name, read, _, _, _, _, rfl, _⟩ := found
  obtain ⟨signs, blanks, trimmed, signsEq, blank, noSigns⟩ := exists_dereference_split text.toList
  obtain ⟨conversions, subjectSplit, all⟩ :=
    exists_conversions (dereference text.toList).length (dereference text.toList)
  obtain ⟨lineBreak, pathSplit, broken⟩ := exists_dropFinalBreak (Seed.subject text.toList)
  have whole : dropFinalBreak (Seed.subject text.toList) ++ (lineBreak ++ conversions.flatten) =
      dereference text.toList := by
    rw [← List.append_assoc, ← pathSplit, Seed.subject, ← subjectSplit]
  refine ⟨⟨signs, blanks, dropFinalBreak (Seed.subject text.toList), lineBreak,
    conversions.flatten, ?_, signsEq, blank, noSigns, ?_, ?_, broken, steady_conversions all,
    head?_conversions all⟩⟩
  · rw [whole, trimmed]
  · rw [whole]
    exact trim_flush _
  · rw [String.toList_ofList]
    exact qualified_of_qualifiedName? read

/-! ## How such a text stands in an array -/

theorem isPlain_of_qualified {path segment : List Char} (qualified : Qualified path segment) :
    ∀ c ∈ path, isPlain c = true := by
  induction qualified with
  | word _ letters => exact fun c member => isPlain_of_isWordChar (letters c member)
  | qualifier _ letters _ inductionHypothesis =>
      intro c member
      rcases List.mem_append.mp member with first | behind
      · exact isPlain_of_isWordChar (letters c first)
      · rcases List.mem_cons.mp behind with rfl | behind
        · decide
        · rcases List.mem_cons.mp behind with rfl | behind
          · decide
          · exact inductionHypothesis c behind

/-- An array opens where a text does, behind references. -/
theorem opensArray_append {signs blanks rest : List Char} (allSigns : ∀ c ∈ signs, c = '&')
    (blank : Blank blanks) (flush : Flush rest) (unsigned : rest.head? ≠ some '&') :
    opensArray (signs ++ blanks ++ rest) = (rest.head? = some '[' : Bool) := by
  rw [opensArray, dropWhile_signs allSigns blank unsigned, trimStart_append blank,
    trimStart_of_flush flush]

namespace NamesConstant

variable {text constant : List Char}

theorem head?_path (names : NamesConstant text constant) :
    ∃ c rest, names.path ++ (names.lineBreak ++ names.conversions) = c :: rest ∧
      isWordChar c = true := by
  obtain ⟨c, head, letter⟩ := names.qualified.head?
  obtain ⟨rest, split⟩ := List.head?_eq_some_iff.mp head
  exact ⟨c, _, by rw [split, List.cons_append], letter⟩

theorem trim_ne (names : NamesConstant text constant) : trim text ≠ [] := by
  obtain ⟨c, rest, split, _⟩ := names.head?_path
  rw [names.eq, split]
  simp

theorem steady_text (names : NamesConstant text constant) : Steady text := by
  obtain ⟨front, back, split, frontBlank, backBlank⟩ := exists_trim_split text
  have blankSteady {part : List Char} (blank : Blank part) : Steady part :=
    steady_of_plain fun c member => isPlain_of_isBlank (blank c member)
  have signs : Steady names.signs := by
    refine steady_of_plain fun c member => ?_
    rw [names.signs_eq c member]
    decide
  have lineBreak : Steady names.lineBreak := by
    rcases names.lineBreak_eq with none | one
    · rw [none]
      exact Steady.nil
    · rw [one]
      exact steady_of_plain (forall_mem_of_all (by decide))
  rw [split, names.eq]
  have path : Steady names.path := steady_of_plain (isPlain_of_qualified names.qualified)
  have front := (blankSteady frontBlank).append (signs.append (blankSteady names.blanks_blank))
  have behind := path.append (lineBreak.append names.steady)
  simpa using (front.append behind).append (blankSteady backBlank)

theorem opensArray_trim (names : NamesConstant text constant) :
    opensArray (trim text) = false := by
  obtain ⟨c, rest, split, letter⟩ := names.head?_path
  have flush : Flush (c :: rest) := by
    rw [← split]
    exact names.flush
  rw [names.eq, split, opensArray_append names.signs_eq names.blanks_blank flush
    (by simpa using ne_of_isWordChar letter (by decide))]
  simpa using ne_of_isWordChar letter (by decide)

/-! ## The local name that such a text could be -/

theorem span_conversions (names : NamesConstant text constant) :
    (names.lineBreak ++ names.conversions).takeWhile isWordChar = [] ∧
      (names.lineBreak ++ names.conversions).dropWhile isWordChar =
        names.lineBreak ++ names.conversions := by
  have noLetter : isWordChar '\n' = false ∧ isWordChar '.' = false := by decide
  rcases names.lineBreak_eq with none | one
  · rw [none, List.nil_append]
    rcases names.conversions_eq with empty | dot
    · rw [empty]
      exact ⟨rfl, rfl⟩
    · obtain ⟨rest, split⟩ := List.head?_eq_some_iff.mp dot
      rw [split]
      simp [noLetter.2]
  · rw [one]
    simp [noLetter.1]

end NamesConstant

/-- The first word of a qualified name is all of it, or one of several. -/
theorem span_of_qualified {path segment behind : List Char} (qualified : Qualified path segment)
    (stops : behind.takeWhile isWordChar = [] ∧ behind.dropWhile isWordChar = behind) :
    ((path ++ behind).takeWhile isWordChar = segment ∧
        (path ++ behind).dropWhile isWordChar = behind) ∨
      ∃ rest, (path ++ behind).dropWhile isWordChar = ':' :: ':' :: rest := by
  cases qualified with
  | word nonempty letters =>
      left
      rw [List.takeWhile_append_of_pos letters, List.dropWhile_append_of_pos letters, stops.1,
        stops.2, List.append_nil]
      exact ⟨rfl, rfl⟩
  | @qualifier first more segment nonempty letters _ =>
      right
      have colon : isWordChar ':' = false := by decide
      rw [List.append_assoc, List.dropWhile_append_of_pos letters, List.cons_append,
        List.dropWhile_cons_of_neg (by simp [colon])]
      exact ⟨_, rfl⟩

theorem splitReference_sign (rest : List Char) :
    (splitReference ('&' :: rest)).2 = trimStart rest ∨
      ∃ c more, trimStart rest = ['m', 'u', 't'] ++ c :: more ∧ isBlank c = true ∧
        (splitReference ('&' :: rest)).2 = trimStart more := by
  rw [splitReference, ← trimStart]
  split
  · rename_i c more found
    have split := List.isPrefixOf?_eq_some_iff_append_eq.mp found
    by_cases blank : isBlank c = true
    · rw [if_pos blank]
      exact .inr ⟨c, more, split.symm, blank, rfl⟩
    · rw [if_neg blank]
      exact .inl rfl
  · exact .inl rfl

namespace NamesConstant

variable {text constant : List Char}

/-- Where `mut` is split off a text that names a constant, no local name is left. -/
theorem trimStart_of_mut (names : NamesConstant text constant) {c : Char} {more : List Char}
    (split : names.path ++ (names.lineBreak ++ names.conversions) = ['m', 'u', 't'] ++ c :: more)
    (blank : isBlank c = true) : trimStart more = [] ∨ (trimStart more).head? = some '.' := by
  have noLetter := isWordChar_of_isBlank blank
  have letters : ∀ c ∈ ['m', 'u', 't'], isWordChar c = true :=
    forall_mem_of_all (by decide)
  have dropped : (['m', 'u', 't'] ++ c :: more).dropWhile isWordChar = c :: more := by
    rw [List.dropWhile_append_of_pos letters, List.dropWhile_cons_of_neg (by simp [noLetter])]
  rcases span_of_qualified names.qualified names.span_conversions with ⟨_, behind⟩ | ⟨rest, behind⟩
  · rw [split, dropped] at behind
    have conversions : more = names.conversions := by
      rcases names.lineBreak_eq with none | one
      · rw [none, List.nil_append] at behind
        rcases names.conversions_eq with empty | dot
        · rw [empty] at behind
          cases behind
        · rw [← behind] at dot
          obtain rfl := Option.some.inj dot
          exact absurd blank (by decide)
      · rw [one] at behind
        exact (List.cons.inj behind).2
    rw [conversions]
    rcases names.conversions_eq with empty | dot
    · rw [empty]
      exact .inl rfl
    · have flush : Flush names.conversions := by
        intro first head
        rw [dot] at head
        obtain rfl := Option.some.inj head
        decide
      rw [trimStart_of_flush flush]
      exact .inr dot
  · rw [split, dropped] at behind
    obtain rfl := (List.cons.inj behind).1
    exact absurd blank (by decide)

/-- A local name at the front stands where the constant's path stands. -/
theorem splitReference_eq (names : NamesConstant text constant) {c : Char} {rest : List Char}
    (target : (splitReference (trim text)).2 = c :: rest) (start : (c.isAlpha || c = '_') = true) :
    c :: rest = names.path ++ (names.lineBreak ++ names.conversions) := by
  have behind := names.eq
  obtain ⟨first, others, path, letter⟩ := names.head?_path
  cases signs : names.signs with
  | nil =>
      rw [signs, names.blanks_eq signs, List.nil_append, List.nil_append] at behind
      have unsigned : (trim text).head? ≠ some '&' := by
        rw [behind, path]
        exact fun same => ne_of_isWordChar letter (by decide) (Option.some.inj same)
      rw [splitReference_of_head? unsigned] at target
      rw [← target, behind]
  | cons sign more =>
      have isSign := names.signs_eq
      rw [signs] at behind isSign
      obtain rfl := isSign sign List.mem_cons_self
      rw [behind, List.cons_append, List.cons_append] at target
      cases more with
      | nil =>
          have start' : trimStart ([] ++ names.blanks ++
              (names.path ++ (names.lineBreak ++ names.conversions))) =
              names.path ++ (names.lineBreak ++ names.conversions) := by
            rw [List.nil_append, trimStart_append names.blanks_blank,
              trimStart_of_flush names.flush]
          rcases splitReference_sign ([] ++ names.blanks ++
            (names.path ++ (names.lineBreak ++ names.conversions))) with
            plain | ⟨blank, later, split, isBlank, mutable⟩
          · rw [← target, plain, start']
          · rw [start'] at split
            rw [target] at mutable
            rcases names.trimStart_of_mut split isBlank with empty | dot
            · rw [empty] at mutable
              cases mutable
            · rw [← mutable] at dot
              obtain rfl := Option.some.inj dot
              exact absurd start (by decide)
      | cons other later =>
          obtain rfl := isSign other (by simp)
          have flush : Flush ('&' :: later ++ names.blanks ++
              (names.path ++ (names.lineBreak ++ names.conversions))) :=
            flush_cons_iff.mpr (by decide)
          rcases splitReference_sign ('&' :: later ++ names.blanks ++
            (names.path ++ (names.lineBreak ++ names.conversions))) with
            plain | ⟨_, _, split, _, _⟩
          · rw [plain, trimStart_of_flush flush] at target
            obtain rfl := (List.cons.inj target).1
            exact absurd start (by decide)
          · rw [trimStart_of_flush flush] at split
            exact absurd (List.cons.inj split).1 (by decide)

theorem frontName?_trim (names : NamesConstant text constant) {name : String}
    (front : frontName? (.ofList (trim text)) = some name) : name = .ofList constant := by
  rw [frontName?, String.toList_ofList, Option.map_eq_some_iff] at front
  obtain ⟨leading, found, rfl⟩ := front
  obtain ⟨c, rest, split, start, taken, unqualified⟩ := exists_of_leadingName? found
  have target : (splitReference (trim text)).2 = c :: rest := by rw [split]
  rw [names.splitReference_eq target start] at taken unqualified
  rcases span_of_qualified names.qualified names.span_conversions with ⟨word, _⟩ | ⟨more, behind⟩
  · rw [taken, word]
  · rw [behind] at unqualified
    cases unqualified

end NamesConstant

end ProgramIdl
