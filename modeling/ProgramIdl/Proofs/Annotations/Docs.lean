import Mathlib.Data.List.Forall2
import ProgramIdl.Annotations
import ProgramIdl.Proofs.Literal.Quotation
import ProgramIdl.Proofs.Text.Lines

/-!
# Three spellings of documentation

Documentation is written as comments of one line each, as one comment of many lines, or as the value of
an attribute.  All three are read as the lines that they spell, and what stands between them, be it a
plain comment or another attribute, adds no line (`Annotations.docs_spelled`).
-/

set_option autoImplicit false

namespace ProgramIdl

open ProgramIdl.Text

namespace Annotations

/-- Lines that every spelling keeps apart: trimmed ones without breaks, not empty at either end. -/
structure Clean (documented : List String) : Prop where
  nonempty : documented ≠ []
  trimmed : ∀ line ∈ documented, trim line.toList = line.toList
  unbroken : ∀ line ∈ documented, Unbroken line.toList
  first : documented.head? ≠ some ""
  last : documented.getLast? ≠ some ""

theorem Clean.head?_map_ne {documented : List String} (clean : Clean documented) :
    (documented.map String.toList).head? ≠ some [] := by
  rw [List.head?_map]
  intro empty
  obtain ⟨line, head, none⟩ := Option.map_eq_some_iff.mp empty
  rw [String.toList_eq_nil_iff.mp none] at head
  exact clean.first head

theorem Clean.getLast?_map_ne {documented : List String} (clean : Clean documented) :
    (documented.map String.toList).getLast? ≠ some [] := by
  rw [List.getLast?_map]
  intro empty
  obtain ⟨line, last, none⟩ := Option.map_eq_some_iff.mp empty
  rw [String.toList_eq_nil_iff.mp none] at last
  exact clean.last last

def lineNote (line : String) : String :=
  .ofList (['/', '/', '/', ' '] ++ line.toList)

/-- The body of a comment with a star in front of each line. -/
def starred (documented : List String) : List Char :=
  '\n' :: ((documented.map fun line => [' ', '*', ' '] ++ line.toList).flatMap
    (fun line => line ++ ['\n']) ++ [' '])

def blockNote (documented : List String) : String :=
  .ofList (['/', '*', '*'] ++ starred documented ++ ['*', '/'])

def attributeNote (feed : List Char) (documented : List String) : String :=
  .ofList (['#', '[', 'd', 'o', 'c', ' ', '=', ' '] ++
    Literal.quotation feed (['\n'].intercalate (documented.map String.toList)) ++ [']'])

/-! ## Blanks around a note -/

/-- Blanks around a note do not count. -/
theorem docLines_congr {note other : String} (same : trim note.toList = trim other.toList) :
    docLines note = docLines other := by
  simp only [docLines, Attribute.parse?, Attribute.sections?, same]

theorem visible_of_trimmed {line : List Char} (trimmed : trim line = line) :
    ∀ c, line.getLast? = some c → isBlank c = false := by
  intro c last
  rw [← trimmed] at last
  exact getLast?_trimEnd (trimStart line) c last

theorem blank_nil : Blank [] := by
  intro c listed
  cases listed

theorem trim_blank_cons (line : List Char) : trim (' ' :: line) = trim line := by
  have front : Blank [' '] := by
    intro c listed
    rw [List.mem_singleton.mp listed]
    decide
  have whole := trim_blanks front blank_nil line
  rwa [List.append_nil] at whole

/-- A text between visible characters is trimmed. -/
theorem trim_append_of_visible {first : Char} {front line : List Char}
    (visible : isBlank first = false) (nonempty : line ≠ []) (trimmed : trim line = line) :
    trim (first :: front ++ line) = first :: front ++ line := by
  rw [List.cons_append, trim_of_flush (flush_cons_iff.mpr visible)]
  apply trimEnd_of_getLast?
  intro c last
  rw [← List.cons_append, List.getLast?_append_of_ne_nil _ nonempty] at last
  exact visible_of_trimmed trimmed c last

/-! ## Comments of one line -/

theorem docLines_lineNote {line : String} (trimmed : trim line.toList = line.toList) :
    docLines (lineNote line) = [line] := by
  by_cases empty : line.toList = []
  · obtain rfl := String.toList_eq_nil_iff.mp empty
    decide
  · have whole : trim (lineNote line).toList = '/' :: '/' :: '/' :: (' ' :: line.toList) := by
      rw [lineNote, String.toList_ofList]
      exact trim_append_of_visible (by decide) empty trimmed
    rw [docLines, whole]
    simp [trim_blank_cons, trimmed, String.ofList_toList]

/-! ## Comments of many lines -/

theorem blockLine_starred {line : List Char} (trimmed : trim line = line) :
    blockLine ([' ', '*', ' '] ++ line) = line := by
  by_cases empty : line = []
  · subst empty
    decide
  · have star : trim ([' ', '*', ' '] ++ line) = '*' :: (' ' :: line) := by
      have inner : trim ('*' :: [' '] ++ line) = '*' :: [' '] ++ line :=
        trim_append_of_visible (by decide) empty trimmed
      exact (trim_blank_cons _).trans inner
    rw [blockLine, star]
    exact (trim_blank_cons line).trans trimmed

/-- Empty lines at the ends of a block are left out, and no others. -/
theorem blockLines_of_lines {body : List Char} {kept : List (List Char)} (nonempty : kept ≠ [])
    (first : kept.head? ≠ some []) (last : kept.getLast? ≠ some [])
    (read : (lines body).map blockLine = [] :: (kept ++ [[]])) : blockLines body = kept := by
  obtain ⟨line, rest, rfl⟩ := List.exists_cons_of_ne_nil nonempty
  have visible : line.isEmpty = false := by
    rw [List.isEmpty_eq_false_iff]
    intro empty
    exact first (congrArg some empty)
  have front : ([] :: (line :: rest ++ [[]])).dropWhile List.isEmpty = line :: rest ++ [[]] := by
    rw [List.dropWhile_cons_of_pos rfl, List.cons_append, List.dropWhile_cons_of_neg (by simp [visible])]
  have back : (line :: rest).reverse.dropWhile List.isEmpty = (line :: rest).reverse := by
    obtain ⟨early, final⟩ := List.getLast?_eq_some_iff.mp (List.getLast?_eq_some_getLast nonempty)
    have visibleToo : ((line :: rest).getLast nonempty).isEmpty = false := by
      rw [List.isEmpty_eq_false_iff]
      intro empty
      rw [List.getLast?_eq_some_getLast nonempty, empty] at last
      exact last rfl
    generalize (line :: rest).getLast nonempty = closing at final visibleToo
    rw [final, List.reverse_append, List.reverse_singleton, List.singleton_append,
      List.dropWhile_cons_of_neg (by simp [visibleToo])]
  rw [blockLines, read]
  simp only [front, List.reverse_append, List.reverse_singleton, List.singleton_append]
  rw [List.dropWhile_cons_of_pos rfl, back, List.reverse_reverse]

theorem blockLines_starred {documented : List String} (clean : Clean documented) :
    blockLines (starred documented) = documented.map String.toList := by
  have unbroken : ∀ line ∈ documented.map (fun line => [' ', '*', ' '] ++ line.toList),
      Unbroken line := by
    intro starredLine listed
    obtain ⟨line, among, rfl⟩ := List.mem_map.mp listed
    intro c inside
    rw [List.mem_append] at inside
    cases inside with
    | inl front =>
        have all : ∀ c ∈ [' ', '*', ' '], isLineBreak c = false := forall_mem_of_all (by decide)
        exact all c front
    | inr inside => exact clean.unbroken line among c inside
  apply blockLines_of_lines
  · simpa using clean.nonempty
  · exact clean.head?_map_ne
  · exact clean.getLast?_map_ne
  · have bare : lines [' '] = [[' ']] := by decide
    rw [starred, lines_break, lines_flatMap_append unbroken, bare, List.map_cons, List.map_append,
      List.map_map]
    congr 2
    apply List.map_congr_left
    intro line listed
    exact blockLine_starred (clean.trimmed line listed)

theorem docLines_blockNote {documented : List String} (clean : Clean documented) :
    docLines (blockNote documented) = documented := by
  have whole : trim (blockNote documented).toList =
      '/' :: '*' :: '*' :: (starred documented ++ ['*', '/']) := by
    rw [blockNote, String.toList_ofList]
    exact @trim_append_of_visible '/' (['*', '*'] ++ starred documented) ['*', '/'] (by decide)
      (by decide) (by decide)
  have body : (('/' :: '*' :: '*' :: (starred documented ++ ['*', '/'])).take
      (('/' :: '*' :: '*' :: (starred documented ++ ['*', '/'])).length - 2)).drop 3 =
        starred documented := by
    simp
  -- A line break follows the two stars, so the comment is no plain one.
  have opened : (starred documented ++ ['*', '/']).head? = some '\n' := rfl
  have closed : starred documented ++ ['*', '/'] ≠ ['/'] := by
    intro same
    rw [same] at opened
    cases opened
  rw [docLines, whole]
  simp only [opened, closed, body, blockLines_starred clean]
  simp [Function.comp_def, String.ofList_toList]

/-! ## Attributes with documentation -/

theorem sections?_doc {note : String} {value : List Char}
    (written : trim note.toList = ['#', '[', 'd', 'o', 'c', ' ', '='] ++ (value ++ [']'])) :
    Attribute.sections? note = some ("doc", trim ('=' :: value)) := by
  have path : ∀ c ∈ ['d', 'o', 'c'], Attribute.isPathChar c = true := forall_mem_of_all (by decide)
  have before : (['d', 'o', 'c'] ++ ' ' :: '=' :: (value ++ [']'])).takeWhile Attribute.isPathChar =
      ['d', 'o', 'c'] := by
    rw [List.takeWhile_append_of_pos path, List.takeWhile_cons_of_neg (by decide), List.append_nil]
  have behind : (['d', 'o', 'c'] ++ ' ' :: '=' :: (value ++ [']'])).dropWhile Attribute.isPathChar =
      ' ' :: '=' :: (value ++ [']']) := by
    rw [List.dropWhile_append_of_pos path, List.dropWhile_cons_of_neg (by decide)]
  have opening : trimStart ('[' :: (['d', 'o', 'c'] ++ ' ' :: '=' :: (value ++ [']']))) =
      '[' :: (['d', 'o', 'c'] ++ ' ' :: '=' :: (value ++ [']'])) :=
    trimStart_of_flush (flush_cons_iff.mpr (by decide))
  have start : trimStart (['d', 'o', 'c'] ++ ' ' :: '=' :: (value ++ [']'])) =
      ['d', 'o', 'c'] ++ ' ' :: '=' :: (value ++ [']']) :=
    trimStart_of_flush (flush_cons_iff.mpr (by decide))
  have sign : trimStart (' ' :: '=' :: (value ++ [']'])) = '=' :: (value ++ [']']) := by
    rw [trimStart, List.dropWhile_cons_of_pos (by decide), List.dropWhile_cons_of_neg (by decide)]
  have closing : ('=' :: (value ++ [']'])).reverse = ']' :: ('=' :: value).reverse := by simp
  have spelled : ['#', '[', 'd', 'o', 'c', ' ', '='] ++ (value ++ [']']) =
      '#' :: '[' :: (['d', 'o', 'c'] ++ ' ' :: '=' :: (value ++ [']'])) := rfl
  rw [Attribute.sections?, written, spelled]
  simp only [opening, start, before, behind, sign, closing, List.reverse_reverse]
  rfl

theorem parse?_doc {note : String} {value : List Char}
    (written : trim note.toList = ['#', '[', 'd', 'o', 'c', ' ', '='] ++ ((' ' :: value) ++ [']']))
    (nonempty : value ≠ []) (trimmed : trim value = value) :
    Attribute.parse? note = some { path := "doc", value := some (.ofList value) } := by
  have body : trim ('=' :: ' ' :: value) = '=' :: ' ' :: value :=
    @trim_append_of_visible '=' [' '] value (by decide) nonempty trimmed
  simp only [Attribute.parse?, sections?_doc written, Option.map_some, body, trim_blank_cons, trimmed]

theorem docLines_attributeNote {feed : List Char} (spells : Literal.SpellsFeed feed)
    {documented : List String} (clean : Clean documented) :
    docLines (attributeNote feed documented) = documented := by
  have unbroken : ∀ line ∈ documented.map String.toList, Unbroken line := by
    intro text listed
    obtain ⟨line, among, rfl⟩ := List.mem_map.mp listed
    exact clean.unbroken line among
  have last : (documented.map String.toList).getLast? ≠ some [] := clean.getLast?_map_ne
  generalize joined : ['\n'].intercalate (documented.map String.toList) = text
  have fallen : lines text = documented.map String.toList := by
    rw [← joined]
    exact lines_intercalate unbroken last
  generalize literal : Literal.quotation feed text = value
  have trimmed : trim value = value := by
    rw [← literal]
    exact Literal.trim_quotation feed text
  have read : Literal.string? (.ofList value) = some (.ofList text) := by
    rw [← literal]
    exact Literal.string?_quotation spells text
  have nonempty : value ≠ [] := by
    rw [← literal]
    exact List.cons_ne_nil _ _
  have whole : trim (attributeNote feed documented).toList =
      ['#', '[', 'd', 'o', 'c', ' ', '='] ++ ((' ' :: value) ++ [']']) := by
    rw [attributeNote, String.toList_ofList, joined, literal]
    exact @trim_append_of_visible '#' (['[', 'd', 'o', 'c', ' ', '=', ' '] ++ value) [']']
      (by decide) (by decide) (by decide)
  have parsed := parse?_doc whole nonempty trimmed
  have texts : (textLines text).map String.ofList = documented := by
    have kept : (documented.map String.toList).map trim = documented.map String.toList := by
      rw [List.map_map]
      apply List.map_congr_left
      intro line listed
      exact clean.trimmed line listed
    have some : lines text ≠ [] := by
      rw [fallen]
      simpa using clean.nonempty
    obtain ⟨line, rest, split⟩ := List.exists_cons_of_ne_nil some
    rw [textLines, split]
    simp only
    rw [← split, fallen, kept, List.map_map]
    simp [Function.comp_def, String.ofList_toList]
  have name : lastSegment "doc" = "doc" := by decide +kernel
  rw [docLines, whole]
  simp only [List.cons_append, parsed, Attribute.name, name, if_true, Option.bind_some, read, String.toList_ofList,
    texts]

/-! ## Notes that are no documentation -/

/-- A comment that is plain: documentation has exactly three slashes in front, or exactly two stars
behind its slash and something between them and the stars at its end. -/
inductive PlainComment : List Char → Prop where
  | line {body : List Char} (plain : ∀ rest, body = '/' :: rest → rest.head? = some '/') :
      PlainComment ('/' :: '/' :: body)
  | block {body : List Char} (plain : ∀ rest, body = '*' :: rest → rest = [] ∨ rest.head? = some '*') :
      PlainComment ('/' :: '*' :: (body ++ ['*', '/']))

/-- An attribute whose path ends in `doc` and whose value may be a string literal. -/
def DocAttribute (text : List Char) : Prop :=
  ∃ gap inner path behind value : List Char, Blank gap ∧ Blank inner ∧ Blank behind ∧
    (∀ c ∈ path, Attribute.isPathChar c = true) ∧ lastSegment (.ofList path) = "doc" ∧
      (trim value).head? ∈ [some '"', some 'r'] ∧
        text = '#' :: (gap ++ '[' :: (inner ++ path ++ behind ++ '=' :: value ++ [']']))

theorem docLines_plain {note : String} (plain : PlainComment (trim note.toList)) :
    docLines note = [] := by
  generalize spelled : trim note.toList = text at plain
  rw [docLines, spelled]
  cases plain with
  | @line body plain =>
      cases body with
      | nil => rfl
      | cons c rest =>
          by_cases slash : c = '/'
          · subst slash
            simp [plain rest rfl]
          · simp [slash]
  | @block body plain =>
      cases body with
      | nil => rfl
      | cons c rest =>
          by_cases star : c = '*'
          · subst star
            cases plain rest rfl with
            | inl none =>
                subst none
                rfl
            | inr more =>
                have head : (rest ++ ['*', '/']).head? = some '*' := by
                  rw [List.head?_append, more]
                  rfl
                simp [head]
          · simp [star]

theorem value_foldl_add (attr : Attribute) (parts : List Attribute.Argument) :
    (parts.foldl Attribute.add attr).value = attr.value := by
  induction parts generalizing attr with
  | nil => rfl
  | cons part parts inductionHypothesis =>
      rw [List.foldl_cons, inductionHypothesis]
      cases part with
      | pair key value => rfl
      | flag text => rfl

/-- The value of an attribute is what stands behind its equals sign. -/
theorem exists_sections_of_value {note value : String} {attr : Attribute}
    (parsed : Attribute.parse? note = some attr) (valued : attr.value = some value) :
    ∃ rest, Attribute.sections? note = some (attr.path, '=' :: rest) ∧ value = .ofList (trim rest) := by
  rw [Attribute.parse?, Option.map_eq_some_iff] at parsed
  obtain ⟨⟨path, body⟩, sections, read⟩ := parsed
  dsimp only at read
  split at read
  · rw [← read, value_foldl_add] at valued
    cases valued
  · subst read
    exact ⟨_, sections, (Option.some.inj valued).symm⟩
  · rw [← read] at valued
    cases valued

/-- An attribute is its path and its body, with blanks around both. -/
theorem exists_of_sections? {note path : String} {body : List Char}
    (read : Attribute.sections? note = some (path, body)) :
    ∃ gap inner behind after : List Char, Blank gap ∧ Blank inner ∧ Blank behind ∧ Blank after ∧
      (∀ c ∈ path.toList, Attribute.isPathChar c = true) ∧
        trim note.toList = '#' :: (gap ++ '[' ::
          (inner ++ path.toList ++ behind ++ body ++ after ++ [']'])) := by
  rw [Attribute.sections?] at read
  split at read
  · rename_i marked spelled
    split at read
    · rename_i bracketed opened
      dsimp only at read
      split at read
      · rename_i reversed closed
        split at read
        · cases read
        · obtain ⟨rfl, rfl⟩ := Prod.mk.inj (Option.some.inj read)
          obtain ⟨gap, gapSplit, gapBlank⟩ := exists_trimStart_split marked
          obtain ⟨inner, innerSplit, innerBlank⟩ := exists_trimStart_split bracketed
          obtain ⟨behind, behindSplit, behindBlank⟩ := exists_trimStart_split
            ((trimStart bracketed).dropWhile Attribute.isPathChar)
          obtain ⟨front, after, bodySplit, frontBlank, afterBlank⟩ := exists_trim_split reversed.reverse
          have ended := congrArg List.reverse closed
          rw [List.reverse_reverse, List.reverse_cons] at ended
          refine ⟨gap, inner, behind ++ front, after, gapBlank, innerBlank, ?_, afterBlank, ?_, ?_⟩
          · intro c listed
            exact (List.mem_append.mp listed).elim (behindBlank c) (frontBlank c)
          · intro c listed
            rw [String.toList_ofList] at listed
            exact List.mem_takeWhile_imp listed
          · have rest : trimStart bracketed =
                (trimStart bracketed).takeWhile Attribute.isPathChar ++
                  (behind ++ (front ++ trim reversed.reverse ++ after ++ [']'])) := by
              rw [← bodySplit, ← ended, ← behindSplit, List.takeWhile_append_dropWhile]
            have whole : marked = gap ++ '[' :: (inner ++ trimStart bracketed) := by
              rw [← innerSplit, ← opened, ← gapSplit]
            rw [spelled, whole, String.toList_ofList]
            conv_lhs => rw [rest]
            simp only [List.append_assoc]
      · cases read
    · cases read
  · cases read

/-- A literal is read from a text only behind a quote, or behind the letter of raw literals. -/
theorem head?_of_string? {text : List Char} {literal : String}
    (read : Literal.string? (.ofList (trim text)) = some literal) :
    (trim text).head? ∈ [some '"', some 'r'] := by
  rw [Literal.string?, String.toList_ofList, trim_trim] at read
  cases spelled : trim text with
  | nil =>
      rw [spelled] at read
      cases read
  | cons c rest =>
      rw [spelled] at read
      by_cases raw : c = 'r'
      · rw [raw]
        simp
      · by_cases quote : c = '"'
        · rw [quote]
          simp
        · simp [raw, Literal.cooked?, quote] at read

theorem docAttribute_of_string? {note value literal : String} {attr : Attribute}
    (parsed : Attribute.parse? note = some attr) (named : attr.name = "doc")
    (valued : attr.value = some value) (read : Literal.string? value = some literal) :
    DocAttribute (trim note.toList) := by
  obtain ⟨rest, sections, rfl⟩ := exists_sections_of_value parsed valued
  obtain ⟨gap, inner, behind, after, gapBlank, innerBlank, behindBlank, afterBlank, path, whole⟩ :=
    exists_of_sections? sections
  have trimmed : trim (rest ++ after) = trim rest := trim_blanks blank_nil afterBlank rest
  refine ⟨gap, inner, attr.path.toList, behind, rest ++ after, gapBlank, innerBlank, behindBlank, path,
    ?_, ?_, ?_⟩
  · rw [String.ofList_toList]
    exact named
  · rw [trimmed]
    exact head?_of_string? read
  · rw [whole]
    simp

theorem docLines_attribute_ne {note : String} (marked : (trim note.toList).head? = some '#')
    (other : ¬ DocAttribute (trim note.toList)) : docLines note = [] := by
  obtain ⟨rest, spelled⟩ := List.head?_eq_some_iff.mp marked
  rw [docLines, spelled]
  cases parsed : Attribute.parse? note with
  | none => rfl
  | some attr =>
      dsimp only
      by_cases named : attr.name = "doc"
      · rw [if_pos named]
        cases valued : attr.value with
        | none => rfl
        | some value =>
            rw [Option.bind_some]
            cases read : Literal.string? value with
            | none => rfl
            | some literal => exact absurd (docAttribute_of_string? parsed named valued read) other
      · rw [if_neg named]
        rfl

/-! ## Notes one after another -/

/-- A note is a text, up to blanks around it. -/
def Holds (note text : String) : Prop :=
  ∃ front back, Blank front ∧ Blank back ∧ note = .ofList (front ++ text.toList ++ back)

/-- Notes that document some lines in order: pieces in any of the spellings, with plain comments and
other attributes between them. -/
inductive Documents : Annotations → List String → Prop where
  | lines {notes : Annotations} {documented : List String} (clean : Clean documented)
      (spelled : List.Forall₂ (fun note line => Holds note (lineNote line)) notes documented) :
      Documents notes documented
  | block {note : String} {documented : List String} (clean : Clean documented)
      (spelled : Holds note (blockNote documented)) : Documents [note] documented
  | value {note : String} {feed : List Char} {documented : List String}
      (clean : Clean documented) (spells : Literal.SpellsFeed feed)
      (spelled : Holds note (attributeNote feed documented)) : Documents [note] documented
  | plain {note : String} (comment : PlainComment (trim note.toList)) : Documents [note] []
  | other {note : String} (marked : (trim note.toList).head? = some '#')
      (unlike : ¬ DocAttribute (trim note.toList)) : Documents [note] []
  | append {notes more : Annotations} {documented further : List String}
      (first : Documents notes documented) (second : Documents more further) :
      Documents (notes ++ more) (documented ++ further)

theorem Holds.docLines_eq {note text : String} (holds : Holds note text) :
    docLines note = docLines text := by
  obtain ⟨front, back, frontBlank, backBlank, rfl⟩ := holds
  apply docLines_congr
  rw [String.toList_ofList, trim_blanks frontBlank backBlank]

theorem docs_of_holds_lineNote {notes : Annotations} {documented : List String}
    (trimmed : ∀ line ∈ documented, trim line.toList = line.toList)
    (spelled : List.Forall₂ (fun note line => Holds note (lineNote line)) notes documented) :
    docs notes = documented := by
  induction spelled with
  | nil => rfl
  | @cons note line notes documented holds _ inductionHypothesis =>
      obtain ⟨here, later⟩ := List.forall_mem_cons.mp trimmed
      have rest := inductionHypothesis later
      rw [docs] at rest ⊢
      rw [List.flatMap_cons, holds.docLines_eq, docLines_lineNote here, rest, List.singleton_append]

theorem Documents.docs_eq {notes : Annotations} {documented : List String}
    (documents : Documents notes documented) : docs notes = documented := by
  induction documents with
  | lines clean spelled => exact docs_of_holds_lineNote clean.trimmed spelled
  | block clean spelled =>
      rw [docs, List.flatMap_singleton, spelled.docLines_eq, docLines_blockNote clean]
  | value clean spells spelled =>
      rw [docs, List.flatMap_singleton, spelled.docLines_eq, docLines_attributeNote spells clean]
  | plain comment => rw [docs, List.flatMap_singleton, docLines_plain comment]
  | other marked unlike => rw [docs, List.flatMap_singleton, docLines_attribute_ne marked unlike]
  | append _ _ first second =>
      rw [docs] at first second ⊢
      rw [List.flatMap_append, first, second]

theorem holds_self (text : String) : Holds text text :=
  ⟨[], [], blank_nil, blank_nil, by simp [String.ofList_toList]⟩

/-- The three spellings of some lines document these lines.  Pieces that follow each other document
their lines in order, whatever plain comments and other attributes stand between them. -/
theorem docs_spelled {documented : List String} (clean : Clean documented) :
    docs (documented.map lineNote) = documented ∧ docs [blockNote documented] = documented ∧
      (∀ feed, Literal.SpellsFeed feed → docs [attributeNote feed documented] = documented) ∧
        ∀ notes further, Documents notes further → docs notes = further := by
  refine ⟨?_, ?_, ?_, ?_⟩
  · apply docs_of_holds_lineNote clean.trimmed
    rw [List.forall₂_map_left_iff]
    exact List.forall₂_same.mpr fun line _ => holds_self (lineNote line)
  · rw [docs, List.flatMap_singleton, docLines_blockNote clean]
  · intro feed spells
    rw [docs, List.flatMap_singleton, docLines_attributeNote spells clean]
  · intro notes further documents
    exact documents.docs_eq

/-! ### Lines that look like marks -/

def markedLines : List String :=
  ["* \"a\\b\"", "", "/// c"]

theorem clean_markedLines : Clean markedLines where
  nonempty := by decide
  trimmed := forall_mem_of_all (by decide)
  unbroken := by
    have all : ∀ line ∈ markedLines, line.toList.all (fun c => !isLineBreak c) = true :=
      forall_mem_of_all (by decide)
    intro line listed c inside
    have here := List.all_eq_true.mp (all line listed) c inside
    simpa using here
  first := by decide
  last := by decide

theorem docs_spelled_marked :
    Clean markedLines ∧ Literal.SpellsFeed ['\n'] ∧
      docs (markedLines.map lineNote) = markedLines ∧ docs [blockNote markedLines] = markedLines ∧
      docs [attributeNote ['\n'] markedLines] = markedLines ∧
      docs [blockNote markedLines, "//// plain", attributeNote ['\n'] markedLines, "#[cfg(test)]"] =
        markedLines ++ markedLines := by
  have feed : Literal.SpellsFeed ['\n'] := .inl rfl
  obtain ⟨comments, block, attributes, pieces⟩ := docs_spelled clean_markedLines
  refine ⟨clean_markedLines, feed, comments, block, attributes _ feed, ?_⟩
  have first := Documents.block clean_markedLines (holds_self _)
  have second : Documents ["//// plain"] [] := by
    apply Documents.plain
    have text : trim "//// plain".toList =
        '/' :: '/' :: ['/', '/', ' ', 'p', 'l', 'a', 'i', 'n'] := by decide
    rw [text]
    apply PlainComment.line
    intro rest same
    injection same with _ same
    rw [← same]
    rfl
  have third := Documents.value clean_markedLines feed (holds_self _)
  have fourth : Documents ["#[cfg(test)]"] [] := by
    apply Documents.other (by decide)
    intro documents
    obtain ⟨gap, inner, path, behind, value, _, _, _, _, _, _, text⟩ := documents
    have sign : '=' ∈ trim "#[cfg(test)]".toList := by
      rw [text]
      simp
    exact absurd sign (by decide)
  exact pieces _ _ (((first.append second).append third).append fourth)

end Annotations

end ProgramIdl
