import ProgramIdl.Proofs.Syntax.Separation
import ProgramIdl.Proofs.Syntax.TokenPlaces
import ProgramIdl.Proofs.Syntax.Yields
import ProgramIdl.Proofs.Text.Fronts

/-!
# Where words end

In a source text a word ends in front of a blank, a comment, a mark or a delimiter.  So what stands
in front of a token is no part of a word, and neither is a token that is no word itself.
-/

set_option autoImplicit false

namespace ProgramIdl.Syntax

open ProgramIdl.Text

/-! ## Lexemes -/

theorem isWordChar_of_isSourceBlank {c : Char} (blank : isSourceBlank c = true) :
    isWordChar c = false := by
  have points : ∀ point ∈ [0x09, 0x0A, 0x0B, 0x0C, 0x0D, 0x20, 0x85, 0x200E, 0x200F, 0x2028, 0x2029],
      isWordChar (Char.ofNat point) = false := by decide +kernel
  have here := points c.toNat (of_decide_eq_true blank)
  rwa [Char.ofNat_toNat] at here

theorem isWordChar_of_isMark {c : Char} (mark : isMark c = true) : isWordChar c = false := by
  have marks : ∀ c ∈ ['~', '!', '@', '#', '$', '%', '^', '&', '*', '-', '=', '+', '|', ':', ';', ',',
      '.', '<', '>', '/', '?'], isWordChar c = false := forall_mem_of_all (by decide)
  exact marks c (of_decide_eq_true mark)

/-- A character that a word may go on with. -/
def GoesOn (c : Char) : Prop :=
  isIdentifierPart c = true ∨ c = '#'

theorem goesOn_wordLexeme (text : List Char) : ∀ c ∈ text.take (wordLexeme text).2, GoesOn c := by
  have run (text : List Char) : ∀ c ∈ text.take (identifierSize text), GoesOn c := by
    intro c listed
    rw [identifierSize, ← List.prefix_iff_eq_take.mp (List.takeWhile_prefix _)] at listed
    exact .inl (List.mem_takeWhile_imp listed)
  have letter : GoesOn 'r' := .inl (isIdentifierPart_of_ascii (by decide))
  unfold wordLexeme
  split
  · rename_i c rest
    split
    · rw [List.take_succ_cons, List.take_succ_cons]
      exact List.forall_mem_cons.mpr ⟨letter, List.forall_mem_cons.mpr ⟨.inr rfl, run _⟩⟩
    · exact List.forall_mem_singleton.mpr letter
  · exact run text

/-- Blanks, words, marks and opening delimiters are told by their first character. -/
theorem nextLexeme_edge {c : Char} {rest : List Char} {kind : LexemeKind} {size : Nat}
    (found : nextLexeme c rest = some (kind, size)) :
    (kind = .blank → isSourceBlank c = true ∧ size = (rest.takeWhile isSourceBlank).length + 1) ∧
      (kind = .word → isIdentifierStart c = true ∧ ∀ d ∈ rest.take (size - 1), GoesOn d) ∧
      (∀ mark, kind = .mark mark → isMark c = true) ∧
      ∀ delimiter, kind = .opening delimiter → c = delimiter.openingChar ∧ size = 1 := by
  unfold nextLexeme at found
  split at found
  · rename_i blank
    obtain ⟨rfl, rfl⟩ := Prod.mk.inj (Option.some.inj found)
    exact ⟨fun _ => ⟨blank, rfl⟩, nofun, nofun, nofun⟩
  · split at found
    · obtain ⟨rfl, rfl⟩ := Prod.mk.inj (Option.some.inj found)
      exact ⟨nofun, nofun, nofun, nofun⟩
    · obtain ⟨_, _, same⟩ := Option.map_eq_some_iff.mp found
      obtain ⟨rfl, rfl⟩ := Prod.mk.inj same
      exact ⟨nofun, nofun, nofun, nofun⟩
    · obtain ⟨_, _, same⟩ := Option.map_eq_some_iff.mp found
      obtain ⟨rfl, rfl⟩ := Prod.mk.inj same
      exact ⟨nofun, nofun, nofun, nofun⟩
    · rcases quoteLexeme_kind found with rfl | rfl
      · exact ⟨nofun, nofun, nofun, nofun⟩
      · exact ⟨nofun, nofun, nofun, nofun⟩
    -- the six delimiters
    iterate 6
      obtain ⟨rfl, rfl⟩ := Prod.mk.inj (Option.some.inj found)
      refine ⟨nofun, nofun, nofun, fun delimiter is => ?_⟩
      cases is
      try exact ⟨rfl, rfl⟩
    · split at found
      · obtain ⟨rfl, rfl⟩ := Prod.mk.inj (Option.some.inj found)
        exact ⟨nofun, nofun, nofun, nofun⟩
      · split at found
        · rename_i starts
          rcases lettered : letteredLiteral (c :: rest) with _ | ⟨read, length⟩
          · rw [lettered] at found
            have same : wordLexeme (c :: rest) = (kind, size) := Option.some.inj found
            obtain rfl : LexemeKind.word = kind := by
              rw [← wordLexeme_kind (c :: rest), same]
            refine ⟨nofun, fun _ => ⟨starts, fun d listed => ?_⟩, nofun, nofun⟩
            refine goesOn_wordLexeme (c :: rest) d ?_
            rw [same]
            cases size with
            | zero => cases listed
            | succ size => exact List.mem_cons_of_mem c listed
          · rw [lettered] at found
            obtain ⟨rfl, rfl⟩ := Prod.mk.inj (Option.some.inj found)
            rw [letteredLiteral_kind lettered]
            exact ⟨nofun, nofun, nofun, nofun⟩
        · split at found
          · rename_i mark
            obtain ⟨rfl, rfl⟩ := Prod.mk.inj (Option.some.inj found)
            exact ⟨nofun, nofun, fun _ _ => mark, nofun⟩
          · cases found

/-- A text of blanks, or one that starts like a comment. -/
def IsGap (text : List Char) : Prop :=
  (∀ c ∈ text, isSourceBlank c = true) ∨ text.head? = some '/'

/-- What stands between tokens is a gap, a mark and an opening delimiter are spelled by their own
characters, and a word starts like an identifier. -/
structure Lexeme.Edged (lexeme : Lexeme) : Prop where
  gap : lexeme.kind = .blank ∨ lexeme.kind = .comment → IsGap lexeme.text
  word : lexeme.kind = .word →
    ∃ c rest, lexeme.text = c :: rest ∧ isIdentifierStart c = true ∧ ∀ d ∈ rest, GoesOn d
  mark {c : Char} : lexeme.kind = .mark c → lexeme.text = [c] ∧ isWordChar c = false
  opening {delimiter : Delimiter} :
    lexeme.kind = .opening delimiter → lexeme.text = [delimiter.openingChar]

theorem lexemesAfter_edged {taken : Nat} {text : List Char} {read : List Lexeme}
    (reads : lexemesAfter taken text = some read) : ∀ lexeme ∈ read, lexeme.Edged := by
  induction text generalizing taken read with
  | nil =>
      cases taken <;> cases reads <;> nofun
  | cons c rest inductionHypothesis =>
      cases taken with
      | succ taken => exact inductionHypothesis reads
      | zero =>
          rw [lexemesAfter] at reads
          split at reads
          · rename_i kind size found
            obtain ⟨later, laterReads, rfl⟩ := Option.map_eq_some_iff.mp reads
            refine List.forall_mem_cons.mpr ⟨?_, inductionHypothesis laterReads⟩
            obtain ⟨marks, comments⟩ := nextLexeme_kind found
            obtain ⟨blanks, words, areMarks, openings⟩ := nextLexeme_edge found
            constructor
            · rintro (blank | comment)
              · obtain ⟨first, length⟩ := blanks blank
                have taken : rest.take (size - 1) = rest.takeWhile isSourceBlank := by
                  rw [length, Nat.add_sub_cancel]
                  exact (List.prefix_iff_eq_take.mp (List.takeWhile_prefix _)).symm
                refine .inl (List.forall_mem_cons.mpr ⟨first, fun d listed => ?_⟩)
                rw [taken] at listed
                exact List.mem_takeWhile_imp listed
              · exact .inr (congrArg some (comments comment))
            · exact fun is => ⟨c, _, rfl, words is⟩
            · intro d is
              obtain ⟨rfl, rfl⟩ := marks d is
              exact ⟨rfl, isWordChar_of_isMark (areMarks c is)⟩
            · intro delimiter is
              obtain ⟨rfl, rfl⟩ := openings delimiter is
              rfl
          · cases reads

/-! ## Tokens -/

/-- Only gaps stand in front of a token, and its first character tells what it is. -/
structure Token.Edged (token : Token) : Prop where
  lead : ∀ lexeme ∈ token.lead, IsGap lexeme.text
  word : token.kind = .word →
    ∃ c rest, token.text = c :: rest ∧ isIdentifierStart c = true ∧ ∀ d ∈ rest, GoesOn d
  mark {c : Char} : token.kind = .mark c → token.text = [c] ∧ isWordChar c = false
  opening {delimiter : Delimiter} :
    token.kind = .opening delimiter → token.text = [delimiter.openingChar]

/-- The characters of a word are visible, and none of them is a point or a reference. -/
theorem Token.Edged.visible_of_word {token : Token} (edged : token.Edged)
    (kind : token.kind = .word) : ∀ c ∈ token.text, isBlank c = false ∧ c ≠ '.' ∧ c ≠ '&' := by
  obtain ⟨c, rest, text, starts, goesOn⟩ := edged.word kind
  rw [text]
  refine List.forall_mem_cons.mpr ⟨⟨isBlank_of_isIdentifierStart starts,
    ne_of_isIdentifierStart starts (by decide), ne_of_isIdentifierStart starts (by decide)⟩, ?_⟩
  intro d listed
  rcases goesOn d listed with part | rfl
  · exact ⟨isBlank_of_isIdentifierPart part, ne_of_isIdentifierPart part (by decide),
      ne_of_isIdentifierPart part (by decide)⟩
  · decide

theorem tokensFrom_edged {lead : List Lexeme} {start line : Nat} {read : List Lexeme}
    (leads : ∀ lexeme ∈ lead, IsGap lexeme.text) (edged : ∀ lexeme ∈ read, lexeme.Edged) :
    ∀ token ∈ tokensFrom lead start line read, token.Edged := by
  induction read generalizing lead start line with
  | nil => nofun
  | cons lexeme rest inductionHypothesis =>
      obtain ⟨here, later⟩ := List.forall_mem_cons.mp edged
      by_cases gap : lexeme.kind = .blank ∨ lexeme.kind = .comment
      · rw [tokensFrom_cons_gap gap]
        exact inductionHypothesis (List.forall_mem_cons.mpr ⟨here.gap gap, leads⟩) later
      · rw [tokensFrom_cons_token (not_or.mp gap)]
        refine List.forall_mem_cons.mpr ⟨⟨?_, here.word, here.mark, here.opening⟩,
          inductionHypothesis nofun later⟩
        exact fun other listed => leads other (List.mem_reverse.mp listed)

theorem exists_first_visible {text : List Char} (visible : ∃ c ∈ text, isBlank c = false) :
    ∃ blanks c rest, text = blanks ++ c :: rest ∧ Blank blanks ∧ isBlank c = false := by
  induction text with
  | nil => simp at visible
  | cons c text inductionHypothesis =>
      by_cases blank : isBlank c = true
      · have later : ∃ d ∈ text, isBlank d = false := by simpa [blank] using visible
        obtain ⟨blanks, d, rest, same, front, seen⟩ := inductionHypothesis later
        exact ⟨c :: blanks, d, rest, congrArg (c :: ·) same,
          List.forall_mem_cons.mpr ⟨blank, front⟩, seen⟩
      · exact ⟨[], c, text, rfl, nofun, by simpa using blank⟩

/-- The first visible character of a token with what stands in front of it: its own, or one that
starts a comment, or one that no compaction takes for a blank. -/
theorem exists_spelling_split {lead : List Lexeme} (gaps : ∀ lexeme ∈ lead, IsGap lexeme.text)
    {c : Char} (visible : isBlank c = false) (rest : List Char) :
    ∃ blanks first behind, Blank blanks ∧ isBlank first = false ∧
      (first = c ∨ first = '/' ∨ isSourceBlank first = true) ∧
        (lead.map Lexeme.text).flatten ++ c :: rest = blanks ++ first :: behind := by
  induction lead with
  | nil => exact ⟨[], c, rest, nofun, visible, .inl rfl, rfl⟩
  | cons lexeme lead inductionHypothesis =>
      obtain ⟨gap, gaps⟩ := List.forall_mem_cons.mp gaps
      obtain ⟨blanks, first, behind, blank, seen, kinds, split⟩ := inductionHypothesis gaps
      rw [List.map_cons, List.flatten_cons, List.append_assoc, split]
      rcases gap with spaces | comment
      · by_cases all : Blank lexeme.text
        · refine ⟨lexeme.text ++ blanks, first, behind, List.forall_mem_append.mpr ⟨all, blank⟩,
            seen, kinds, by rw [List.append_assoc]⟩
        · have some_ : ∃ c ∈ lexeme.text, isBlank c = false := by simpa [Blank] using all
          obtain ⟨front, d, more, same, frontBlank, visible⟩ := exists_first_visible some_
          have listed : d ∈ lexeme.text := by simp [same]
          refine ⟨front, d, more ++ (blanks ++ first :: behind), frontBlank, visible,
            .inr (.inr (spaces d listed)), ?_⟩
          rw [same, List.append_assoc, List.cons_append]
      · cases text : lexeme.text with
        | nil => exact absurd text lexeme.text_ne
        | cons d more =>
            rw [text] at comment
            obtain rfl := Option.some.inj comment
            exact ⟨[], '/', _, nofun, by decide, .inr (.inl rfl), rfl⟩

/-! ## Trees -/

mutual

/-- The groups of a tree start with their own delimiters. -/
def Tree.Opened : Tree → Prop
  | .leaf _ => True
  | .group delimiter opening inner _ => opening.kind = .opening delimiter ∧ AllOpened inner

def AllOpened : List Tree → Prop
  | [] => True
  | tree :: rest => tree.Opened ∧ AllOpened rest

end

theorem allOpened_iff {trees : List Tree} : AllOpened trees ↔ ∀ tree ∈ trees, tree.Opened := by
  induction trees with
  | nil => simp [AllOpened]
  | cons tree trees inductionHypothesis => simp [AllOpened, inductionHypothesis]

theorem StandsIn.opened {whole trees : List Tree} (stands : StandsIn whole trees)
    (opened : AllOpened whole) : AllOpened trees := by
  induction stands with
  | all => exact opened
  | behind _ inductionHypothesis => exact inductionHypothesis.2
  | inside _ inductionHypothesis => exact inductionHypothesis.1.2

theorem gather_opened {tokens : List Token} {pending : List OpenGroup} {current trees : List Tree}
    (read : gather pending current tokens = some trees) (opened : ∀ tree ∈ current, tree.Opened)
    (groups : ∀ group ∈ pending, group.opening.kind = .opening group.delimiter ∧
      ∀ tree ∈ group.before, tree.Opened) : ∀ tree ∈ trees, tree.Opened := by
  induction tokens generalizing pending current with
  | nil =>
      rw [gather] at read
      split at read
      · obtain rfl := Option.some.inj read
        exact fun tree listed => opened tree (List.mem_reverse.mp listed)
      · cases read
  | cons token rest inductionHypothesis =>
      rw [gather] at read
      cases kind : token.kind with
      | opening delimiter =>
          rw [kind] at read
          exact inductionHypothesis read (List.forall_mem_nil _)
            (List.forall_mem_cons.mpr ⟨⟨kind, opened⟩, groups⟩)
      | closing delimiter =>
          rw [kind] at read
          cases pending with
          | nil => cases read
          | cons group outer =>
              dsimp only at read
              split at read
              · rename_i same
                obtain ⟨⟨opening, before⟩, others⟩ := List.forall_mem_cons.mp groups
                refine inductionHypothesis read (List.forall_mem_cons.mpr ⟨?_, before⟩) others
                refine ⟨same ▸ opening, allOpened_iff.mpr fun tree listed => ?_⟩
                exact opened tree (List.mem_reverse.mp listed)
              · cases read
      | blank | comment | word | lifetime | literal | mark =>
          rw [kind] at read
          exact inductionHypothesis read (List.forall_mem_cons.mpr ⟨trivial, opened⟩) groups

/-- Trees of a text: their tokens end words, and their groups start with their own delimiters. -/
structure EdgedTrees (trees : List Tree) : Prop where
  tokens : ∀ token ∈ Tree.allTokens trees, token.Edged
  opened : AllOpened trees

theorem edgedTrees_of_trees? {text : String} {trees : List Tree} (read : trees? text = some trees) :
    EdgedTrees trees := by
  rw [trees?_eq] at read
  obtain ⟨tokens, found, gathered⟩ := Option.bind_eq_some_iff.mp read
  obtain ⟨lexemes, reads, rfl⟩ := Option.map_eq_some_iff.mp found
  refine ⟨?_, allOpened_iff.mpr (gather_opened gathered (List.forall_mem_nil _) (List.forall_mem_nil _))⟩
  rw [allTokens_of_gather gathered]
  exact tokensFrom_edged nofun (lexemesAfter_edged reads)

theorem StandsIn.edged {whole trees : List Tree} (stands : StandsIn whole trees)
    (edged : EdgedTrees whole) : EdgedTrees trees :=
  ⟨fun token listed => edged.tokens token (stands.subset listed), stands.opened edged.opened⟩

/-! ## What follows a word -/

/-- The text of some trees, with the blanks and comments in front of their tokens. -/
def Tree.spelled (trees : List Tree) : List Char :=
  ((allTokens trees).map Token.spelling).flatten

theorem toList_sourceText (token : Token) (trees : List Tree) :
    (sourceText (.leaf token :: trees)).toList = token.text ++ Tree.spelled trees := by
  rw [sourceText, Tree.allTokens, Tree.tokens]
  exact String.toList_ofList

/-- The first token of some trees is a certain character. -/
def BeginsWith (c : Char) (trees : List Tree) : Prop :=
  ∃ tree rest, trees = tree :: rest ∧ tree.first.text = [c]

section BeginsWith

variable {c : Char} {trees : List Tree} (begins : BeginsWith c trees)

include begins

theorem BeginsWith.append (others : List Tree) : BeginsWith c (trees ++ others) := by
  obtain ⟨tree, rest, rfl, text⟩ := begins
  exact ⟨tree, rest ++ others, rfl, text⟩

theorem BeginsWith.exists_spelled (edged : EdgedTrees trees) :
    ∃ (lead : List Lexeme) (rest : List Char), (∀ lexeme ∈ lead, IsGap lexeme.text) ∧
      Tree.spelled trees = (lead.map Lexeme.text).flatten ++ c :: rest := by
  obtain ⟨tree, rest, rfl, text⟩ := begins
  have first : ∃ others, Tree.allTokens (tree :: rest) = tree.first :: others := by
    cases tree with
    | leaf token => exact ⟨_, rfl⟩
    | group delimiter opening inner closing => exact ⟨_, rfl⟩
  obtain ⟨others, tokens⟩ := first
  have listed : tree.first ∈ Tree.allTokens (tree :: rest) := by simp [tokens]
  refine ⟨tree.first.lead, (others.map Token.spelling).flatten, (edged.tokens _ listed).lead, ?_⟩
  rw [Tree.spelled, tokens, List.map_cons, List.flatten_cons, Token.spelling, text,
    List.append_assoc, List.singleton_append]

/-- A word ends in front of a mark, and of the gap in front of a mark. -/
theorem BeginsWith.stopsWord (edged : EdgedTrees trees) (mark : isWordChar c = false) :
    StopsWord (Tree.spelled trees) := by
  obtain ⟨lead, rest, gaps, spelled⟩ := begins.exists_spelled edged
  rw [spelled]
  cases lead with
  | nil => exact stopsWord_cons mark
  | cons lexeme lead =>
      obtain ⟨gap, _⟩ := List.forall_mem_cons.mp gaps
      cases text : lexeme.text with
      | nil => exact absurd text lexeme.text_ne
      | cons d more =>
          rw [text] at gap
          rw [List.map_cons, List.flatten_cons, text]
          refine stopsWord_cons ?_
          rcases gap with blanks | slash
          · exact isWordChar_of_isSourceBlank (blanks d List.mem_cons_self)
          · obtain rfl := Option.some.inj slash
            decide

/-- What stands in front of some trees that begin with a mark is followed, once they are compacted,
by the mark, or by what is left of the gap in front of it. -/
theorem BeginsWith.head?_squeeze (edged : EdgedTrees trees) (visible : isBlank c = false) :
    ∀ first ∈ (squeeze (Tree.spelled trees)).head?,
      first = c ∨ first = ' ' ∨ first = '/' ∨ isSourceBlank first = true := by
  intro first head
  obtain ⟨lead, rest, gaps, spelled⟩ := begins.exists_spelled edged
  obtain ⟨blanks, d, behind, blank, seen, kinds, split⟩ := exists_spelling_split gaps visible rest
  rw [spelled, split] at head
  rcases Text.head?_squeeze blank seen behind with space | same
  · rw [space] at head
    exact .inr (.inl (Option.some.inj head).symm)
  · rw [same] at head
    obtain rfl := Option.some.inj head
    exact kinds.imp_right .inr

end BeginsWith

end ProgramIdl.Syntax
