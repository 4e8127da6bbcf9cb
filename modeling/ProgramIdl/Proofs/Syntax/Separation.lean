import ProgramIdl.Proofs.Text.Identifier
import ProgramIdl.Syntax.Lexeme

/-!
# Lexemes that stand apart

A lexeme is read back from a text if it does not run on into what follows it.  For the plain forms of
lexemes this is told by the next character alone, so a run of such lexemes is read back from the text
that they put together (`lexemes_of_separate`).
-/

set_option autoImplicit false

namespace ProgramIdl.Syntax

open ProgramIdl.Text

/-! ## What ends a lexeme -/

def Delimiter.openingChar : Delimiter → Char
  | .parenthesis => '('
  | .bracket => '['
  | .brace => '\x7b'

def Delimiter.closingChar : Delimiter → Char
  | .parenthesis => ')'
  | .bracket => ']'
  | .brace => '\x7d'

/-- The marks that make a word in front of them the letters of a literal, or of a raw word. -/
def literalMarks : List Char :=
  ['"', '\'', '#']

/-- Whether a comment of one line ends in front of a character. -/
def lineCommentEnds (next : Option Char) : List Char → Bool
  | '/' :: '/' :: note => note.all (· ≠ '\n') && next.all (· = '\n')
  | _ => false

/-- Whether a lifetime ends in front of a character. -/
def lifetimeEnds (next : Option Char) : List Char → Bool
  | '\'' :: name =>
      name.head?.any isIdentifierStart && name.all isIdentifierPart &&
        !next.any fun c => isIdentifierPart c || c = '\''
  | _ => false

/-- Whether a string, a byte string or a run of digits ends in front of a character. -/
def plainLiteralEnds (next : Option Char) : List Char → Bool
  | '"' :: body => cookedSize '"' body = some body.length
  | 'b' :: '"' :: body => cookedSize '"' body = some body.length
  | text => text.all Char.isDigit && !next.any fun c => isIdentifierPart c || c = '.'

/-- Whether a lexeme has a plain form and ends in front of a character, or of the end of the text. -/
def Lexeme.endsBefore (next : Option Char) (lexeme : Lexeme) : Bool :=
  match lexeme.kind with
  | .blank => lexeme.text.all isSourceBlank && !next.any isSourceBlank
  | .comment => lineCommentEnds next lexeme.text
  | .word =>
      lexeme.text.head?.any isIdentifierStart && lexeme.text.all isIdentifierPart &&
        !next.any fun c => isIdentifierPart c || c ∈ literalMarks
  | .lifetime => lifetimeEnds next lexeme.text
  | .literal => plainLiteralEnds next lexeme.text
  | .opening delimiter => lexeme.text = [delimiter.openingChar]
  | .closing delimiter => lexeme.text = [delimiter.closingChar]
  | .mark c => lexeme.text = [c] && isMark c && !(c = '/' && next.any (· ∈ ['/', '*']))

/-- The first character of some lexemes. -/
def firstChar? (lexemes : List Lexeme) : Option Char :=
  (lexemes.map Lexeme.text).flatten.head?

/-- Whether each of some lexemes ends in front of the next one. -/
def areSeparate : List Lexeme → Bool
  | [] => true
  | lexeme :: rest => lexeme.endsBefore (firstChar? rest) && areSeparate rest

/-! ## Reading one lexeme -/

section Reading

variable {c : Char} {text rest : List Char}

/-- The characters that start a lexeme of one kind only, or a comment. -/
def startingMarks : List Char :=
  ['/', '"', '\'', '(', ')', '[', ']', '\x7b', '\x7d']

theorem nextLexeme_of_other (visible : isSourceBlank c = false) (other : c ∉ startingMarks) :
    nextLexeme c rest =
      if c.isDigit then some (.literal, numberSize (c :: rest))
      else if isIdentifierStart c then
        some ((letteredLiteral (c :: rest)).getD (wordLexeme (c :: rest)))
      else if isMark c then some (.mark c, 1)
      else none := by
  unfold nextLexeme
  rw [visible, if_neg Bool.false_ne_true]
  split
  all_goals first
    | exact absurd (by decide) other
    | rfl

theorem ne_of_isIdentifierStart (start : isIdentifierStart c = true) {mark : Char}
    (stops : isIdentifierStart mark = false) : c ≠ mark := by
  rintro rfl
  rw [stops] at start
  cases start

theorem ne_of_isIdentifierPart (part : isIdentifierPart c = true) {mark : Char}
    (stops : isIdentifierPart mark = false) : c ≠ mark := by
  rintro rfl
  rw [stops] at part
  cases part

/-- A blank character starts no word, no number and no mark. -/
theorem nextLexeme_blank (blanks : (c :: text).all isSourceBlank = true)
    (stops : rest.head?.any isSourceBlank = false) :
    nextLexeme c (text ++ rest) = some (.blank, text.length + 1) := by
  rw [List.all_cons, Bool.and_eq_true] at blanks
  unfold nextLexeme
  rw [if_pos blanks.1, takeWhile_front blanks.2 stops]

theorem nextLexeme_comment (note : text.all (· ≠ '\n') = true)
    (stops : rest.head?.all (· = '\n') = true) :
    nextLexeme '/' ('/' :: text ++ rest) = some (.comment, text.length + 2) := by
  have ended : rest.head?.any (· ≠ '\n') = false := by
    cases rest with
    | nil => rfl
    | cons c rest => simpa using stops
  have whole : ('/' :: text).all (· ≠ '\n') = true := by
    rw [List.all_cons, note]
    rfl
  change some (LexemeKind.comment, (('/' :: text ++ rest).takeWhile (· ≠ '\n')).length + 1) = _
  rw [takeWhile_front whole ended]
  rfl

/-! ## Words -/

/-- A text whose leading word is not made a literal, or a raw word, by what stands behind it. -/
def EndsWord (text : List Char) : Prop :=
  ∀ mark ∈ literalMarks, (text.dropWhile isIdentifierPart).head? ≠ some mark

theorem endsWord_append (word : text.all isIdentifierPart = true)
    (stops : rest.head?.any (fun c => isIdentifierPart c || c ∈ literalMarks) = false) :
    EndsWord (text ++ rest) := by
  intro mark listed
  rw [List.dropWhile_append_of_pos fun c listed => List.all_eq_true.mp word c listed]
  cases rest with
  | nil => exact nofun
  | cons c rest =>
      have here : isIdentifierPart c = false ∧ c ∉ literalMarks := by simpa using stops
      rw [List.dropWhile_cons_of_neg (by simp [here.1]), List.head?_cons]
      intro same
      obtain rfl := Option.some.inj same
      exact here.2 listed

theorem EndsWord.tail (ends : EndsWord (c :: rest)) (part : isIdentifierPart c = true) :
    EndsWord rest := by
  unfold EndsWord at ends
  rwa [List.dropWhile_cons_of_pos part] at ends

theorem EndsWord.head?_ne (ends : EndsWord text) {mark : Char} (listed : mark ∈ literalMarks) :
    text.head? ≠ some mark := by
  have marks : ∀ mark ∈ literalMarks, isAsciiMark mark = true := forall_mem_of_all (by decide)
  intro head
  obtain ⟨more, rfl⟩ := List.head?_eq_some_iff.mp head
  apply ends mark listed
  rw [List.dropWhile_cons_of_neg (by simp [isIdentifierPart_of_mark (marks mark listed)]), List.head?_cons]

theorem rawSize_eq_none (ends : EndsWord text) : rawSize text = none := by
  have noHash := @EndsWord.head?_ne _ ends '#' (by decide)
  have noQuote := @EndsWord.head?_ne _ ends '"' (by decide)
  unfold rawSize
  cases text with
  | nil => rfl
  | cons c rest =>
      rw [List.dropWhile_cons_of_neg (by simpa using noHash)]
      dsimp only
      split
      · rename_i quoted
        rw [quoted] at noQuote
        exact absurd rfl noQuote
      · rfl

theorem letteredLiteral_eq_none (ends : EndsWord text) : letteredLiteral text = none := by
  have letter : isIdentifierPart 'b' = true ∧ isIdentifierPart 'c' = true ∧
      isIdentifierPart 'r' = true :=
    ⟨isIdentifierPart_of_ascii (by decide), isIdentifierPart_of_ascii (by decide),
      isIdentifierPart_of_ascii (by decide)⟩
  unfold letteredLiteral
  split
  · rw [rawSize_eq_none ((ends.tail letter.1).tail letter.2.2)]
    rfl
  · rw [rawSize_eq_none ((ends.tail letter.2.1).tail letter.2.2)]
    rfl
  · exact absurd rfl ((ends.tail letter.1).head?_ne (by decide))
  · exact absurd rfl ((ends.tail letter.2.1).head?_ne (by decide))
  · exact absurd rfl ((ends.tail letter.1).head?_ne (by decide))
  · rw [rawSize_eq_none (ends.tail letter.2.2)]
    rfl
  · rfl

theorem wordLexeme_eq (ends : EndsWord text) : wordLexeme text = (.word, identifierSize text) := by
  have letter : isIdentifierPart 'r' = true := isIdentifierPart_of_ascii (by decide)
  unfold wordLexeme
  split
  · exact absurd rfl ((ends.tail letter).head?_ne (by decide))
  · rfl

/-- The blank characters of a source text and the digits of ASCII start no identifier. -/
theorem identifierStart_apart_others :
    identifierStartRanges.apart [(0x09, 0x0D), (0x20, 0x20), (0x30, 0x39), (0x85, 0x85),
      (0x200E, 0x200F), (0x2028, 0x2029)] = true := by
  decide +kernel

/-- What starts an identifier starts nothing else. -/
theorem visible_of_start (start : isIdentifierStart c = true) :
    isSourceBlank c = false ∧ c ∉ startingMarks ∧ c.isDigit = false := by
  have outside := CodePoints.not_mem_of_apart identifierStart_apart_others start
  refine ⟨?_, ?_, ?_⟩
  · by_contra blank
    simp [isSourceBlank] at blank outside
    omega
  · intro listed
    have marks : ∀ mark ∈ startingMarks, isAsciiMark mark = true := forall_mem_of_all (by decide)
    rw [isIdentifierStart_of_mark (marks c listed)] at start
    cases start
  · by_contra digit
    simp only [Char.isDigit, Bool.not_eq_false, Bool.and_eq_true, decide_eq_true_eq] at digit
    exact outside (0x30, 0x39) (by decide) digit

theorem nextLexeme_word (start : isIdentifierStart c = true)
    (word : (c :: text).all isIdentifierPart = true)
    (stops : rest.head?.any (fun c => isIdentifierPart c || c ∈ literalMarks) = false) :
    nextLexeme c (text ++ rest) = some (.word, text.length + 1) := by
  have ends := endsWord_append word stops
  have ended : rest.head?.any isIdentifierPart = false := by
    cases rest with
    | nil => rfl
    | cons d rest => simp_all
  obtain ⟨visible, other, noDigit⟩ := visible_of_start start
  rw [nextLexeme_of_other visible other, noDigit, start, if_neg Bool.false_ne_true, if_pos rfl,
    ← List.cons_append, letteredLiteral_eq_none ends, wordLexeme_eq ends, identifierSize,
    takeWhile_front word ended]
  rfl

theorem nextLexeme_lifetime (start : text.head?.any isIdentifierStart = true)
    (name : text.all isIdentifierPart = true)
    (stops : rest.head?.any (fun c => isIdentifierPart c || c = '\'') = false) :
    nextLexeme '\'' (text ++ rest) = some (.lifetime, text.length + 1) := by
  cases text with
  | nil => cases start
  | cons c text =>
      have starts : isIdentifierStart c = true := start
      have ended : rest.head?.any isIdentifierPart = false := by
        cases rest with
        | nil => rfl
        | cons d rest => simp_all
      have quoted : ∀ more, text ++ rest ≠ '\'' :: more := by
        intro more split
        cases text with
        | nil =>
            rw [List.nil_append] at split
            rw [split] at stops
            simp at stops
        | cons d text =>
            obtain ⟨rfl, _⟩ := List.cons.inj split
            have part := List.all_eq_true.mp name '\'' (by simp)
            rw [isIdentifierPart_of_mark (by decide)] at part
            cases part
      change quoteLexeme (c :: (text ++ rest)) = _
      unfold quoteLexeme
      split
      · rename_i same
        obtain ⟨rfl, _⟩ := List.cons.inj same
        rw [isIdentifierStart_of_mark (by decide)] at starts
        cases starts
      · rename_i split
        exact absurd (List.cons.inj split).2 (quoted _)
      · rename_i same
        obtain ⟨rfl, _⟩ := List.cons.inj same
        rw [if_pos starts, identifierSize, ← List.cons_append, takeWhile_front name ended]
      · rename_i same
        cases same

/-! ## Literals -/

theorem cookedSize_cons (noQuote : c ≠ '"') (noEscape : c ≠ '\\') :
    cookedSize '"' (c :: text) = (cookedSize '"' text).map (· + 1) := by
  rw [cookedSize.eq_3 _ _ _ fun _ _ escape _ => noEscape escape, if_neg noQuote, if_neg noEscape]

theorem cookedSize_escape (escaped : Char) (text : List Char) :
    cookedSize '"' ('\\' :: escaped :: text) = (cookedSize '"' text).map (· + 2) := rfl

/-- A string ends where it does whatever follows it. -/
theorem cookedSize_append {size : Nat} (sized : cookedSize '"' text = some size) :
    cookedSize '"' (text ++ rest) = some size := by
  -- A character or an escape is taken at a time, so the induction is on the length.
  obtain ⟨limit, short⟩ : ∃ limit, text.length ≤ limit := ⟨_, Nat.le_refl _⟩
  induction limit generalizing text size with
  | zero =>
      rw [List.eq_nil_of_length_eq_zero (Nat.le_zero.mp short)] at sized
      cases sized
  | succ limit inductionHypothesis =>
      rcases text with _ | ⟨c, text⟩
      · cases sized
      by_cases quote : c = '"'
      · rw [quote] at sized ⊢
        exact sized
      by_cases escape : c = '\\'
      · rw [escape] at sized ⊢
        rcases text with _ | ⟨escaped, text⟩
        · cases sized
        rw [cookedSize_escape, Option.map_eq_some_iff] at sized
        obtain ⟨later, laterSized, rfl⟩ := sized
        rw [List.cons_append, List.cons_append, cookedSize_escape,
          inductionHypothesis laterSized (by simp at short; omega)]
        rfl
      · rw [cookedSize_cons quote escape, Option.map_eq_some_iff] at sized
        obtain ⟨later, laterSized, rfl⟩ := sized
        rw [List.cons_append, cookedSize_cons quote escape,
          inductionHypothesis laterSized (by simp at short; omega)]
        rfl

theorem nextLexeme_string (sized : cookedSize '"' text = some text.length) :
    nextLexeme '"' (text ++ rest) = some (.literal, text.length + 1) := by
  change (cookedSize '"' (text ++ rest)).map _ = _
  rw [cookedSize_append sized]
  rfl

theorem nextLexeme_byteString (sized : cookedSize '"' text = some text.length) :
    nextLexeme 'b' ('"' :: text ++ rest) = some (.literal, text.length + 2) := by
  have start : isIdentifierStart 'b' = true := isIdentifierStart_of_ascii (by decide) (by decide)
  obtain ⟨visible, other, noDigit⟩ := visible_of_start start
  have lettered : letteredLiteral ('b' :: ('"' :: text ++ rest)) = some (.literal, text.length + 2) := by
    change (cookedSize '"' (text ++ rest)).map _ = _
    rw [cookedSize_append sized]
    rfl
  rw [nextLexeme_of_other visible other, noDigit, start, if_neg Bool.false_ne_true, if_pos rfl, lettered]
  rfl

theorem isIdentifierPart_of_isDigit (digit : c.isDigit = true) : isIdentifierPart c = true := by
  apply isIdentifierPart_of_ascii
  simp [isAsciiWordChar, Char.isAlphanum, digit]

theorem digitsSize_append (digits : text.all Char.isDigit = true)
    (stops : rest.head?.any isIdentifierPart = false) : digitsSize (text ++ rest) = text.length := by
  have parts : text.all isIdentifierPart = true := by
    rw [List.all_eq_true] at digits ⊢
    exact fun c listed => isIdentifierPart_of_isDigit (digits c listed)
  unfold digitsSize
  rw [takeWhile_front parts stops]
  dsimp only
  split
  · rename_i last _ _ _ ends _
    have digit := List.all_eq_true.mp digits last (List.mem_of_getLast? ends)
    have noExponent : last ≠ 'e' ∧ last ≠ 'E' := by
      constructor <;> rintro rfl <;> cases digit
    rw [if_neg (by simp [noExponent])]
  · rfl

/-- A run of digits is a number if neither a letter nor a point follows it. -/
theorem nextLexeme_digits (digits : (c :: text).all Char.isDigit = true)
    (stops : rest.head?.any (fun c => isIdentifierPart c || c = '.') = false) :
    nextLexeme c (text ++ rest) = some (.literal, text.length + 1) := by
  have digit : c.isDigit = true := by
    rw [List.all_cons, Bool.and_eq_true] at digits
    exact digits.1
  have visible : isSourceBlank c = false := by
    by_contra blank
    rw [Bool.not_eq_false, isSourceBlank, decide_eq_true_eq] at blank
    have others : ∀ point ∈ [0x09, 0x0A, 0x0B, 0x0C, 0x0D, 0x20, 0x85, 0x200E, 0x200F, 0x2028, 0x2029],
        (Char.ofNat point).isDigit = false := by decide
    have none := others c.toNat blank
    rw [Char.ofNat_toNat, digit] at none
    cases none
  have other : c ∉ startingMarks := by
    intro listed
    have others : ∀ mark ∈ startingMarks, mark.isDigit = false := forall_mem_of_all (by decide)
    rw [others c listed] at digit
    cases digit
  have ended : rest.head?.any isIdentifierPart = false := by
    cases rest with
    | nil => rfl
    | cons d rest => simp_all
  have size : numberSize (c :: text ++ rest) = text.length + 1 := by
    unfold numberSize
    rw [digitsSize_append digits ended]
    dsimp only
    rw [List.drop_left]
    split
    · cases stops
    · cases stops
    · rfl
  rw [nextLexeme_of_other visible other, digit, if_pos rfl, ← List.cons_append, size]

/-! ## Marks -/

theorem nextLexeme_opening (delimiter : Delimiter) :
    nextLexeme delimiter.openingChar rest = some (.opening delimiter, 1) := by
  cases delimiter <;> rfl

theorem nextLexeme_closing (delimiter : Delimiter) :
    nextLexeme delimiter.closingChar rest = some (.closing delimiter, 1) := by
  cases delimiter <;> rfl

/-- The marks other than the slash, which may start a comment. -/
theorem mark_starts_nothing : ∀ c ∈ ['~', '!', '@', '#', '$', '%', '^', '&', '*', '-', '=', '+', '|', ':',
    ';', ',', '.', '<', '>', '?'], isSourceBlank c = false ∧ c ∉ startingMarks ∧ c.isDigit = false ∧
      isAsciiMark c = true :=
  forall_mem_of_all (by decide)

theorem nextLexeme_mark (mark : isMark c = true)
    (single : (c = '/' && rest.head?.any (· ∈ ['/', '*'])) = false) :
    nextLexeme c rest = some (.mark c, 1) := by
  by_cases slash : c = '/'
  · subst slash
    have noStart : isIdentifierStart '/' = false := isIdentifierStart_of_mark (by decide)
    unfold nextLexeme
    rw [if_neg (by decide)]
    split
    all_goals simp_all [isMark]
  · have listed : c ∈ ['~', '!', '@', '#', '$', '%', '^', '&', '*', '-', '=', '+', '|', ':', ';', ',',
        '.', '<', '>', '?'] := by
      simp only [isMark, List.mem_cons, List.not_mem_nil, decide_eq_true_eq] at mark ⊢
      tauto
    obtain ⟨visible, other, noDigit, ascii⟩ := mark_starts_nothing c listed
    rw [nextLexeme_of_other visible other, noDigit, isIdentifierStart_of_mark ascii, mark]
    rfl

/-! ## Runs of lexemes -/

theorem lexemesAfter_skip (front rest : List Char) :
    lexemesAfter front.length (front ++ rest) = lexemesAfter 0 rest := by
  induction front with
  | nil => rfl
  | cons c front inductionHypothesis => exact inductionHypothesis

/-- A lexeme that ends in front of a text is read first. -/
theorem lexemesAfter_append {lexeme : Lexeme} (ends : lexeme.endsBefore rest.head? = true) :
    lexemesAfter 0 (lexeme.text ++ rest) = (lexemesAfter 0 rest).map (lexeme :: ·) := by
  obtain ⟨kind, text, text_ne⟩ := lexeme
  cases text with
  | nil => exact absurd rfl text_ne
  | cons c text =>
      have next : nextLexeme c (text ++ rest) = some (kind, text.length + 1) := by
        unfold Lexeme.endsBefore at ends
        cases kind with
        | blank =>
            rw [Bool.and_eq_true, Bool.not_eq_true'] at ends
            exact nextLexeme_blank ends.1 ends.2
        | comment =>
            dsimp only [lineCommentEnds] at ends
            split at ends
            · rename_i note comment
              obtain ⟨rfl, rfl⟩ := List.cons.inj comment
              rw [Bool.and_eq_true] at ends
              exact nextLexeme_comment ends.1 ends.2
            · cases ends
        | word =>
            rw [Bool.and_eq_true, Bool.and_eq_true, Bool.not_eq_true'] at ends
            exact nextLexeme_word ends.1.1 ends.1.2 ends.2
        | lifetime =>
            dsimp only [lifetimeEnds] at ends
            split at ends
            · rename_i name lifetime
              obtain ⟨rfl, rfl⟩ := List.cons.inj lifetime
              rw [Bool.and_eq_true, Bool.and_eq_true, Bool.not_eq_true'] at ends
              exact nextLexeme_lifetime ends.1.1 ends.1.2 ends.2
            · cases ends
        | literal =>
            dsimp only [plainLiteralEnds] at ends
            split at ends
            · rename_i body string
              obtain ⟨rfl, rfl⟩ := List.cons.inj string
              exact nextLexeme_string (of_decide_eq_true ends)
            · rename_i body string
              obtain ⟨rfl, rfl⟩ := List.cons.inj string
              exact nextLexeme_byteString (of_decide_eq_true ends)
            · rw [Bool.and_eq_true, Bool.not_eq_true'] at ends
              exact nextLexeme_digits ends.1 ends.2
        | opening delimiter =>
            obtain ⟨rfl, rfl⟩ := List.cons.inj (of_decide_eq_true ends)
            exact nextLexeme_opening _
        | closing delimiter =>
            obtain ⟨rfl, rfl⟩ := List.cons.inj (of_decide_eq_true ends)
            exact nextLexeme_closing _
        | mark m =>
            rw [Bool.and_eq_true, Bool.and_eq_true, Bool.not_eq_true', decide_eq_true_eq] at ends
            obtain ⟨rfl, rfl⟩ := List.cons.inj ends.1.1
            exact nextLexeme_mark ends.1.2 ends.2
      rw [List.cons_append, lexemesAfter, next]
      simp only [Nat.add_sub_cancel, lexemesAfter_skip, List.take_left]

theorem lexemes_of_separate {run : List Lexeme} (separate : areSeparate run = true) :
    lexemes (run.map Lexeme.text).flatten = some run := by
  rw [lexemes]
  induction run with
  | nil => rfl
  | cons lexeme rest inductionHypothesis =>
      rw [areSeparate, Bool.and_eq_true] at separate
      rw [List.map_cons, List.flatten_cons, lexemesAfter_append separate.1,
        inductionHypothesis separate.2]
      rfl

end Reading

end ProgramIdl.Syntax
