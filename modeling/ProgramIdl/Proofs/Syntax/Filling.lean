import ProgramIdl.Proofs.Syntax.Moved
import ProgramIdl.Proofs.Syntax.Separation
import ProgramIdl.Proofs.Text.Filling

/-!
# Source texts with open names

A source text may leave a name open at the front of a word, or inside a comment.  Whichever names are
filled in, the items of the text are those of the open text with the names filled in
(`itemsOf?_fill`).
-/

set_option autoImplicit false

namespace ProgramIdl

open ProgramIdl.Text

namespace Syntax

open Filling

variable (ρ : Filling)

/-! ## Lexemes -/

/-- The lexeme with the names filled in. -/
def Lexeme.fill (lexeme : Lexeme) : Lexeme where
  kind := lexeme.kind
  text := ρ.fill lexeme.text
  text_ne := ρ.fill_ne_nil lexeme.text_ne

/-- Whether a lexeme leaves names open only where they may be: in front of a word, or in a comment. -/
def Lexeme.isFillable (lexeme : Lexeme) : Bool :=
  match lexeme.kind, lexeme.text with
  | .word, 'Ω' :: rest => decide (4 ≤ rest.length) && isWhole rest
  | .comment, '/' :: '/' :: _ => true
  | _, text => isWhole text

/-- Two characters in front of which the same lexemes end. -/
def LikeNext (next next' : Option Char) : Prop :=
  next = next' ∨ ∃ c c', next = some c ∧ next' = some c' ∧ isIdentifierStart c = true ∧
    isIdentifierPart c = true ∧ isIdentifierStart c' = true ∧ isIdentifierPart c' = true

theorem likeNext_fill (text : List Char) : LikeNext text.head? (ρ.fill text).head? := by
  cases text with
  | nil => exact .inl rfl
  | cons c text =>
      rw [fill_cons]
      by_cases hole : c ∈ holes
      · obtain ⟨letter, more, named, word, noDigit⟩ := ρ.exists_letter_of_hole hole
        have open_ := letter_of_hole c hole
        refine .inr ⟨c, letter, rfl, by rw [named]; rfl, open_.1, open_.2.1, ?_, ?_⟩
        · exact isIdentifierStart_of_ascii word noDigit
        · exact isIdentifierPart_of_ascii word
      · rw [ρ.char_of_not_mem hole]
        exact .inl rfl

theorem Lexeme.endsBefore_congr {next next' : Option Char} (like : LikeNext next next')
    (lexeme : Lexeme) : lexeme.endsBefore next = lexeme.endsBefore next' := by
  rcases like with rfl | ⟨c, c', rfl, rfl, start, part, start', part'⟩
  · rfl
  · have visible := (visible_of_start start).1
    have visible' := (visible_of_start start').1
    have unbroken (mark : Char) (stops : isIdentifierStart mark = false) :
        (c = mark) = False ∧ (c' = mark) = False :=
      ⟨eq_false (ne_of_isIdentifierStart start stops), eq_false (ne_of_isIdentifierStart start' stops)⟩
    have break_ := unbroken '\n' (isIdentifierStart_of_mark (by decide))
    have slash := unbroken '/' (isIdentifierStart_of_mark (by decide))
    have star := unbroken '*' (isIdentifierStart_of_mark (by decide))
    unfold Lexeme.endsBefore lineCommentEnds lifetimeEnds plainLiteralEnds
    simp only [Option.any_some, Option.all_some, visible, visible', part, part', break_, slash, star,
      List.mem_cons, List.not_mem_nil, Bool.true_or]

theorem Lexeme.endsBefore_fill {lexeme : Lexeme} (fillable : lexeme.isFillable = true)
    {next : Option Char} (ends : lexeme.endsBefore next = true) :
    (lexeme.fill ρ).endsBefore next = true := by
  obtain ⟨kind, text, text_ne⟩ := lexeme
  by_cases whole : isWhole text = true
  · have same : Lexeme.fill ρ ⟨kind, text, text_ne⟩ = ⟨kind, text, text_ne⟩ := by
      simp only [Lexeme.fill, ρ.fill_of_isWhole whole]
    rwa [same]
  · unfold Lexeme.isFillable at fillable
    dsimp only at fillable
    split at fillable
    · rename_i rest
      change (isIdentifierStart 'Ω' && ('Ω' :: rest).all isIdentifierPart && _) = true at ends
      change ((ρ.fill ('Ω' :: rest)).head?.any isIdentifierStart &&
        (ρ.fill ('Ω' :: rest)).all isIdentifierPart && _) = true
      rw [Bool.and_eq_true, Bool.and_eq_true] at ends ⊢
      refine ⟨⟨?_, ρ.all_fill (fun _ => isIdentifierPart_of_ascii) ends.1.2⟩, ends.2⟩
      rcases likeNext_fill ρ ('Ω' :: rest) with same | ⟨c, c', _, named, _, _, start, _⟩
      · rw [← same]
        exact ends.1.1
      · rw [named]
        exact start
    · rename_i note
      change (note.all (· ≠ '\n') && _) = true at ends
      change ((ρ.fill note).all (· ≠ '\n') && _) = true
      rw [Bool.and_eq_true] at ends ⊢
      refine ⟨ρ.all_fill (fun c word => ?_) ends.1, ends.2⟩
      have part := isIdentifierPart_of_ascii word
      exact decide_eq_true (ne_of_isIdentifierPart part (isIdentifierPart_of_mark (by decide)))
    · exact absurd fillable whole

@[simp] theorem firstChar?_fill (run : List Lexeme) :
    firstChar? (run.map (Lexeme.fill ρ)) = (ρ.fill (run.map Lexeme.text).flatten).head? := by
  rw [firstChar?, ρ.fill_flatten, List.map_map, List.map_map]
  rfl

theorem areSeparate_fill {run : List Lexeme} (separate : areSeparate run = true)
    (fillable : run.all Lexeme.isFillable = true) :
    areSeparate (run.map (Lexeme.fill ρ)) = true := by
  induction run with
  | nil => rfl
  | cons lexeme rest inductionHypothesis =>
      rw [areSeparate, Bool.and_eq_true] at separate
      rw [List.all_cons, Bool.and_eq_true] at fillable
      rw [List.map_cons, areSeparate, Bool.and_eq_true, firstChar?_fill]
      refine ⟨?_, inductionHypothesis separate.2 fillable.2⟩
      have ends := Lexeme.endsBefore_fill ρ fillable.1 separate.1
      rwa [firstChar?, Lexeme.endsBefore_congr (likeNext_fill ρ _)] at ends

/-- The lexemes of a text with open names, if they stand apart and may be filled in. -/
def Opens (text : List Char) (run : List Lexeme) : Prop :=
  lexemes text = some run ∧ areSeparate run = true ∧ run.all Lexeme.isFillable = true

/-- Filling in names fills them into the lexemes. -/
theorem Opens.lexemes_fill {text : List Char} {run : List Lexeme} (opens : Opens text run) :
    lexemes (ρ.fill text) = some (run.map (Lexeme.fill ρ)) := by
  obtain ⟨read, separate, fillable⟩ := opens
  have whole := lexemes_of_separate (areSeparate_fill ρ separate fillable)
  have texts : (run.map (Lexeme.fill ρ)).map Lexeme.text = (run.map Lexeme.text).map ρ.fill := by
    rw [List.map_map, List.map_map]
    rfl
  rwa [texts, ← ρ.fill_flatten, flatten_lexemes read] at whole

/-! ## Tokens -/

/-- A token, and the one with the names filled in. -/
structure Token.Filled (token token' : Token) : Prop where
  kind : token.kind = token'.kind
  text : token'.text = ρ.fill token.text
  lead : token'.lead = token.lead.map (Lexeme.fill ρ)
  word : token.kind = .word →
    isWhole token.text = true ∨ ∃ rest, token.text = 'Ω' :: rest ∧ 4 ≤ rest.length ∧ isWhole rest = true
  other : token.kind ≠ .word → isWhole token.text = true

theorem tokensFrom_fill {run : List Lexeme} (fillable : run.all Lexeme.isFillable = true)
    (lead : List Lexeme) (start line start' line' : Nat) :
    List.Forall₂ (Token.Filled ρ) (tokensFrom lead start line run)
      (tokensFrom (lead.map (Lexeme.fill ρ)) start' line' (run.map (Lexeme.fill ρ))) := by
  induction run generalizing lead start line start' line' with
  | nil => exact .nil
  | cons lexeme rest inductionHypothesis =>
      rw [List.all_cons, Bool.and_eq_true] at fillable
      by_cases gap : lexeme.kind = .blank ∨ lexeme.kind = .comment
      · rw [List.map_cons, tokensFrom_cons_gap gap, @tokensFrom_cons_gap _ _ _ (lexeme.fill ρ) _ gap]
        exact inductionHypothesis fillable.2 (lexeme :: lead) _ _ _ _
      · have visible := not_or.mp gap
        rw [List.map_cons, tokensFrom_cons_token visible,
          @tokensFrom_cons_token _ _ _ (lexeme.fill ρ) _ visible]
        refine .cons ⟨rfl, rfl, ?_, ?_, ?_⟩ (inductionHypothesis fillable.2 [] _ _ _ _)
        · exact List.map_reverse.symm
        · intro word
          have here := fillable.1
          unfold Lexeme.isFillable at here
          split at here
          · rename_i open_ named
            rw [Bool.and_eq_true, decide_eq_true_eq] at here
            exact .inr ⟨_, named, here⟩
          · rename_i comment _
            exact absurd comment visible.2
          · exact .inl here
        · intro other
          have here := fillable.1
          unfold Lexeme.isFillable at here
          split at here
          · rename_i word _
            exact absurd word other
          · rename_i comment _
            exact absurd comment visible.2
          · exact here

/-- A word with names filled in is a keyword only if it is one without. -/
theorem Token.Filled.text_iff {token token' : Token} (filled : token.Filled ρ token')
    (word : token.kind = .word) {name : String} (keyword : name ∈ keywords) :
    token.text = name.toList ↔ token'.text = name.toList := by
  have short : ∀ name ∈ keywords, isWhole name.toList = true ∧
      (name.toList.head?.any Char.isUpper = true → name.toList.length ≤ 4) := by
    decide +kernel
  rw [filled.text]
  rcases filled.word word with whole | ⟨rest, open_, long, wholeRest⟩
  · rw [ρ.fill_of_isWhole whole]
  · rw [open_, fill_cons, ρ.fill_of_isWhole wholeRest]
    refine iff_of_false (fun same => ?_) (fun same => ?_)
    · have whole := (short name keyword).1
      rw [← same] at whole
      cases whole
    · obtain ⟨c, first, capital⟩ := ρ.pascal_capital
      obtain ⟨more, named⟩ := List.head?_eq_some_iff.mp first
      change ρ.pascal ++ rest = name.toList at same
      rw [named, List.cons_append] at same
      have few := (short name keyword).2 (by rw [← same]; exact capital)
      rw [← same, List.length_cons, List.length_append] at few
      omega

/-- The tokens of a text with open names, each with the one in which names are filled in. -/
structure Fillings (pairs : List (Token × Token)) : Prop where
  filled : ∀ pair ∈ pairs, pair.1.Filled ρ pair.2
  plain : ∀ pair ∈ pairs, pair.1.Plain ∧ pair.2.Plain
  order : pairs.Pairwise fun pair next => pair.1.stop ≤ next.1.start ∧ pair.2.stop ≤ next.2.start

section Fillings

variable {ρ} {pairs : List (Token × Token)} (fillings : Fillings ρ pairs)

/-- The places of tokens in a text with open names and in one with the names filled in. -/
def Fillings.places : Places where
  start place place' := ∃ pair ∈ pairs, pair.1.start = place ∧ pair.2.start = place'
  stop place place' := ∃ pair ∈ pairs, pair.1.stop = place ∧ pair.2.stop = place'
  order := by
    rintro _ _ _ _ ⟨pair, listed, rfl, rfl⟩ ⟨other, otherListed, rfl, rfl⟩
    exact stop_le_start_iff fillings.order listed otherListed

theorem Fillings.starts {token token' : Token} (listed : (token, token') ∈ pairs) :
    fillings.places.start token.start token'.start :=
  ⟨_, listed, rfl, rfl⟩

theorem Fillings.stops {token token' : Token} (listed : (token, token') ∈ pairs) :
    fillings.places.stop token.stop token'.stop :=
  ⟨_, listed, rfl, rfl⟩

/-- Tokens are alike if they differ in names that are filled in. -/
def Fillings.like : Likeness where
  token _ token token' := (token, token') ∈ pairs
  start := fillings.places.start
  stop := fillings.places.stop
  first listed := listed
  kind listed := (fillings.filled _ listed).kind
  text {_ token token'} listed other := by
    have filled := fillings.filled _ listed
    exact (ρ.fill_of_isWhole (filled.other other)).symm.trans filled.text.symm
  word {_ token token'} listed name keyword := by
    have filled : token.Filled ρ token' := fillings.filled _ listed
    by_cases word : token.kind = .word
    · exact filled.text_iff ρ word keyword
    · rw [filled.text, ρ.fill_of_isWhole (filled.other word)]
  mark listed := (fillings.plain _ listed).1.mark
  starts listed := fillings.starts listed
  stops listed := fillings.stops listed

theorem tokensAlike_fill {tokens tokens' : List Token}
    (filled : List.Forall₂ (Token.Filled ρ) tokens tokens')
    (listed : ∀ pair ∈ tokens.zip tokens', pair ∈ pairs) (inner : Bool) :
    TokensAlike fillings.like inner tokens tokens' := by
  induction filled generalizing inner with
  | nil => exact .nil
  | cons _ others inductionHypothesis =>
      rw [List.zip_cons_cons] at listed
      obtain ⟨here, later⟩ := List.forall_mem_cons.mp listed
      refine .cons here ?_ (inductionHypothesis later true)
      intro next first next' first' _
      cases others with
      | nil => cases first
      | cons following _ =>
          obtain rfl := Option.some.inj first
          obtain rfl := Option.some.inj first'
          rw [Token.isJoint, Token.isJoint, following.lead, List.isEmpty_map]

end Fillings

/-! ## Items -/

end Syntax

/-- Relations of items of a text with open names and of the same with the names filled in. -/
def Filling.relations (ρ : Filling) (places : Places) : Syntax.Relations where
  text _ text text' := text' = ρ.string text
  name name name' := name' = ρ.string name
  comments texts texts' := texts' = texts.map ρ.string ∧ ∀ note ∈ texts, note.toList.head? = some '/'
  start := places.start
  stop := places.stop

namespace Syntax

open Filling

variable (ρ : Filling)

section Items

variable {ρ} {pairs : List (Token × Token)}

theorem Token.Filled.spelling {token token' : Token} (filled : token.Filled ρ token') :
    token'.spelling = ρ.fill token.spelling := by
  rw [Token.spelling, Token.spelling, filled.text, filled.lead, fill_append, fill_flatten, List.map_map,
    List.map_map]
  rfl

theorem Token.Filled.comments {token token' : Token} (filled : token.Filled ρ token') :
    token'.comments = token.comments.map ρ.string := by
  rw [Token.comments, Token.comments, filled.lead, List.filter_map, List.map_map, List.map_map]
  apply List.map_congr_left
  intro lexeme _
  exact congrArg String.ofList (congrArg ρ.fill String.toList_ofList.symm)

theorem spelling_fill {fillings : Fillings ρ pairs} {inner : Bool} {tokens tokens' : List Token}
    (alike : List.Forall₂ (fillings.like.token inner) tokens tokens') :
    (tokens'.map Token.spelling).flatten = ρ.fill (tokens.map Token.spelling).flatten := by
  induction alike with
  | nil => rfl
  | cons listed _ inductionHypothesis =>
      have filled := fillings.filled _ listed
      rw [List.map_cons, List.map_cons, List.flatten_cons, List.flatten_cons, fill_append,
        inductionHypothesis, filled.spelling]

/-- The names are filled into the texts that are kept. -/
theorem string_of_textAlike {fillings : Fillings ρ pairs} {text text' : String}
    (alike : TextAlike fillings.like text text') : text' = ρ.string text := by
  obtain ⟨trees, alike, rfl, rfl⟩ := alike
  cases alike with
  | nil => rfl
  | cons first _ behind =>
      obtain ⟨rest, rest', split, split', tail⟩ := first.tail_tokens
      have filled := (fillings.filled _ first.first_token).text
      have others := spelling_fill (List.rel_append tail (behind.tokens rfl))
      dsimp only at filled
      simp only [List.map_cons, sourceText, Tree.allTokens, split, split', List.cons_append]
      rw [filled, others, ← fill_append]
      exact congrArg String.ofList (congrArg ρ.fill String.toList_ofList.symm)

theorem Fillings.implies (fillings : Fillings ρ pairs) :
    fillings.like.kept.Implies (ρ.relations fillings.places) where
  name := by
    rintro _ _ ⟨token, token', listed, rfl, rfl⟩
    have filled : token.Filled ρ token' := fillings.filled _ listed
    rw [Token.name, Token.name, filled.text]
    exact congrArg String.ofList (congrArg ρ.fill String.toList_ofList.symm)
  comments := by
    rintro _ _ ⟨token, token', listed, rfl, rfl⟩
    exact ⟨(fillings.filled _ listed).comments, (fillings.plain _ listed).1.comments⟩
  start same := same
  stop same := same
  plain := by
    rintro _ _ ⟨token, token', listed, rfl, rfl⟩
    obtain ⟨plain, plain'⟩ := fillings.plain _ listed
    exact ⟨keptAttributes_comments plain, keptAttributes_comments plain'⟩

/-- The items of a text with open names are items of the text with the names filled in. -/
theorem ItemsAlike.filled {fillings : Fillings ρ pairs} {items items' : List (Annotated Item)}
    (alike : ItemsAlike fillings.like.kept items items') :
    ItemsAlike (ρ.relations fillings.places) items items' := by
  have told := alike.told fillings.implies
  refine told.again (told.texts.imp ?_)
  rintro ⟨kind, text⟩ ⟨kind', text'⟩ ⟨same, texts⟩
  exact ⟨same, string_of_textAlike texts⟩

end Items

theorem readable_of_slash {text : List Char} (slash : text.head? = some '/') :
    readable text = text := by
  obtain ⟨rest, rfl⟩ := List.head?_eq_some_iff.mp slash
  rfl

/-- Whichever names are filled in, a text has the items of the text with open names, with the names
filled in. -/
theorem itemsOf?_fill {text : List Char} {run : List Lexeme} (opens : Opens text run)
    (slash : text.head? = some '/') :
    ∃ places, Option.Rel (ItemsAlike (ρ.relations places)) (itemsOf? (.ofList text))
      (itemsOf? (.ofList (ρ.fill text))) := by
  have slash' : (ρ.fill text).head? = some '/' := by
    obtain ⟨rest, rfl⟩ := List.head?_eq_some_iff.mp slash
    rfl
  have read : tokens? (.ofList text) = some (tokensFrom [] 0 1 run) := by
    rw [tokens?, String.toList_ofList, readable_of_slash slash, opens.1, Option.map_some]
  have read' : tokens? (.ofList (ρ.fill text)) =
      some (tokensFrom [] 0 1 (run.map (Lexeme.fill ρ))) := by
    rw [tokens?, String.toList_ofList, readable_of_slash slash', opens.lexemes_fill, Option.map_some]
  have filled := tokensFrom_fill ρ opens.2.2 [] 0 1 0 1
  have placed := placed_of_tokens? read
  have placed' := placed_of_tokens? read'
  rw [List.map_nil] at filled
  rw [itemsOf?, itemsOf?, trees?_eq, trees?_eq, read, read']
  generalize tokensFrom [] 0 1 run = tokens at filled placed
  generalize tokensFrom [] 0 1 (run.map (Lexeme.fill ρ)) = tokens' at filled placed'
  have fillings : Fillings ρ (tokens.zip tokens') :=
    { filled := fun _ listed => (List.forall₂_iff_zip.mp filled).2 listed
      plain := fun _ listed =>
        ⟨placed.plain _ (List.of_mem_zip listed).1, placed'.plain _ (List.of_mem_zip listed).2⟩
      order := pairwise_zip placed.order placed'.order }
  have tokensAlike := tokensAlike_fill fillings filled (fun _ listed => listed) false
  have gathered := @gather_alike _ _ _ _ tokensAlike [] [] .nil [] [] ⟨[], .nil, rfl, rfl⟩ rfl
    fun _ listed => absurd listed (Option.not_mem_none _)
  refine ⟨fillings.places, ?_⟩
  simp only [Option.bind_some]
  generalize gather [] [] tokens = trees at gathered ⊢
  generalize gather [] [] tokens' = trees' at gathered ⊢
  cases gathered with
  | none => exact .none
  | some related =>
      obtain ⟨pairs, alike, rfl, rfl⟩ := related
      have read := itemsOfTrees_alike alike
      simp only [Option.bind_some]
      generalize itemsOfTrees (pairs.map Prod.fst) = items at read ⊢
      generalize itemsOfTrees (pairs.map Prod.snd) = items' at read ⊢
      cases read with
      | none => exact .none
      | some items => exact .some items.filled

end Syntax

end ProgramIdl
