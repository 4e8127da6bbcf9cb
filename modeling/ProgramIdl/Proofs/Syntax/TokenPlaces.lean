import ProgramIdl.Syntax.Tree

/-!
# Tokens of a text

The tokens of a text stand one behind the other, a mark is spelled by its own character, and what is
read as a comment starts with a slash.
-/

set_option autoImplicit false

namespace ProgramIdl.Syntax

/-! ## Lexemes -/

/-- A mark is spelled by its own character, and a comment starts with a slash. -/
structure Lexeme.Plain (lexeme : Lexeme) : Prop where
  mark {c : Char} : lexeme.kind = .mark c → lexeme.text = [c]
  comment : lexeme.kind = .comment → lexeme.text.head? = some '/'

theorem quoteLexeme_kind {rest : List Char} {kind : LexemeKind} {size : Nat}
    (found : quoteLexeme rest = some (kind, size)) : kind = .literal ∨ kind = .lifetime := by
  unfold quoteLexeme at found
  split at found
  · obtain ⟨_, _, same⟩ := Option.map_eq_some_iff.mp found
    exact .inl (Prod.mk.inj same).1.symm
  · split at found
    · cases found
    · exact .inl (Prod.mk.inj (Option.some.inj found)).1.symm
  · split at found
    · exact .inr (Prod.mk.inj (Option.some.inj found)).1.symm
    · cases found
  · cases found

theorem letteredLiteral_kind {text : List Char} {kind : LexemeKind} {size : Nat}
    (found : letteredLiteral text = some (kind, size)) : kind = .literal := by
  unfold letteredLiteral at found
  split at found
  all_goals first
    | obtain ⟨_, _, same⟩ := Option.map_eq_some_iff.mp found
      exact (Prod.mk.inj same).1.symm
    | cases found

theorem wordLexeme_kind (text : List Char) : (wordLexeme text).1 = .word := by
  unfold wordLexeme
  split
  · split <;> rfl
  · rfl

/-- A mark and a comment are told by the character that they start with. -/
theorem nextLexeme_kind {c : Char} {rest : List Char} {kind : LexemeKind} {size : Nat}
    (found : nextLexeme c rest = some (kind, size)) :
    (∀ d, kind = .mark d → c = d ∧ size = 1) ∧ (kind = .comment → c = '/') := by
  unfold nextLexeme at found
  split at found
  · obtain ⟨rfl, rfl⟩ := Prod.mk.inj (Option.some.inj found)
    exact ⟨nofun, nofun⟩
  · split at found
    · obtain ⟨rfl, rfl⟩ := Prod.mk.inj (Option.some.inj found)
      exact ⟨nofun, fun _ => rfl⟩
    · obtain ⟨_, _, same⟩ := Option.map_eq_some_iff.mp found
      obtain ⟨rfl, rfl⟩ := Prod.mk.inj same
      exact ⟨nofun, fun _ => rfl⟩
    · obtain ⟨_, _, same⟩ := Option.map_eq_some_iff.mp found
      obtain ⟨rfl, rfl⟩ := Prod.mk.inj same
      exact ⟨nofun, nofun⟩
    · rcases quoteLexeme_kind found with rfl | rfl
      · exact ⟨nofun, nofun⟩
      · exact ⟨nofun, nofun⟩
    -- the six delimiters
    iterate 6
      obtain ⟨rfl, rfl⟩ := Prod.mk.inj (Option.some.inj found)
      exact ⟨nofun, nofun⟩
    · split at found
      · obtain ⟨rfl, rfl⟩ := Prod.mk.inj (Option.some.inj found)
        exact ⟨nofun, nofun⟩
      · split at found
        · rcases lettered : letteredLiteral (c :: rest) with _ | ⟨read, length⟩
          · rw [lettered] at found
            obtain rfl : (wordLexeme (c :: rest)).1 = kind := congrArg Prod.fst (Option.some.inj found)
            rw [wordLexeme_kind]
            exact ⟨nofun, nofun⟩
          · rw [lettered] at found
            obtain ⟨rfl, rfl⟩ := Prod.mk.inj (Option.some.inj found)
            rw [letteredLiteral_kind lettered]
            exact ⟨nofun, nofun⟩
        · split at found
          · obtain ⟨rfl, rfl⟩ := Prod.mk.inj (Option.some.inj found)
            exact ⟨fun d is => ⟨LexemeKind.mark.inj is, rfl⟩, nofun⟩
          · cases found

theorem lexemesAfter_plain {taken : Nat} {text : List Char} {read : List Lexeme}
    (reads : lexemesAfter taken text = some read) : ∀ lexeme ∈ read, lexeme.Plain := by
  induction text generalizing taken read with
  | nil =>
      cases taken <;> cases reads <;> nofun
  | cons c rest inductionHypothesis =>
      cases taken with
      | succ taken => exact inductionHypothesis reads
      | zero =>
          rw [lexemesAfter] at reads
          split at reads
          · rename_i kind size found
            obtain ⟨later, laterReads, rfl⟩ := Option.map_eq_some_iff.mp reads
            obtain ⟨marks, comments⟩ := nextLexeme_kind found
            intro lexeme listed
            rcases List.mem_cons.mp listed with rfl | listed
            · constructor
              · intro d is
                obtain ⟨rfl, rfl⟩ := marks d is
                rfl
              · intro is
                exact congrArg some (comments is)
            · exact inductionHypothesis laterReads lexeme listed
          · cases reads

/-! ## Tokens -/

/-- A mark is spelled by its own character, and so is what stands in front of the token. -/
structure Token.Plain (token : Token) : Prop where
  mark {c : Char} : token.kind = .mark c → token.text = [c]
  lead : ∀ lexeme ∈ token.lead, lexeme.Plain

/-- Comments start with a slash. -/
theorem Token.Plain.comments {token : Token} (plain : token.Plain) :
    ∀ note ∈ token.comments, note.toList.head? = some '/' := by
  intro note listed
  obtain ⟨lexeme, kept, rfl⟩ := List.mem_map.mp listed
  obtain ⟨member, comment⟩ := List.mem_filter.mp kept
  rw [String.toList_ofList]
  exact (plain.lead lexeme member).comment (of_decide_eq_true comment)

theorem tokensFrom_cons_token {lead : List Lexeme} {start line : Nat} {lexeme : Lexeme}
    {rest : List Lexeme} (visible : lexeme.kind ≠ .blank ∧ lexeme.kind ≠ .comment) :
    tokensFrom lead start line (lexeme :: rest) =
      ⟨lexeme.kind, lexeme.text, lexeme.text_ne, lead.reverse, start, line⟩ ::
        tokensFrom [] (start + lexeme.text.length) (line + lexeme.text.count '\n') rest := by
  obtain ⟨kind, text, text_ne⟩ := lexeme
  cases kind <;> simp_all [tokensFrom]

theorem tokensFrom_cons_gap {lead : List Lexeme} {start line : Nat} {lexeme : Lexeme}
    {rest : List Lexeme} (gap : lexeme.kind = .blank ∨ lexeme.kind = .comment) :
    tokensFrom lead start line (lexeme :: rest) =
      tokensFrom (lexeme :: lead) (start + lexeme.text.length) (line + lexeme.text.count '\n')
        rest := by
  obtain ⟨kind, text, text_ne⟩ := lexeme
  rcases gap with rfl | rfl <;> rfl

/-- Tokens that start at a place or behind it, one behind the other, all of them plain. -/
structure Placed (start : Nat) (tokens : List Token) : Prop where
  plain : ∀ token ∈ tokens, token.Plain
  behind : ∀ token ∈ tokens, start ≤ token.start
  order : tokens.Pairwise fun token next => token.stop ≤ next.start

theorem tokensFrom_placed {lead : List Lexeme} {start line : Nat} {read : List Lexeme}
    (leads : ∀ lexeme ∈ lead, lexeme.Plain) (plain : ∀ lexeme ∈ read, lexeme.Plain) :
    Placed start (tokensFrom lead start line read) := by
  induction read generalizing lead start line with
  | nil => exact ⟨nofun, nofun, .nil⟩
  | cons lexeme rest inductionHypothesis =>
      have here := plain lexeme List.mem_cons_self
      have later : ∀ lexeme ∈ rest, lexeme.Plain := fun lexeme listed =>
        plain lexeme (List.mem_cons_of_mem _ listed)
      by_cases gap : lexeme.kind = .blank ∨ lexeme.kind = .comment
      · rw [tokensFrom_cons_gap gap]
        have moved := @inductionHypothesis (lexeme :: lead) (start + lexeme.text.length)
          (line + lexeme.text.count '\n') (List.forall_mem_cons.mpr ⟨here, leads⟩) later
        exact ⟨moved.plain, fun token listed =>
          Nat.le_trans (Nat.le_add_right _ _) (moved.behind token listed), moved.order⟩
      · rw [tokensFrom_cons_token (not_or.mp gap)]
        have moved := @inductionHypothesis [] (start + lexeme.text.length)
          (line + lexeme.text.count '\n') nofun later
        refine ⟨List.forall_mem_cons.mpr ⟨⟨here.mark, ?_⟩, moved.plain⟩,
          List.forall_mem_cons.mpr ⟨Nat.le_refl _, fun token listed =>
            Nat.le_trans (Nat.le_add_right _ _) (moved.behind token listed)⟩,
          List.pairwise_cons.mpr ⟨moved.behind, moved.order⟩⟩
        intro other listed
        exact leads other (List.mem_reverse.mp listed)

/-- The tokens of a source text. -/
def tokens? (text : String) : Option (List Token) :=
  (lexemes (readable text.toList)).map (tokensFrom [] 0 1)

theorem trees?_eq (text : String) : trees? text = (tokens? text).bind (gather [] []) := by
  rw [trees?, tokens?, Option.bind_map]
  rfl

theorem tokens?_lines (lines : List String) :
    tokens? ("\n".intercalate lines) =
      (lexemes (readable (['\n'].intercalate (lines.map String.toList)))).map
        (tokensFrom [] 0 1) := by
  rw [tokens?, String.toList_intercalate]
  rfl

theorem placed_of_tokens? {text : String} {tokens : List Token}
    (read : tokens? text = some tokens) : Placed 0 tokens := by
  obtain ⟨lexemes, reads, rfl⟩ := Option.map_eq_some_iff.mp read
  exact tokensFrom_placed nofun (lexemesAfter_plain reads)

end ProgramIdl.Syntax
