import ProgramIdl.Proofs.Literal.ByteString

/-!
# Quoting a text

A text is quoted as a cooked literal: backslashes and quotes are escaped, a line feed stands as it is or
as an escape, and everything else is left alone.  The reader of literals gives the text back
(`string?_quotation`), whatever its characters are.
-/

set_option autoImplicit false

namespace ProgramIdl.Literal

open ProgramIdl.Text

/-- Two ways of writing a line feed inside quotes. -/
def SpellsFeed (feed : List Char) : Prop :=
  feed = ['\n'] ∨ feed = ['\\', 'n']

/-- What stands for a character inside quotes. -/
def spell (feed : List Char) (c : Char) : List Char :=
  if c = '\\' ∨ c = '"' then ['\\', c] else if c = '\n' then feed else [c]

/-- The literal of a text. -/
def quotation (feed text : List Char) : List Char :=
  '"' :: (text.flatMap (spell feed) ++ ['"'])

section Spell

variable {feed : List Char} (spells : SpellsFeed feed)

include spells

theorem unescapeFrom_spell (c : Char) (rest : List Char) :
    unescapeFrom (.characters 0) (spell feed c ++ rest) =
      (unescapeFrom (.characters 0) rest).map (utf8Bytes [c] ++ ·) := by
  unfold spell
  by_cases marked : c = '\\' ∨ c = '"'
  · rw [if_pos marked]
    have escape : simpleEscape? c = some c := by
      cases marked with
      | inl same => rw [same]; rfl
      | inr same => rw [same]; rfl
    exact unescapeFrom_simple escape rest
  · rw [if_neg marked]
    rw [not_or] at marked
    by_cases feeds : c = '\n'
    · subst feeds
      rw [if_pos rfl]
      cases spells with
      | inl plain =>
          rw [plain]
          exact unescapeFrom_plain (by decide) rest
      | inr escaped =>
          rw [escaped]
          exact unescapeFrom_simple rfl rest
    · rw [if_neg feeds]
      exact unescapeFrom_plain marked.1 rest

theorem cookedBody_spell (c : Char) (rest : List Char) :
    cookedBody (spell feed c ++ rest) =
      (cookedBody rest).map fun (body, after) => (spell feed c ++ body, after) := by
  unfold spell
  by_cases marked : c = '\\' ∨ c = '"'
  · rw [if_pos marked]
    rfl
  · rw [if_neg marked]
    rw [not_or] at marked
    by_cases feeds : c = '\n'
    · subst feeds
      rw [if_pos rfl]
      cases spells with
      | inl plain =>
          rw [plain]
          exact cookedBody_plain (by decide) rest
      | inr escaped =>
          rw [escaped]
          rfl
    · rw [if_neg feeds]
      exact cookedBody_plain ⟨marked.2, marked.1⟩ rest

theorem unescape_flatMap_spell (text : List Char) :
    unescape (text.flatMap (spell feed)) = some (utf8Bytes text) := by
  induction text with
  | nil => rfl
  | cons c text inductionHypothesis =>
      rw [unescape] at inductionHypothesis ⊢
      rw [List.flatMap_cons, unescapeFrom_spell spells, inductionHypothesis]
      simp [utf8Bytes]

theorem cookedBody_flatMap_spell (text after : List Char) :
    cookedBody (text.flatMap (spell feed) ++ '"' :: after) =
      some (text.flatMap (spell feed), after) := by
  induction text with
  | nil => rfl
  | cons c text inductionHypothesis =>
      rw [List.flatMap_cons, List.append_assoc, cookedBody_spell spells, inductionHypothesis]
      rfl

end Spell

theorem trim_quotation (feed text : List Char) : trim (quotation feed text) = quotation feed text := by
  rw [quotation, trim_of_flush (flush_cons_iff.mpr (by decide))]
  apply trimEnd_of_getLast?
  intro c last
  rw [← List.cons_append, List.getLast?_concat] at last
  obtain rfl := Option.some.inj last
  decide

/-- A text that is quoted is read as itself. -/
theorem string?_quotation {feed : List Char} (spells : SpellsFeed feed) (text : List Char) :
    string? (.ofList (quotation feed text)) = some (.ofList text) := by
  have cooked : cooked? (quotation feed text) = some (text.flatMap (spell feed)) := by
    rw [quotation, cooked?, cookedBody_flatMap_spell spells]
    rfl
  have read : (cooked? (quotation feed text)).bind unescape = some (utf8Bytes text) := by
    rw [cooked, Option.bind_some, unescape_flatMap_spell spells]
  rw [string?, String.toList_ofList, trim_quotation, read]
  simp only [quotation, Option.map_some, utf8Lenient_utf8Bytes]
  rfl

end ProgramIdl.Literal
