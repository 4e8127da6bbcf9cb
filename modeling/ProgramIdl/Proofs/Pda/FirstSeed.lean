import ProgramIdl.Proofs.Pda.ConstantText
import ProgramIdl.Proofs.Pda.Extraction

/-!
# The first seed of an array

The first element of an array of seeds is read in two ways: as far as the first comma, to name the
address that a check asks for, and as the first of the elements that the array is taken apart into.
Both find the same constant, if the brackets of the array match and no local has the constant's name
(`Pda.pdaSeeds?_of_frontConstant`).
-/

set_option autoImplicit false

namespace ProgramIdl

open ProgramIdl.Text
open ProgramIdl.Syntax

namespace Pda

/-- The constant that the first element of an array is, as far as the first comma. -/
def frontConstant? (table : SeedTable) (text : String) : Option String :=
  ((firstElement? text).bind table.byteConstant?).map (·.1)

theorem nameOfSeeds?_eq (table : SeedTable) (text : String) :
    nameOfSeeds? table text =
      match seedMacro? text with
      | some name => some (nameOfMacro name)
      | none => (frontConstant? table text).map nameOfConstant := by
  rw [nameOfSeeds?, frontConstant?]
  cases seedMacro? text with
  | some name => rfl
  | none =>
      cases firstElement? text with
      | none => rfl
      | some first =>
          simp only [Option.bind_eq_bind, Option.bind_some]
          cases table.byteConstant? first <;> rfl

theorem exists_dropClosing_split (text : List Char) :
    ∃ closers, text = dropClosing text ++ closers ∧ ∀ c ∈ closers, c = ']' := by
  have split := List.rdropWhile_append_rtakeWhile (p := (· = ']')) (l := text)
  refine ⟨text.rtakeWhile (· = ']'), split.symm, fun c member => ?_⟩
  simpa using List.mem_rtakeWhile_imp member

/-- The text of an array as far as its first comma. -/
theorem exists_of_firstElement? {text first : String} (flush : Flush text.toList)
    (found : firstElement? text = some first) :
    ∃ signs blanks closers behind, text.toList =
        signs ++ blanks ++ '[' :: (first.toList ++ (closers ++ behind)) ∧
      (∀ c ∈ signs, c = '&') ∧ Blank blanks ∧ (∀ c ∈ closers, c = ']') ∧
        (Blank behind ∨ ∃ rest, behind = ',' :: rest) := by
  obtain ⟨signs, blanks, trimmed, allSigns, blank, _⟩ := exists_dereference_split text.toList
  obtain ⟨back, ended, backBlank⟩ := exists_trimEnd_split text.toList
  rw [← trim_of_flush flush, trimmed] at ended
  rw [firstElement?] at found
  split at found
  · rename_i rest opened
    rw [opened] at ended
    have parts : ∃ before behind, first = .ofList (dropClosing before) ∧
        rest ++ back = before ++ behind ∧ (Blank behind ∨ ∃ rest, behind = ',' :: rest) := by
      cases cut : cutAt ',' rest with
      | none =>
          rw [cut] at found
          exact ⟨rest, back, (Option.some.inj found).symm, rfl, .inl backBlank⟩
      | some parts =>
          rw [cut] at found
          refine ⟨parts.1, ',' :: (parts.2 ++ back), (Option.some.inj found).symm, ?_, .inr ⟨_, rfl⟩⟩
          rw [cutAt_eq_some cut]
          simp
    obtain ⟨before, behind, rfl, split, kind⟩ := parts
    obtain ⟨closers, closed, allClosers⟩ := exists_dropClosing_split before
    refine ⟨signs, blanks, closers, behind, ?_, allSigns, blank, allClosers, kind⟩
    rw [ended, String.toList_ofList, ← List.append_assoc (dropClosing before), ← closed, ← split]
    simp
  · cases found

theorem not_mem_of_plain {outside : List Char} (plain : ∀ c ∈ outside, isPlain c = true)
    {mark : Char} (special : isPlain mark = false) : mark ∉ outside := by
  intro member
  rw [plain mark member] at special
  cases special

/-- An array is closed if its brackets match. -/
theorem untilClosed_of_matched {outside inside : List Char}
    (plain : ∀ c ∈ outside, isPlain c = true)
    (matched : (outside ++ '[' :: inside).count '[' = (outside ++ '[' :: inside).count ']') :
    (untilClosed 0 inside).isSome := by
  have counted {mark : Char} (special : isPlain mark = false) :
      (outside ++ '[' :: inside).count mark = ('[' :: inside).count mark := by
    rw [List.count_append, List.count_eq_zero.mpr (not_mem_of_plain plain special), Nat.zero_add]
  rw [counted (by decide), counted (by decide), List.count_cons_self,
    List.count_cons_of_ne (by decide)] at matched
  exact untilClosed_isSome (by omega)

/-- A constant in front of an array that is passed to a call is the first of the seeds that are read
of the call, unless a local hides it. -/
theorem pdaSeeds?_of_frontConstant {table : SeedTable} {body : List Fragment} {start : Nat}
    {argument constant : String}
    (leads : frontConstant? table (resolve (bindings body) start (compact argument)) =
      some constant)
    (matched : (resolve (bindings body) start (compact argument)).toList.count '[' =
      (resolve (bindings body) start (compact argument)).toList.count ']')
    (visible : boundAt? (bindings body) constant start = none) :
    ∃ seeds, pdaSeeds? (bindings body) start argument = some seeds ∧
      leadingConstant? table seeds = some constant := by
  have flush : Flush (resolve (bindings body) start (compact argument)).toList :=
    resolve_flush (compact_flush argument)
  rw [pdaSeeds?]
  generalize resolve (bindings body) start (compact argument) = text at *
  rw [frontConstant?, Option.map_eq_some_iff] at leads
  obtain ⟨⟨_, bytes⟩, leads, rfl⟩ := leads
  obtain ⟨first, found, isConstant⟩ := Option.bind_eq_some_iff.mp leads
  obtain ⟨names⟩ := table.namesConstant isConstant
  obtain ⟨signs, blanks, closers, behind, split, allSigns, blank, allClosers, kind⟩ :=
    exists_of_firstElement? flush found
  have outside : ∀ c ∈ signs ++ blanks, isPlain c = true := by
    intro c member
    rcases List.mem_append.mp member with sign | blankChar
    · rw [allSigns c sign]
      decide
    · exact isPlain_of_isBlank (blank c blankChar)
  have opened : opensArray text.toList = true := by
    rw [split, opensArray_append allSigns blank (flush_cons_iff.mpr (by decide)) (by simp)]
    rfl
  have closed : (untilClosed 0 (first.toList ++ (closers ++ behind))).isSome := by
    rw [split] at matched
    exact untilClosed_of_matched outside matched
  have ended : ∃ c more, closers ++ behind = c :: more ∧ (c = ',' ∨ c = ']') := by
    cases closers with
    | cons closer closers => exact ⟨closer, closers ++ behind, rfl, .inr (allClosers _ (by simp))⟩
    | nil =>
        rcases kind with blankEnd | ⟨rest, rfl⟩
        · -- Nothing closes the array.
          have steady : Steady behind := steady_of_plain fun c member =>
            isPlain_of_isBlank (blankEnd c member)
          have whole := (names.steady_text.append steady).closes 0 []
          rw [List.append_nil] at whole
          rw [List.nil_append, whole] at closed
          cases closed
        · exact ⟨',', rest, rfl, .inl rfl⟩
  obtain ⟨others, elements⟩ := exists_seedElements (not_mem_of_plain outside (by decide))
    names.steady_text names.trim_ne names.opensArray_trim ended closed
  rw [← split, String.ofList_toList] at elements
  have kept : resolve (bindings body) start (.ofList (trim first.toList)) =
      .ofList (trim first.toList) := by
    refine resolveSteps_of_unbound (fun name front => ?_) maxBindingSteps
    rw [names.frontName?_trim front, String.ofList_toList]
    exact visible
  rw [if_pos opened, elements]
  refine ⟨_, rfl, ?_⟩
  dsimp only
  rw [leadingConstant?, List.map_cons, List.head?_cons, Option.bind_some, kept,
    table.byteConstant?_trim, isConstant]
  rfl

end Pda

end ProgramIdl
