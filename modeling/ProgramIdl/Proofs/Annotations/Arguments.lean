import ProgramIdl.Proofs.Annotations.Printing

/-!
# Attributes with named arguments

An attribute that is written as a name with keys and values behind it, all of them names, is read as
what is written (`Attribute.parse?_spelled`).
-/

set_option autoImplicit false

namespace ProgramIdl

open ProgramIdl.Text

namespace Attribute

/-- A key and a value, as they are written in an attribute. -/
def pairText (pair : List Char × List Char) : List Char :=
  pair.1 ++ ' ' :: '=' :: ' ' :: pair.2

/-- Keys and values, as they are written in an attribute. -/
def argumentsText (pairs : List (List Char × List Char)) : List Char :=
  [',', ' '].intercalate (pairs.map pairText)

/-- An attribute with keys and values. -/
def spelled (path : List Char) (pairs : List (List Char × List Char)) : List Char :=
  '#' :: '[' :: (path ++ '(' :: (argumentsText pairs ++ [')', ']']))

/-- Keys and values are names. -/
def Named (pairs : List (List Char × List Char)) : Prop :=
  ∀ pair ∈ pairs, isAsciiName pair.1 = true ∧ isAsciiName pair.2 = true

section Pairs

variable {pair : List Char × List Char} {pairs : List (List Char × List Char)}

theorem argumentsText_singleton : argumentsText [pair] = pairText pair := by
  simp [argumentsText]

theorem argumentsText_cons_cons (next : List Char × List Char) :
    argumentsText (pair :: next :: pairs) =
      pairText pair ++ ',' :: ' ' :: argumentsText (next :: pairs) := by
  simp [argumentsText, List.intercalate_cons_cons]

/-! ## Names as arguments -/

theorem all_isAsciiWordChar {name : List Char} (named : isAsciiName name = true) :
    ∀ c ∈ name, isAsciiWordChar c = true :=
  List.all_eq_true.mp (Bool.and_eq_true_iff.mp named).1

theorem word_of_isAsciiName {name : List Char} (named : isAsciiName name = true) : Word name := by
  have ascii := all_isAsciiWordChar named
  have visible : ∀ c ∈ name, isBlank c = false := fun c listed => isBlank_of_ascii (ascii c listed)
  refine ⟨?_, ?_, ?_⟩
  · rintro rfl
    cases named
  · have absent (part : List Char) (space : ' ' ∈ part) : ¬ part <:+: name := fun inside =>
      absurd (visible ' ' (inside.subset space)) (by decide)
    rw [normalizeBlanks, trimStart_of_flush fun c first => visible c (List.mem_of_head? first)]
    refine (collapseBlanks_eq_self (fun c last => visible c (List.mem_of_getLast? last))
      (fun c listed blank => ?_) (absent _ (by simp))).1
    rw [visible c listed] at blank
    cases blank
  · exact seedText_of_plain fun c listed => isPlain_of_isWordChar (isWordChar_of_ascii (ascii c listed))

theorem printable_of_named (key : isAsciiName pair.1 = true) (value : isAsciiName pair.2 = true) :
    Argument.Printable (.pair (.ofList pair.1) (.ofList pair.2)) := by
  have unsigned {name : List Char} (named : isAsciiName name = true) : '=' ∉ name := fun listed =>
    ne_of_isAsciiWordChar (all_isAsciiWordChar named _ listed) (by decide) rfl
  refine .pair ?_ ?_ ?_ ?_ <;> rw [String.toList_ofList]
  · exact word_of_isAsciiName key
  · exact unsigned key
  · exact word_of_isAsciiName value
  · exact fun first => unsigned value (List.mem_of_head? first)

/-! ## Attributes -/

theorem ofText_pairText (key : isAsciiName pair.1 = true) (value : isAsciiName pair.2 = true) :
    Argument.ofText (.ofList (normalizeBlanks (pairText pair))) =
        .pair (.ofList pair.1) (.ofList pair.2) ∧
      SeedText false (normalizeBlanks (pairText pair)) ∧ normalizeBlanks (pairText pair) ≠ [] := by
  have printed : (Argument.pair (.ofList pair.1) (.ofList pair.2)).printed
      ⟨noBlanks, space, space, noBlanks⟩ = pairText pair := by
    simp [Argument.printed, space, noBlanks, pairText]
  rw [← printed]
  exact (printable_of_named key value).ofText_printed _

/-- A space stands in front of every argument but the first. -/
theorem exists_argumentsText (pairs : List (List Char × List Char)) : ∃ elements,
    argumentsText pairs = [','].intercalate elements ∧
      elements.map normalizeBlanks = pairs.map fun pair => normalizeBlanks (pairText pair) := by
  cases pairs with
  | nil => exact ⟨[], rfl, rfl⟩
  | cons pair pairs =>
      refine ⟨pairText pair :: (pairs.map pairText).map (' ' :: ·), ?_, ?_⟩
      · rw [argumentsText, List.map_cons, intercalate_space]
      · rw [List.map_cons, List.map_cons, List.map_map, List.map_map]
        refine congrArg _ (List.map_congr_left fun pair _ => ?_)
        have spaced := normalizeBlanks_append space.property noBlanks.property (pairText pair)
        rwa [noBlanks, List.append_nil] at spaced

/-- An attribute has the keys and values that are written behind its name. -/
theorem parse?_spelled {path : List Char} (path_named : isAsciiName path = true)
    (named : Named pairs) : ∃ arguments, parse? (.ofList (spelled path pairs)) =
      some (pairs.foldl (fun attr pair => attr.add (.pair (.ofList pair.1) (.ofList pair.2)))
        { path := .ofList path, arguments := arguments }) := by
  have frame : spelled path pairs =
      (Frame.mk noBlanks noBlanks noBlanks noBlanks noBlanks noBlanks).attribute path
        (argumentsText pairs) := by
    simp [spelled, Frame.attribute, noBlanks]
  have pathChars : path.all isPathChar = true := List.all_eq_true.mpr fun c listed => by
    rw [isPathChar, isWordChar_of_ascii (all_isAsciiWordChar path_named c listed)]
    rfl
  obtain ⟨elements, written, normal⟩ := exists_argumentsText pairs
  have texts : ∀ element ∈ elements, SeedText false (normalizeBlanks element) := by
    rw [← List.forall_mem_map (f := normalizeBlanks), normal, List.forall_mem_map]
    intro pair listed
    exact (ofText_pairText (named pair listed).1 (named pair listed).2).2.1
  have kept : ∀ text ∈ elements.map normalizeBlanks, (!text.isEmpty) = true := by
    rw [normal, List.forall_mem_map]
    intro pair listed
    simpa using (ofText_pairText (named pair listed).1 (named pair listed).2).2.2
  have read : (elements.map normalizeBlanks).map (fun text => Argument.ofText (.ofList text)) =
      pairs.map fun pair => .pair (.ofList pair.1) (.ofList pair.2) := by
    rw [normal, List.map_map]
    exact List.map_congr_left fun pair listed =>
      (ofText_pairText (named pair listed).1 (named pair listed).2).1
  have parsed := parse?_attribute (Frame.mk noBlanks noBlanks noBlanks noBlanks noBlanks noBlanks)
    (word_of_isAsciiName path_named).nonempty pathChars texts
  rw [List.filter_eq_self.mpr kept, read, List.foldl_map, ← written, ← frame] at parsed
  exact ⟨_, parsed⟩

end Pairs

end Attribute

end ProgramIdl
