import ProgramIdl.Declaration.Body
import ProgramIdl.Proofs.Text.Trim

/-!
# Substituting local names

A text keeps all of itself but the local name at its front when that name is replaced.  Nothing
blank gets in front of it that way, since no local is bound to nothing.
-/

set_option autoImplicit false

namespace ProgramIdl

open ProgramIdl.Text
open ProgramIdl.Syntax

/-- The local name at the front of a text. -/
def frontName? (text : String) : Option String :=
  (leadingName? text.toList).map fun leading => .ofList leading.name

/-- A text with the local name at its front replaced. -/
def replaceFront (text value : String) : String :=
  match leadingName? text.toList with
  | some leading => .ofList leading.reference ++ value ++ .ofList leading.rest
  | none => text

/-- What a local name at the front of a text looks like. -/
theorem exists_of_leadingName? {text : List Char} {leading : LeadingName}
    (found : leadingName? text = some leading) :
    ∃ c rest, splitReference text = (leading.reference, c :: rest) ∧
      (c.isAlpha || c = '_') = true ∧ leading.name = (c :: rest).takeWhile isWordChar ∧
        [':', ':'].isPrefixOf ((c :: rest).dropWhile isWordChar) = false := by
  rw [leadingName?] at found
  generalize splitReference text = parts at found
  obtain ⟨reference, target⟩ := parts
  cases target with
  | nil => cases found
  | cons c rest =>
      dsimp only at found
      by_cases start : (c.isAlpha || c = '_') = true
      · rw [if_pos start] at found
        split at found
        · cases found
        · rename_i free
          obtain rfl := Option.some.inj found
          simp only [Bool.or_eq_true, not_or, Bool.not_eq_true] at free
          exact ⟨c, rest, rfl, start, rfl, free.2⟩
      · rw [if_neg start] at found
        cases found

theorem substitute?_eq (bindings : List Binding) (place : Nat) (text : String) :
    substitute? bindings place text =
      ((frontName? text).bind fun name => boundAt? bindings name place).map (replaceFront text) := by
  rw [substitute?, frontName?, Option.bind_map]
  cases front : leadingName? text.toList with
  | none => rfl
  | some leading =>
      have replaced : replaceFront text = fun value =>
          .ofList leading.reference ++ value ++ .ofList leading.rest := by
        funext value
        rw [replaceFront, front]
      rw [replaced]
      simp only [Option.bind_eq_bind, Option.bind_some, Function.comp_apply]
      cases boundAt? bindings (.ofList leading.name) place <;> rfl

/-- A text whose front is not bound stays as it is. -/
theorem resolveSteps_of_unbound {bindings : List Binding} {place : Nat} {text : String}
    (unbound : ∀ name, frontName? text = some name → boundAt? bindings name place = none)
    (steps : Nat) : resolveSteps bindings place steps text = text := by
  have stuck : substitute? bindings place text = none := by
    rw [substitute?_eq, Option.map_eq_none_iff, Option.bind_eq_none_iff]
    exact unbound
  cases steps with
  | zero => rfl
  | succ steps => rw [resolveSteps, stuck]

theorem splitReference_eq_of_head? {text : List Char} (unsigned : text.head? ≠ some '&') :
    splitReference text = ([], text) := by
  rw [splitReference]
  rintro rest rfl
  exact unsigned rfl

theorem splitReference_of_head? {text : List Char} (unsigned : text.head? ≠ some '&') :
    (splitReference text).2 = text := by
  rw [splitReference_eq_of_head? unsigned]

/-- A text that starts with neither a name nor a reference has no local name at its front. -/
theorem resolve_of_head? {locals : List Binding} {place : Nat} {text : String} {c : Char}
    (first : text.toList.head? = some c) (unsigned : c ≠ '&')
    (noLetter : (c.isAlpha || c = '_') = false) : resolve locals place text = text := by
  refine resolveSteps_of_unbound (fun name front => ?_) maxBindingSteps
  rw [frontName?, Option.map_eq_some_iff] at front
  obtain ⟨leading, found, rfl⟩ := front
  obtain ⟨d, rest, split, start, _⟩ := exists_of_leadingName? found
  have target := @splitReference_of_head? text.toList (by rw [first]; simpa using unsigned)
  rw [split] at target
  rw [← target] at first
  obtain rfl := Option.some.inj first
  rw [noLetter] at start
  cases start

/-! ## Texts with nothing blank in front -/

theorem mem_bindings {body : List Fragment} {binding : Binding} (listed : binding ∈ bindings body) :
    ∃ name value stop, Fragment.binding name value stop ∈ body ∧ binding.name = name ∧
      binding.value = compact value ∧ binding.stop = stop := by
  obtain ⟨fragment, member, found⟩ := List.mem_filterMap.mp listed
  cases fragment with
  | binding name value stop =>
      dsimp only at found
      split at found
      · split at found
        · cases found
        · obtain rfl := Option.some.inj found
          exact ⟨name, value, stop, member, rfl, rfl, rfl⟩
      · cases found
  | macroCall _ _ _ _ => cases found
  | call _ _ _ _ => cases found
  | arm _ _ _ => cases found

theorem splitReference_fst_head? (text : List Char) :
    (splitReference text).1 = [] ∨ (splitReference text).1.head? = some '&' := by
  rw [splitReference.eq_def]
  split
  · dsimp only
    split
    · split <;> exact .inr rfl
    · exact .inr rfl
  · exact .inl rfl

theorem substitute?_flush {body : List Fragment} {place : Nat} {text next : String}
    (substituted : substitute? (bindings body) place text = some next) : Flush next.toList := by
  rw [substitute?_eq, Option.map_eq_some_iff] at substituted
  obtain ⟨value, bound, rfl⟩ := substituted
  obtain ⟨name, front, bound⟩ := Option.bind_eq_some_iff.mp bound
  rw [boundAt?, Option.map_eq_some_iff] at bound
  obtain ⟨binding, found, rfl⟩ := bound
  rw [List.findRev?_eq_find?_reverse] at found
  have listed := List.mem_reverse.mp (List.mem_of_find?_eq_some found)
  obtain ⟨_, written, _, _, _, valueEq, _⟩ := mem_bindings listed
  have nonempty : binding.value.toList ≠ [] := by simpa using binding.value_ne
  have flush : Flush binding.value.toList := valueEq ▸ compact_flush written
  obtain ⟨leading, led, _⟩ := Option.map_eq_some_iff.mp front
  obtain ⟨_, _, split, _⟩ := exists_of_leadingName? led
  have reference : leading.reference = (splitReference text.toList).1 := by rw [split]
  intro c head
  rw [replaceFront, led] at head
  simp only [String.toList_append, String.toList_ofList, List.append_assoc] at head
  rcases splitReference_fst_head? text.toList with none | sign
  · rw [reference, none, List.nil_append, List.head?_append_of_ne_nil _ nonempty] at head
    exact flush c head
  · rw [reference, List.head?_append, sign] at head
    obtain rfl := Option.some.inj head
    decide

theorem resolve_flush {body : List Fragment} {place : Nat} {text : String}
    (flush : Flush text.toList) : Flush (resolve (bindings body) place text).toList := by
  rw [resolve]
  generalize maxBindingSteps = steps
  induction steps generalizing text with
  | zero => exact flush
  | succ steps inductionHypothesis =>
      rw [resolveSteps]
      cases substituted : substitute? (bindings body) place text with
      | none => exact flush
      | some next => exact inductionHypothesis (substitute?_flush substituted)

end ProgramIdl
