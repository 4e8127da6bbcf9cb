import ProgramIdl.Proofs.Program.Sources

/-!
# Files in other places

What a file declares is the same wherever the file stands, apart from the sites of what is declared.
-/

set_option autoImplicit false

namespace ProgramIdl

open ProgramIdl.Text
open ProgramIdl.Syntax

/-- What is found, without the site where it stands. -/
abbrev Finding.placeless : Finding → Finding :=
  Finding.forgetting Declaration.placeless

section Elsewhere

variable (path path' : String)

theorem seedCalls_elsewhere (body : List Fragment) :
    (seedCalls path body).map Declared.placeless = (seedCalls path' body).map Declared.placeless := by
  rw [seedCalls, seedCalls, List.map_filterMap, List.map_filterMap]
  apply List.filterMap_congr
  intro fragment _
  cases fragment with
  | macroCall =>
      dsimp only
      split <;> rfl
  | _ => rfl

theorem pdaCalls_elsewhere (body : List Fragment) :
    (pdaCalls path body).map Declared.placeless = (pdaCalls path' body).map Declared.placeless := by
  rw [pdaCalls, pdaCalls, List.map_filterMap, List.map_filterMap]
  apply List.filterMap_congr
  intro fragment _
  cases fragment with
  | call callee arguments =>
      cases arguments with
      | nil => rfl
      | cons argument =>
          dsimp only
          split
          · rw [Option.map_map, Option.map_map]
            rfl
          · rfl
  | _ => rfl

theorem dispatches_elsewhere (body : List Fragment) :
    (dispatches path body).map Declared.placeless =
      (dispatches path' body).map Declared.placeless := by
  rw [dispatches, dispatches, List.map_filterMap, List.map_filterMap]
  apply List.filterMap_congr
  intro fragment _
  cases fragment with
  | arm pattern value =>
      dsimp only
      generalize variantPattern? pattern = chosen
      generalize convertedType? (compact value).toList = converted
      cases chosen with
      | none => rfl
      | some => cases converted <;> rfl
  | _ => rfl

theorem map_placeless {α : Type} {wrap : Declared α → Declaration}
    (wraps : ∀ declared, (wrap declared).placeless = wrap declared.placeless)
    (declared : List (Declared α)) :
    (declared.map (Finding.declaration ∘ wrap)).map Finding.placeless =
      (declared.map Declared.placeless).map (Finding.declaration ∘ wrap) := by
  simp only [List.map_map]
  apply List.map_congr_left
  intro value _
  exact congrArg Finding.declaration (wraps value)

theorem bodyFindings_elsewhere (body : List Fragment) :
    (bodyFindings path body).map Finding.placeless =
      (bodyFindings path' body).map Finding.placeless := by
  simp only [bodyFindings, List.map_append]
  rw [map_placeless fun _ => rfl, map_placeless fun _ => rfl, map_placeless fun _ => rfl,
    map_placeless fun _ => rfl, seedCalls_elsewhere path path', pdaCalls_elsewhere path path']

theorem functionFindings_elsewhere (name : String) (body : List Fragment) :
    (functionFindings path name body).map Finding.placeless =
      (functionFindings path' name body).map Finding.placeless := by
  rw [functionFindings, functionFindings, List.map_append, List.map_append,
    bodyFindings_elsewhere path path']
  by_cases chooses : name = "process_instruction"
  · rw [if_pos chooses, if_pos chooses, map_placeless fun _ => rfl, map_placeless fun _ => rfl,
      dispatches_elsewhere path path']
  · rw [if_neg chooses, if_neg chooses]

section Sites

variable (site site' : Site) (notes : Annotations) (name : String)

theorem recordFindings_elsewhere (body : RecordBody) :
    (recordFindings site notes name body).map Finding.placeless =
      (recordFindings site' notes name body).map Finding.placeless := by
  unfold recordFindings
  cases tag? notes with
  | none =>
      dsimp only
      split
      · rfl
      · cases body <;> rfl
  | some => cases body <;> rfl

theorem enumFindings_elsewhere (variants : List (Annotated VariantItem)) :
    (enumFindings site notes name variants).map Finding.placeless =
      (enumFindings site' notes name variants).map Finding.placeless := by
  unfold enumFindings
  cases notes.find? "discriminator" with
  | some => rfl
  | none => cases notes.find? "error" <;> rfl

theorem macroCallFindings_elsewhere (depth : Nat) (arguments : String) :
    (macroCallFindings site depth name arguments).map Finding.placeless =
      (macroCallFindings site' depth name arguments).map Finding.placeless := by
  rw [macroCallFindings, macroCallFindings]
  split <;> rfl

theorem macroRulesFindings_elsewhere (rules : List MacroRule) :
    (macroRulesFindings site notes name rules).map Finding.placeless =
      (macroRulesFindings site' notes name rules).map Finding.placeless := by
  rw [macroRulesFindings, macroRulesFindings]
  split
  · cases simplestRule? (rules.filterMap seedRule?) <;> rfl
  · rfl

theorem implementationFindings_elsewhere (ofTrait target : String) (bodies : List (List Fragment)) :
    (implementationFindings site ofTrait target bodies).map Finding.placeless =
      (implementationFindings site' ofTrait target bodies).map Finding.placeless := by
  have sameFound : (bodies.flatMap (bodyFindings site.path)).map Finding.placeless =
      (bodies.flatMap (bodyFindings site'.path)).map Finding.placeless := by
    rw [List.map_flatMap, List.map_flatMap]
    simp only [bodyFindings_elsewhere site.path site'.path]
  rw [implementationFindings, implementationFindings, List.map_append, List.map_append, sameFound]
  split <;> rfl

end Sites

mutual

theorem itemFindings_elsewhere (depth : Nat) (notes : Annotations) (line : Nat) : (item : Item) →
    (itemFindings path depth notes line item).map Finding.placeless =
      (itemFindings path' depth notes line item).map Finding.placeless
  | .record .. => recordFindings_elsewhere ..
  | .enumeration .. => enumFindings_elsewhere ..
  | .constant .. => rfl
  | .macroCall .. => macroCallFindings_elsewhere ..
  | .macroRules .. => macroRulesFindings_elsewhere ..
  | .module items => findings_elsewhere (depth + 1) items
  | .function .. => functionFindings_elsewhere ..
  | .implementation .. => implementationFindings_elsewhere ..
  | .other => rfl

theorem annotatedFindings_elsewhere (depth : Nat) : (item : Annotated Item) →
    (annotatedFindings path depth item).map Finding.placeless =
      (annotatedFindings path' depth item).map Finding.placeless
  | ⟨notes, line, item⟩ => itemFindings_elsewhere depth notes line item

/-- The same items declare the same in files at different paths, apart from sites. -/
theorem findings_elsewhere (depth : Nat) : (items : List (Annotated Item)) →
    (findings path depth items).map Finding.placeless =
      (findings path' depth items).map Finding.placeless
  | [] => rfl
  | item :: rest => by
      rw [findings, findings, List.map_append, List.map_append, annotatedFindings_elsewhere,
        findings_elsewhere]

end

end Elsewhere

end ProgramIdl
