import ProgramIdl.Program.Assemble
import ProgramIdl.Proofs.Declaration.Names

/-!
# The items of a file, one by one

A file is a tree of items, since modules hold items again.  Its leaves are the items that are no
modules, in source order.  A file that has been read declares exactly what its leaves declare
(`ScannedFile.ReadFrom.mem_declarations_iff`), and its function bodies are those of its leaves.
-/

set_option autoImplicit false

namespace ProgramIdl

open ProgramIdl.Syntax

namespace Syntax

mutual

/-- An item, or the items inside a module, each with the number of modules around it. -/
def itemLeaves (depth : Nat) (annotations : Annotations) (line : Nat) :
    Item → List (Nat × Annotated Item)
  | .module items => leaves (depth + 1) items
  | item => [(depth, ⟨annotations, line, item⟩)]

def annotatedLeaves (depth : Nat) : Annotated Item → List (Nat × Annotated Item)
  | ⟨annotations, line, item⟩ => itemLeaves depth annotations line item

/-- The items that are no modules, in order. -/
def leaves (depth : Nat) : List (Annotated Item) → List (Nat × Annotated Item)
  | [] => []
  | item :: rest => annotatedLeaves depth item ++ leaves depth rest

end

/-- The function bodies of an item that is no module. -/
def Item.bodies : Item → List (List Fragment)
  | .function _ body => [body]
  | .implementation _ _ bodies => bodies
  | _ => []

/-- The function bodies of some items, those in modules included. -/
def bodies (items : List (Annotated Item)) : List (List Fragment) :=
  (leaves 0 items).flatMap fun leaf => leaf.2.value.bodies

end Syntax

/-! ## Findings -/

mutual

theorem itemFindings_eq (path : String) (depth : Nat) (annotations : Annotations) (line : Nat) :
    (item : Item) → itemFindings path depth annotations line item =
      (itemLeaves depth annotations line item).flatMap fun leaf =>
        annotatedFindings path leaf.1 leaf.2
  | .module items => by
      rw [itemFindings, itemLeaves, findings_eq]
  | .record .. | .enumeration .. | .constant .. | .macroCall .. | .macroRules .. | .function ..
  | .implementation .. | .other => by
      simp [itemLeaves, annotatedFindings]

theorem annotatedFindings_eq (path : String) (depth : Nat) :
    (item : Annotated Item) → annotatedFindings path depth item =
      (annotatedLeaves depth item).flatMap fun leaf => annotatedFindings path leaf.1 leaf.2
  | ⟨annotations, line, item⟩ => by
      rw [annotatedFindings, annotatedLeaves, itemFindings_eq]

/-- What is found in some items is what is found in their leaves. -/
theorem findings_eq (path : String) (depth : Nat) :
    (items : List (Annotated Item)) → findings path depth items =
      (leaves depth items).flatMap fun leaf => annotatedFindings path leaf.1 leaf.2
  | [] => rfl
  | item :: rest => by
      rw [findings, leaves, List.flatMap_append, annotatedFindings_eq, findings_eq]

end

/-! ## Kinds of items -/

/-- Whether an item of this kind can declare something of that kind. -/
def Syntax.Item.declares : Item → Declaration → Bool
  | .record .., .tagged .. | .record .., .accounts _ | .record .., .record _ => true
  | .enumeration .., .discriminator _ | .enumeration .., .error _ => true
  | .constant .., .constant _ => true
  | .macroCall .., .programId _ => true
  | .macroRules .., .seedMacro _ => true
  | .function .., .seedCall _ | .function .., .pdaCall _ | .function .., .dispatch _ => true
  | .implementation .., .processor _ | .implementation .., .seedCall _ => true
  | .implementation .., .pdaCall _ => true
  | _, _ => false

/-- What a finding declares, if anything, is something that the item can declare. -/
def Finding.ComesFrom (item : Item) : Finding → Prop
  | .declaration declared => item.declares declared = true
  | _ => True

theorem bodyFindings_comeFrom {item : Item} (path : String) (body : List Fragment)
    (seedCalls : ∀ call, item.declares (.seedCall call) = true)
    (pdaCalls : ∀ call, item.declares (.pdaCall call) = true) :
    ∀ finding ∈ bodyFindings path body, finding.ComesFrom item := by
  intro finding found
  rcases List.mem_append.mp found with called | derived
  · obtain ⟨call, _, rfl⟩ := List.mem_map.mp called
    exact seedCalls call
  · obtain ⟨call, _, rfl⟩ := List.mem_map.mp derived
    exact pdaCalls call

theorem itemFindings_comeFrom (path : String) (depth : Nat) (annotations : Annotations)
    (line : Nat) (item : Item) (single : ∀ items, item ≠ .module items) :
    ∀ finding ∈ itemFindings path depth annotations line item, finding.ComesFrom item := by
  intro finding found
  cases item with
  | record name body =>
      rw [itemFindings] at found
      unfold recordFindings at found
      split at found
      · obtain rfl := List.mem_singleton.mp found
        trivial
      · obtain rfl := List.mem_singleton.mp found
        rfl
      · split at found
        · obtain rfl := List.mem_singleton.mp found
          rfl
        · split at found
          · obtain rfl := List.mem_singleton.mp found
            rfl
          · cases found
  | enumeration name variants =>
      rw [itemFindings, enumFindings] at found
      split at found
      · obtain rfl := List.mem_singleton.mp found
        rfl
      · obtain rfl := List.mem_singleton.mp found
        rfl
      · cases found
  | constant name type value =>
      obtain rfl := List.mem_singleton.mp found
      rfl
  | macroCall macroPath arguments =>
      rw [itemFindings, macroCallFindings] at found
      split at found
      · obtain rfl := List.mem_singleton.mp found
        rfl
      · cases found
  | macroRules name rules =>
      rw [itemFindings, macroRulesFindings] at found
      split at found
      · split at found
        · obtain rfl := List.mem_singleton.mp found
          rfl
        · obtain rfl := List.mem_singleton.mp found
          trivial
      · cases found
  | module items => exact absurd rfl (single items)
  | function name body =>
      rw [itemFindings] at found
      rcases List.mem_append.mp found with inside | chosen
      · exact bodyFindings_comeFrom path body (fun _ => rfl) (fun _ => rfl) finding inside
      · split at chosen
        · obtain ⟨dispatch, _, rfl⟩ := List.mem_map.mp chosen
          rfl
        · cases chosen
  | implementation ofTrait target bodies =>
      rw [itemFindings] at found
      rcases List.mem_append.mp found with checks | inside
      · split at checks
        · obtain rfl := List.mem_singleton.mp checks
          rfl
        · cases checks
      · obtain ⟨body, _, listed⟩ := List.mem_flatMap.mp inside
        exact bodyFindings_comeFrom path body (fun _ => rfl) (fun _ => rfl) finding listed
  | other => cases found

mutual

theorem itemLeaves_single (depth : Nat) (annotations : Annotations) (line : Nat) :
    (item : Item) → ∀ leaf ∈ itemLeaves depth annotations line item,
      ∀ items, leaf.2.value ≠ .module items
  | .module items => leaves_single (depth + 1) items
  | .record .. | .enumeration .. | .constant .. | .macroCall .. | .macroRules .. | .function ..
  | .implementation .. | .other => by
      intro leaf listed items
      obtain rfl := List.mem_singleton.mp listed
      exact nofun

theorem annotatedLeaves_single (depth : Nat) :
    (item : Annotated Item) → ∀ leaf ∈ annotatedLeaves depth item,
      ∀ items, leaf.2.value ≠ .module items
  | ⟨annotations, line, item⟩ => itemLeaves_single depth annotations line item

/-- A leaf is no module. -/
theorem leaves_single (depth : Nat) :
    (items : List (Annotated Item)) → ∀ leaf ∈ leaves depth items,
      ∀ inner, leaf.2.value ≠ .module inner
  | [] => nofun
  | item :: rest => by
      intro leaf listed
      rcases List.mem_append.mp listed with here | later
      · exact annotatedLeaves_single depth item leaf here
      · exact leaves_single depth rest leaf later

end

/-! ## Files -/

/-- The declaration that a finding is. -/
def Finding.declaration? : Finding → Option Declaration
  | .declaration declared => some declared
  | _ => none

theorem Finding.declaration?_eq_some_iff {finding : Finding} {declaration : Declaration} :
    finding.declaration? = some declaration ↔ finding = .declaration declaration := by
  cases finding <;> simp [Finding.declaration?]

/-- What is gathered without a failure is every declaration that has been found. -/
theorem eq_of_gather {found : List Finding} {declarations : List Declaration}
    (gathered : (gather found).outcome = .ok declarations) :
    declarations = found.filterMap Finding.declaration? := by
  induction found generalizing declarations with
  | nil =>
      obtain rfl := Except.ok.inj gathered
      rfl
  | cons finding rest inductionHypothesis =>
      cases finding with
      | declaration first =>
          rw [gather, Reporting.outcome_bind, bind_eq_ok_iff] at gathered
          obtain ⟨later, gatheredLater, same⟩ := gathered
          obtain rfl := Except.ok.inj same
          have kept : Finding.declaration? (.declaration first) = some first := rfl
          rw [List.filterMap_cons_some kept, inductionHypothesis gatheredLater]
      | notice notice =>
          rw [gather, Reporting.outcome_bind, bind_eq_ok_iff] at gathered
          obtain ⟨_, _, gatheredLater⟩ := gathered
          rw [List.filterMap_cons_none rfl]
          exact inductionHypothesis gatheredLater
      | failure failure => cases gathered

/-- A file that has been read from a text with some items. -/
def ScannedFile.ReadFrom (file : ScannedFile) (items : List (Annotated Item)) : Prop :=
  ∃ path text, itemsOf? text = some items ∧ (scan path text).outcome = .ok file

theorem ScannedFile.Scanned.exists_readFrom {file : ScannedFile} (scanned : file.Scanned) :
    ∃ items, file.ReadFrom items := by
  obtain ⟨path, text, outcome⟩ := scanned
  cases parsed : itemsOf? text with
  | none =>
      rw [scan, parsed] at outcome
      cases outcome
  | some items => exact ⟨items, path, text, parsed, outcome⟩

theorem ScannedFile.ReadFrom.scanned {file : ScannedFile} {items : List (Annotated Item)}
    (read : file.ReadFrom items) : file.Scanned := by
  obtain ⟨path, text, _, outcome⟩ := read
  exact ⟨path, text, outcome⟩

theorem outcome_scan {path text : String} {items : List (Annotated Item)}
    {declarations : List Declaration} (parsed : itemsOf? text = some items)
    (gathered : (gather (findings path 0 items)).outcome = .ok declarations) :
    (scan path text).outcome = .ok ⟨path, declarations⟩ := by
  rw [scan, parsed]
  simp only [Reporting.outcome_bind, gathered]
  rfl

theorem readFrom_of_gather {path text : String} {items : List (Annotated Item)}
    {declarations : List Declaration} (parsed : itemsOf? text = some items)
    (gathered : (gather (findings path 0 items)).outcome = .ok declarations) :
    ScannedFile.ReadFrom ⟨path, declarations⟩ items :=
  ⟨path, text, parsed, outcome_scan parsed gathered⟩

-- The characters of a long text are computed line by line: taking them off the whole text at once
-- is slow to check.
theorem itemsOf?_lines (lines : List String) :
    itemsOf? ("\n".intercalate lines) =
      ((lexemes (readable (['\n'].intercalate (lines.map String.toList)))).bind fun read =>
        Syntax.gather [] [] (tokensFrom [] 0 1 read)).bind itemsOfTrees := by
  rw [itemsOf?, trees?, String.toList_intercalate]
  rfl

theorem ScannedFile.ReadFrom.declarations_eq {file : ScannedFile} {items : List (Annotated Item)}
    (read : file.ReadFrom items) :
    file.declarations = (findings file.path 0 items).filterMap Finding.declaration? := by
  obtain ⟨path, text, parsed, outcome⟩ := read
  rw [scan, parsed] at outcome
  simp only [Reporting.outcome_bind, bind_eq_ok_iff] at outcome
  obtain ⟨declarations, gathered, _, _, same⟩ := outcome
  obtain rfl := Except.ok.inj same
  exact eq_of_gather gathered

/-- A file declares what its leaves declare, and nothing else. -/
theorem ScannedFile.ReadFrom.mem_declarations_iff {file : ScannedFile}
    {items : List (Annotated Item)} (read : file.ReadFrom items) {declaration : Declaration} :
    declaration ∈ file.declarations ↔
      ∃ leaf ∈ leaves 0 items,
        Finding.declaration declaration ∈ annotatedFindings file.path leaf.1 leaf.2 := by
  rw [read.declarations_eq, findings_eq]
  simp only [List.mem_filterMap, List.mem_flatMap, Finding.declaration?_eq_some_iff]
  constructor
  · rintro ⟨_, ⟨leaf, listed, found⟩, rfl⟩
    exact ⟨leaf, listed, found⟩
  · rintro ⟨leaf, listed, found⟩
    exact ⟨_, ⟨leaf, listed, found⟩, rfl⟩

/-- Everything declared comes from an item that can declare it. -/
theorem ScannedFile.ReadFrom.exists_item {file : ScannedFile} {items : List (Annotated Item)}
    (read : file.ReadFrom items) {declaration : Declaration}
    (declared : declaration ∈ file.declarations) :
    ∃ depth annotations line item, (depth, ⟨annotations, line, item⟩) ∈ leaves 0 items ∧
      Finding.declaration declaration ∈ itemFindings file.path depth annotations line item ∧
        item.declares declaration = true := by
  obtain ⟨⟨depth, ⟨annotations, line, item⟩⟩, listed, found⟩ :=
    read.mem_declarations_iff.mp declared
  refine ⟨depth, annotations, line, item, listed, found, ?_⟩
  exact itemFindings_comeFrom file.path depth annotations line item (leaves_single 0 items _ listed)
    _ found

/-- What some files declare together is what each of them declares. -/
theorem mem_ofFiles_iff {α : Type} {kind? : Declaration → Option α} {make : α → Declaration}
    (inverse : ∀ declaration value, kind? declaration = some value ↔ declaration = make value)
    {files : List ScannedFile} {value : α} :
    value ∈ ((files.mergeSort fun file other => decide (file.path ≤ other.path)).flatMap
        (·.declarations)).filterMap kind? ↔
      ∃ file ∈ files, make value ∈ file.declarations := by
  simp only [List.mem_filterMap, List.mem_flatMap, List.mem_mergeSort, inverse]
  constructor
  · rintro ⟨_, ⟨file, member, declared⟩, rfl⟩
    exact ⟨file, member, declared⟩
  · rintro ⟨file, member, declared⟩
    exact ⟨_, ⟨file, member, declared⟩, rfl⟩

theorem mem_processors_iff {files : List ScannedFile} {processor : Declared Processor} :
    processor ∈ (Declarations.ofFiles files).processors ↔
      ∃ file ∈ files, .processor processor ∈ file.declarations := by
  refine mem_ofFiles_iff fun declaration value => ?_
  cases declaration <;> simp [Declaration.processor?]

theorem mem_pdaCalls_iff {files : List ScannedFile} {call : Declared PdaCall} :
    call ∈ (Declarations.ofFiles files).pdaCalls ↔
      ∃ file ∈ files, .pdaCall call ∈ file.declarations := by
  refine mem_ofFiles_iff fun declaration value => ?_
  cases declaration <;> simp [Declaration.pdaCall?]

end ProgramIdl
