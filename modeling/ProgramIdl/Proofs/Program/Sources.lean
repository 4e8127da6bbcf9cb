import ProgramIdl.Proofs.Program.Arrangement
import ProgramIdl.Proofs.Syntax.Relaid

/-!
# Programs from source texts

Files are scanned and put together; on which lines declarations stand makes no difference.
-/

set_option autoImplicit false

namespace ProgramIdl

open ProgramIdl.Syntax

/-! ## Runs side by side -/

section Runs

variable {α β γ δ : Type} {related : α → β → Prop} {results : γ → δ → Prop}

/-- Related values, or failures that are the same apart from locations. -/
inductive OutcomesAlike (related : α → β → Prop) : Except Failure α → Except Failure β → Prop where
  | ok {value : α} {value' : β} (values : related value value') :
      OutcomesAlike related (.ok value) (.ok value')
  | error {failure failure' : Failure} (same : failure.placeless = failure'.placeless) :
      OutcomesAlike related (.error failure) (.error failure')

/-- Two runs whose outcomes are alike and that leave the same notices, apart from sites. -/
structure RunsAlike (related : α → β → Prop) (first : Reporting α) (second : Reporting β) :
    Prop where
  notices : first.notices.map Notice.placeless = second.notices.map Notice.placeless
  outcome : OutcomesAlike related first.outcome second.outcome

theorem RunsAlike.pure {value : α} {value' : β} (values : related value value') :
    RunsAlike related (pure value) (pure value') :=
  ⟨rfl, .ok values⟩

theorem RunsAlike.throw {failure failure' : Failure} (same : failure.placeless = failure'.placeless) :
    RunsAlike related (throw failure) (throw failure') :=
  ⟨rfl, .error same⟩

theorem RunsAlike.report (notice : Notice) : RunsAlike Eq (report notice) (report notice) :=
  ⟨rfl, .ok rfl⟩

theorem RunsAlike.bind {first : Reporting α} {second : Reporting β} {next : α → Reporting γ}
    {next' : β → Reporting δ} (runs : RunsAlike related first second)
    (later : ∀ value value', related value value' → RunsAlike results (next value) (next' value')) :
    RunsAlike results (first >>= next) (second >>= next') := by
  obtain ⟨notices, outcome⟩ := runs
  change RunsAlike results (first.andThen next) (second.andThen next')
  rw [Reporting.andThen, Reporting.andThen]
  generalize first.outcome = read at outcome
  generalize second.outcome = read' at outcome
  cases outcome with
  | ok values =>
      have after := later _ _ values
      refine ⟨?_, after.outcome⟩
      simp only [List.map_append, notices, after.notices]
  | error same => exact ⟨notices, .error same⟩

theorem RunsAlike.mapM {values : List α} {values' : List β} {step : α → Reporting γ}
    {step' : β → Reporting δ} (alike : List.Forall₂ related values values')
    (each : ∀ value value', related value value' → RunsAlike results (step value) (step' value')) :
    RunsAlike (List.Forall₂ results) (values.mapM step) (values'.mapM step') := by
  induction alike with
  | nil => exact .pure .nil
  | cons first _ inductionHypothesis =>
      rw [List.mapM_cons, List.mapM_cons]
      exact (each _ _ first).bind fun _ _ result => inductionHypothesis.bind fun _ _ others =>
        .pure (.cons result others)

theorem RunsAlike.imp {weaker : α → β → Prop} {first : Reporting α} {second : Reporting β}
    (runs : RunsAlike related first second)
    (implies : ∀ value value', related value value' → weaker value value') :
    RunsAlike weaker first second := by
  obtain ⟨notices, outcome⟩ := runs
  refine ⟨notices, ?_⟩
  generalize first.outcome = read at outcome
  generalize second.outcome = read' at outcome
  cases outcome with
  | ok values => exact .ok (implies _ _ values)
  | error same => exact .error same

theorem RunsAlike.alike {first second : Reporting α} (runs : RunsAlike Eq first second) :
    first.Alike second := by
  obtain ⟨notices, outcome⟩ := runs
  refine ⟨notices, ?_⟩
  generalize first.outcome = read at outcome
  generalize second.outcome = read' at outcome
  cases outcome with
  | ok same => exact congrArg _ (congrArg Except.ok same)
  | error same => exact .error same

theorem RunsAlike.of_alike {first second : Reporting α} (alike : first.Alike second) :
    RunsAlike Eq first second := by
  refine ⟨alike.notices, ?_⟩
  have outcome := alike.outcome
  generalize first.outcome = read at outcome
  generalize second.outcome = read' at outcome
  cases read with
  | ok value =>
      rw [outcome.eq_ok rfl]
      exact .ok rfl
  | error failure =>
      cases read' with
      | ok value => cases outcome
      | error other => exact .error (Except.error.inj outcome)

end Runs

/-! ## Scanning -/

/-- What is found, without something of what is declared and without the location of a fault. -/
def Finding.forgetting (forget : Declaration → Declaration) : Finding → Finding
  | .declaration declared => .declaration (forget declared)
  | .notice reported => .notice reported
  | .failure thrown => .failure thrown.placeless

theorem Finding.forgetting_lineless : Finding.forgetting Declaration.lineless = Finding.lineless := by
  funext finding
  cases finding <;> rfl

/-- Findings that are the same but for something lead to declarations that are. -/
theorem gather_forgetting {forget : Declaration → Declaration} {found found' : List Finding}
    (same : found.map (Finding.forgetting forget) = found'.map (Finding.forgetting forget)) :
    RunsAlike (fun declared declared' => declared.map forget = declared'.map forget) (gather found)
      (gather found') := by
  induction found generalizing found' with
  | nil =>
      obtain rfl := List.map_eq_nil_iff.mp same.symm
      exact .pure rfl
  | cons finding rest inductionHypothesis =>
      cases found' with
      | nil => cases same
      | cons finding' rest' =>
          obtain ⟨here, later⟩ := List.cons.inj same
          have others := inductionHypothesis later
          cases finding with
          | declaration declared =>
              cases finding' with
              | declaration declared' =>
                  refine others.bind fun _ _ more => .pure ?_
                  exact congrArg₂ List.cons (Finding.declaration.inj here) more
              | notice | failure => cases here
          | notice reported =>
              cases finding' with
              | notice reported' =>
                  obtain rfl := Finding.notice.inj here
                  exact (RunsAlike.report _).bind fun _ _ _ => others
              | declaration | failure => cases here
          | failure thrown =>
              cases finding' with
              | failure thrown' => exact .throw (Finding.failure.inj here)
              | declaration | notice => cases here

/-- A file whose declarations stand on no lines in particular. -/
def ScannedFile.lineless (file : ScannedFile) : ScannedFile :=
  { file with declarations := file.declarations.map Declaration.lineless }

/-- Files with the same declarations in other places. -/
def ScannedFile.SameButLines (file file' : ScannedFile) : Prop :=
  file.lineless = file'.lineless

/-- Files in which the same is found but for something declare the same but for that. -/
theorem scan_forgetting {forget : Declaration → Declaration} {path text text' : String}
    {items items' : List (Annotated Item)} (read : itemsOf? text = some items)
    (read' : itemsOf? text' = some items')
    (same : (findings path 0 items).map (Finding.forgetting forget) =
      (findings path 0 items').map (Finding.forgetting forget)) :
    RunsAlike (fun file file' => file.path = file'.path ∧
      file.declarations.map forget = file'.declarations.map forget) (scan path text)
      (scan path text') := by
  rw [scan, scan, read, read']
  refine (gather_forgetting same).bind fun declared declared' alike => ?_
  have lengths : declared.length = declared'.length := by
    simpa using congrArg List.length alike
  rw [lengths]
  exact (RunsAlike.report _).bind fun _ _ _ => .pure ⟨rfl, alike⟩

theorem scan_lineless {path text text' : String} {items items' : List (Annotated Item)}
    (read : itemsOf? text = some items) (read' : itemsOf? text' = some items')
    (same : (findings path 0 items).map Finding.lineless =
      (findings path 0 items').map Finding.lineless) :
    RunsAlike ScannedFile.SameButLines (scan path text) (scan path text') := by
  rw [← Finding.forgetting_lineless] at same
  exact (scan_forgetting read read' same).imp fun _ _ ⟨paths, declared⟩ =>
    congrArg₂ ScannedFile.mk paths declared

theorem scan_alike {path text text' : String} {places : Places}
    (items : Option.Rel (ItemsAlike places.reading) (itemsOf? text) (itemsOf? text')) :
    RunsAlike ScannedFile.SameButLines (scan path text) (scan path text') := by
  cases read : itemsOf? text with
  | none =>
      rw [read] at items
      cases read' : itemsOf? text' with
      | none =>
          rw [scan, scan, read, read']
          exact .throw rfl
      | some _ =>
          rw [read'] at items
          cases items
  | some _ =>
      rw [read] at items
      cases read' : itemsOf? text' with
      | none =>
          rw [read'] at items
          cases items
      | some _ =>
          rw [read'] at items
          cases items with
          | some alike => exact scan_lineless read read' (findings_lineless path 0 alike)

/-! ## Putting files together -/

theorem inOrder_lineless (files : List ScannedFile) :
    ScannedFile.inOrder (files.map ScannedFile.lineless) =
      (ScannedFile.inOrder files).map Declaration.lineless := by
  rw [ScannedFile.inOrder, ScannedFile.inOrder, List.map_flatMap, ← List.map_mergeSort, List.flatMap_map]
  · rfl
  · intro file _ other _
    rfl

/-- On which lines declarations stand makes no difference to the program. -/
theorem assemble_lineless (known : KnownAddresses) (name : String) {files files' : List ScannedFile}
    (same : List.Forall₂ ScannedFile.SameButLines files files') :
    (assemble known name files).Alike (assemble known name files') := by
  have lineless : files.map ScannedFile.lineless = files'.map ScannedFile.lineless := by
    induction same with
    | nil => rfl
    | cons first _ inductionHypothesis => exact congrArg₂ List.cons first inductionHypothesis
  have placeless (files : List ScannedFile) : (Declarations.ofFiles files).placeless =
      Declarations.ofList ((ScannedFile.inOrder (files.map ScannedFile.lineless)).map
        Declaration.placeless) := by
    have forgets : Declaration.placeless ∘ Declaration.lineless = Declaration.placeless :=
      funext placeless_lineless
    rw [inOrder_lineless, List.map_map, forgets]
    exact ofList_placeless _
  apply assembleDeclarations_alike known name
  rw [placeless, placeless, lineless]

/-- The program with a name that some source texts with paths make up. -/
def assembleSources (known : KnownAddresses) (name : String) (sources : List (String × String)) :
    Reporting Program := do
  let files ← sources.mapM fun source => scan source.1 source.2
  assemble known name files

/-- Sources whose scans are the same apart from lines make up the same program. -/
theorem assembleSources_alike (known : KnownAddresses) (name : String)
    {sources sources' : List (String × String)}
    (scans : List.Forall₂ (fun source source' => RunsAlike ScannedFile.SameButLines
      (scan source.1 source.2) (scan source'.1 source'.2)) sources sources') :
    (assembleSources known name sources).Alike (assembleSources known name sources') := by
  have scanned := RunsAlike.mapM scans fun _ _ alike => alike
  have runs := scanned.bind fun _ _ files => RunsAlike.of_alike (assemble_lineless known name files)
  exact runs.alike

end ProgramIdl
