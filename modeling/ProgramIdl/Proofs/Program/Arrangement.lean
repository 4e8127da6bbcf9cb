import Mathlib.Data.List.Perm.Basic
import Mathlib.Data.String.Basic
import ProgramIdl.Proofs.Program.Sites

/-!
# The arrangement of files

A program does not depend on the order in which its files are scanned, nor on the files in which its
declarations stand, as long as the declarations of each kind keep their order
(`assemble_eq_of_arrangement`).
-/

set_option autoImplicit false

namespace ProgramIdl

/-- The declarations of some files, in the order of the files' paths. -/
def ScannedFile.inOrder (files : List ScannedFile) : List Declaration :=
  (files.mergeSort fun file other => decide (file.path ≤ other.path)).flatMap (·.declarations)

/-- Two runs of declarations with the same ones of each kind, in the same order. -/
def Declaration.SameByKind (first second : List Declaration) : Prop :=
  ∀ kind, (first.filter fun declaration => declaration.kind = kind) =
    second.filter fun declaration => declaration.kind = kind

namespace Declaration

/-- A declaration without the site where it stands. -/
def placeless : Declaration → Declaration
  | .discriminator declared => .discriminator declared.placeless
  | .tagged tag declared => .tagged tag declared.placeless
  | .error declared => .error declared.placeless
  | .programId declared => .programId declared.placeless
  | .constant declared => .constant declared.placeless
  | .seedMacro declared => .seedMacro declared.placeless
  | .seedCall declared => .seedCall declared.placeless
  | .pdaCall declared => .pdaCall declared.placeless
  | .record declared => .record declared.placeless
  | .accounts declared => .accounts declared.placeless
  | .processor declared => .processor declared.placeless
  | .dispatch declared => .dispatch declared.placeless

/-! ## One kind at a time -/

section Kinds

variable {first second : List Declaration} {α : Type} {select : Declaration → Option α}

/-- What is selected among declarations of one kind is selected from those of that kind. -/
theorem filterMap_filter_kind {kind : String}
    (reads : ∀ declaration : Declaration, (select declaration).isSome → declaration.kind = kind)
    (declarations : List Declaration) :
    (declarations.filter fun declaration => declaration.kind = kind).filterMap select =
      declarations.filterMap select := by
  rw [List.filterMap_filter]
  apply List.filterMap_congr
  intro declaration _
  by_cases same : declaration.kind = kind
  · simp [same]
  · have none : select declaration = none :=
      Option.not_isSome_iff_eq_none.mp (mt (reads declaration) same)
    simp [same, none]

theorem SameByKind.filterMap_eq (same : SameByKind first second) (kind : String)
    (reads : ∀ declaration : Declaration, (select declaration).isSome → declaration.kind = kind) :
    first.filterMap select = second.filterMap select := by
  rw [← filterMap_filter_kind reads first, same kind, filterMap_filter_kind reads second]

theorem kind_of_tagged? {tag : Tag} {declaration : Declaration}
    (selected : (declaration.tagged? tag).isSome) : declaration.kind = tag.word := by
  cases declaration with
  | tagged own declared =>
      by_cases same : own = tag
      · exact congrArg Tag.word same
      · simp [tagged?, same] at selected
  | _ => cases selected

/-- Every pass reads the declarations of one kind. -/
theorem SameByKind.ofList_eq (same : SameByKind first second) :
    Declarations.ofList first = Declarations.ofList second := by
  rw [Declarations.ofList, Declarations.ofList, Declarations.mk.injEq]
  refine ⟨same.filterMap_eq "discriminator" ?_, same.filterMap_eq Tag.account.word ?_,
    same.filterMap_eq Tag.instruction.word ?_, same.filterMap_eq Tag.event.word ?_,
    same.filterMap_eq "error" ?_, same.filterMap_eq "program_id" ?_,
    same.filterMap_eq "constant" ?_, same.filterMap_eq "seed_macro" ?_,
    same.filterMap_eq "seed_invocation" ?_, same.filterMap_eq "pda_call" ?_,
    same.filterMap_eq "struct" ?_, same.filterMap_eq "accounts_struct" ?_,
    same.filterMap_eq "processor" ?_, same.filterMap_eq "dispatch" ?_⟩
  all_goals
    intro declaration selected
    first
      | exact kind_of_tagged? selected
      | cases declaration <;> first | rfl | cases selected

/-- Neighbours of different kinds may change places. -/
theorem SameByKind.swap {declaration other : Declaration} (apart : declaration.kind ≠ other.kind)
    (before after : List Declaration) :
    SameByKind (before ++ declaration :: other :: after)
      (before ++ other :: declaration :: after) := by
  intro kind
  simp only [List.filter_append, List.filter_cons, decide_eq_true_eq]
  by_cases here : declaration.kind = kind
  · have there : ¬other.kind = kind := fun there => apart (here.trans there.symm)
    simp only [here, there, if_true, if_false]
  · simp only [here, if_false]

end Kinds

end Declaration

/-- Selecting does not look at sites. -/
theorem filterMap_placeless {α : Type} {select : Declaration → Option (Declared α)}
    (selects : ∀ declaration : Declaration,
      select declaration.placeless = (select declaration).map Declared.placeless)
    (declarations : List Declaration) :
    (declarations.filterMap select).map Declared.placeless =
      (declarations.map Declaration.placeless).filterMap select := by
  rw [List.map_filterMap, List.filterMap_map]
  apply List.filterMap_congr
  intro declaration _
  exact (selects declaration).symm

theorem tagged?_placeless (tag : Tag) (declaration : Declaration) :
    declaration.placeless.tagged? tag = (declaration.tagged? tag).map Declared.placeless := by
  cases declaration with
  | tagged own declared =>
      unfold Declaration.placeless Declaration.tagged?
      by_cases same : own = tag
      · simp [same]
      · simp [same]
  | _ => rfl

theorem ofList_placeless (declarations : List Declaration) :
    (Declarations.ofList declarations).placeless =
      Declarations.ofList (declarations.map Declaration.placeless) := by
  unfold Declarations.ofList Declarations.placeless
  congr 1
  all_goals apply filterMap_placeless
  all_goals first
    | exact tagged?_placeless _
    | intro declaration
      cases declaration <;> rfl

/-! ## The order of files -/

namespace ScannedFile

theorem path_le_trans (file other third : ScannedFile)
    (before : decide (file.path ≤ other.path) = true)
    (after : decide (other.path ≤ third.path) = true) : decide (file.path ≤ third.path) = true := by
  simp only [decide_eq_true_eq] at before after ⊢
  exact String.le_trans before after

theorem path_le_total (file other : ScannedFile) :
    (decide (file.path ≤ other.path) || decide (other.path ≤ file.path)) = true := by
  simp only [Bool.or_eq_true, decide_eq_true_eq]
  exact String.le_total file.path other.path

end ScannedFile

/-- Files with different paths are put in one order, whatever order they come in. -/
theorem mergeSort_eq_of_perm {files others : List ScannedFile}
    (distinct : (files.map (·.path)).Nodup) (perm : files.Perm others) :
    (files.mergeSort fun file other => decide (file.path ≤ other.path)) =
      others.mergeSort fun file other => decide (file.path ≤ other.path) := by
  have sorted := List.mergeSort_perm files fun file other => decide (file.path ≤ other.path)
  have sortedOthers := List.mergeSort_perm others fun file other => decide (file.path ≤ other.path)
  have pairwise :=
    List.pairwise_mergeSort ScannedFile.path_le_trans ScannedFile.path_le_total
  apply List.Perm.eq_of_pairwise _ (pairwise files) (pairwise others)
    (sorted.trans (perm.trans sortedOthers.symm))
  intro file other member memberOther before after
  simp only [decide_eq_true_eq] at before after
  have here : file ∈ files := sorted.mem_iff.mp member
  have there : other ∈ files := perm.mem_iff.mpr (sortedOthers.mem_iff.mp memberOther)
  exact List.inj_on_of_nodup_map distinct here there (String.le_antisymm before after)

/-! ## The arrangement of a program -/

/-- The outcome and the notices of an assembly do not depend on the order in which files with
different paths come, and they depend on the files only in the declarations of each kind, in order.
Where these stand at other sites, the warnings stay and failures may differ in their location. -/
theorem assemble_eq_of_arrangement (known : KnownAddresses) (name : String) :
    (∀ files others : List ScannedFile, (files.map (·.path)).Nodup → files.Perm others →
      assemble known name files = assemble known name others) ∧
    (∀ files others : List ScannedFile,
      Declaration.SameByKind (ScannedFile.inOrder files) (ScannedFile.inOrder others) →
      assemble known name files = assemble known name others) ∧
    ∀ files others : List ScannedFile,
      Declaration.SameByKind ((ScannedFile.inOrder files).map Declaration.placeless)
        ((ScannedFile.inOrder others).map Declaration.placeless) →
      (assemble known name files).warnings = (assemble known name others).warnings ∧
        (assemble known name files).outcome.mapError Failure.placeless =
          (assemble known name others).outcome.mapError Failure.placeless := by
  refine ⟨?_, ?_, ?_⟩
  · intro files others distinct perm
    rw [assemble, assemble, Declarations.ofFiles, Declarations.ofFiles,
      mergeSort_eq_of_perm distinct perm]
  · intro files others same
    exact congrArg (assembleDeclarations known name) same.ofList_eq
  · intro files others same
    have placeless : (Declarations.ofFiles files).placeless =
        (Declarations.ofFiles others).placeless := by
      have ofFiles (files : List ScannedFile) : (Declarations.ofFiles files).placeless =
          Declarations.ofList ((ScannedFile.inOrder files).map Declaration.placeless) :=
        ofList_placeless _
      rw [ofFiles, ofFiles, same.ofList_eq]
    have alike := assembleDeclarations_alike known name placeless
    exact ⟨alike.warnings, alike.outcome⟩

/-! ### A constant and a struct in one file, in two, and in another order -/

def seedConstant (site : Site) : Declaration :=
  .constant { name := "SEED", site := site, content := { type := "&[u8]", value := "b\"vault\"" } }

def pointRecord (site : Site) : Declaration :=
  .record { name := "Point", site := site, content := { fields := [{ name := "x", type := "u8" }] } }

/-- Both in one file. -/
def joinedFile : ScannedFile :=
  ⟨"src/lib.rs", [seedConstant ⟨"src/lib.rs", 1⟩, pointRecord ⟨"src/lib.rs", 2⟩]⟩

/-- The struct is moved to the front. -/
def movedFile : ScannedFile :=
  ⟨"src/lib.rs", [pointRecord ⟨"src/lib.rs", 2⟩, seedConstant ⟨"src/lib.rs", 1⟩]⟩

def seedFile : ScannedFile :=
  ⟨"src/seed.rs", [seedConstant ⟨"src/seed.rs", 1⟩]⟩

def pointFile : ScannedFile :=
  ⟨"src/state.rs", [pointRecord ⟨"src/state.rs", 1⟩]⟩

theorem assemble_eq_of_arrangement_split :
    ((([pointFile, seedFile].map (·.path)).Nodup ∧ [pointFile, seedFile].Perm [seedFile, pointFile]) ∧
      assemble .standard "points" [pointFile, seedFile] =
        assemble .standard "points" [seedFile, pointFile]) ∧
    (Declaration.SameByKind (ScannedFile.inOrder [joinedFile]) (ScannedFile.inOrder [movedFile]) ∧
      assemble .standard "points" [joinedFile] = assemble .standard "points" [movedFile]) ∧
    (Declaration.SameByKind ((ScannedFile.inOrder [joinedFile]).map Declaration.placeless)
        ((ScannedFile.inOrder [pointFile, seedFile]).map Declaration.placeless) ∧
      (assemble .standard "points" [joinedFile]).warnings =
          (assemble .standard "points" [pointFile, seedFile]).warnings ∧
        (assemble .standard "points" [joinedFile]).outcome.mapError Failure.placeless =
          (assemble .standard "points" [pointFile, seedFile]).outcome.mapError
            Failure.placeless) := by
  obtain ⟨permuted, moved, split⟩ := assemble_eq_of_arrangement .standard "points"
  have distinct : ([pointFile, seedFile].map (·.path)).Nodup := by decide
  have perm : [pointFile, seedFile].Perm [seedFile, pointFile] := .swap ..
  have joined : ScannedFile.inOrder [joinedFile] = joinedFile.declarations := by
    simp [ScannedFile.inOrder]
  have swapped : Declaration.SameByKind (ScannedFile.inOrder [joinedFile])
      (ScannedFile.inOrder [movedFile]) := by
    rw [joined, ScannedFile.inOrder, List.mergeSort_singleton]
    exact Declaration.SameByKind.swap (by decide) [] []
  have later : ¬pointFile.path ≤ seedFile.path := by decide +kernel
  have apart : ScannedFile.inOrder [pointFile, seedFile] =
      seedFile.declarations ++ pointFile.declarations := by
    simp [ScannedFile.inOrder, List.mergeSort, List.MergeSort.Internal.splitInTwo, later]
  have same : Declaration.SameByKind ((ScannedFile.inOrder [joinedFile]).map Declaration.placeless)
      ((ScannedFile.inOrder [pointFile, seedFile]).map Declaration.placeless) := by
    rw [joined, apart]
    exact fun _ => rfl
  exact ⟨⟨⟨distinct, perm⟩, permuted _ _ distinct perm⟩, ⟨swapped, moved _ _ swapped⟩,
    ⟨same, split _ _ same⟩⟩

end ProgramIdl
