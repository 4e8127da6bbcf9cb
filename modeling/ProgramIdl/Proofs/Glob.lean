import ProgramIdl.Glob
import ProgramIdl.Proofs.FileTree.Entries
import ProgramIdl.Proofs.Pass

/-!
# Files that patterns name

Where a single file stands below a directory, a pattern of names that it agrees with names it and
nothing else (`Glob.files_of_alone`).
-/

set_option autoImplicit false

namespace ProgramIdl

/-! ## What stands below a place -/

namespace FileTree

variable {tree : FileTree} {place other : Place} {names : List String} {entry : Entry}

theorem isPrefixOf?_eq_some :
    place.isPrefixOf? other = some names ↔ other = place ++ names := by
  induction place generalizing other with
  | nil => rw [List.isPrefixOf?, Option.some_inj, List.nil_append]
  | cons name place inductionHypothesis =>
      cases other with
      | nil => simp [List.isPrefixOf?]
      | cons first other =>
          rw [List.isPrefixOf?, List.cons_append, List.cons.injEq]
          by_cases same : name = first
          · simp [same, inductionHypothesis]
          · simp [same, Ne.symm same]

theorem namesBelow?_eq_some :
    namesBelow? place other = some names ↔ names ≠ [] ∧ other = place ++ names := by
  rw [← isPrefixOf?_eq_some, namesBelow?]
  cases place.isPrefixOf? other with
  | none => simp
  | some found =>
      cases found with
      | nil =>
          refine iff_of_false nofun fun ⟨nonempty, same⟩ => nonempty (Option.some.inj same).symm
      | cons name rest =>
          refine ⟨fun same => ⟨?_, same⟩, And.right⟩
          rintro rfl
          cases same

theorem mem_below_iff :
    (names, entry) ∈ tree.below place ↔ names ≠ [] ∧ (place ++ names, entry) ∈ tree.entries := by
  rw [below, List.mem_filterMap]
  constructor
  · rintro ⟨⟨other, held⟩, listed, found⟩
    obtain ⟨found, led, same⟩ := Option.map_eq_some_iff.mp found
    obtain ⟨rfl, rfl⟩ := Prod.mk.inj same
    obtain ⟨nonempty, rfl⟩ := namesBelow?_eq_some.mp led
    exact ⟨nonempty, listed⟩
  · rintro ⟨nonempty, listed⟩
    refine ⟨_, listed, ?_⟩
    dsimp only
    rw [namesBelow?_eq_some.mpr ⟨nonempty, rfl⟩]
    rfl

theorem isSome_of_mem_below (listed : (names, entry) ∈ tree.below place) :
    names ≠ [] ∧ (tree.entry? (place ++ names)).isSome := by
  obtain ⟨nonempty, listed⟩ := mem_below_iff.mp listed
  refine ⟨nonempty, ?_⟩
  rw [eq_lookup_of_ne_nil (by simp [nonempty]), List.lookup_isSome_iff]
  exact ⟨_, listed, beq_self_eq_true _⟩

theorem mem_below_of_held (nonempty : names ≠ [])
    (held : tree.entry? (place ++ names) = some entry) : (names, entry) ∈ tree.below place := by
  rw [eq_lookup_of_ne_nil (by simp [nonempty])] at held
  exact mem_below_iff.mpr ⟨nonempty, mem_of_lookup held⟩

end FileTree

/-! ## Patterns -/

namespace Glob

open FileTree

theorem eraseDups_of_forall_eq {α : Type} [BEq α] [LawfulBEq α] {a : α} {found : List α}
    (listed : a ∈ found) (same : ∀ b ∈ found, b = a) : found.eraseDups = [a] := by
  cases found with
  | nil => cases listed
  | cons b rest =>
      obtain rfl := same b (List.mem_cons_self ..)
      have others : (rest.filter fun c => !c == b) = [] := by
        rw [List.filter_eq_nil_iff]
        intro c listed
        simp [same c (List.mem_cons_of_mem _ listed)]
      rw [List.eraseDups_cons, others, List.eraseDups_nil]

/-- A pattern of a single part, which stands for a name. -/
structure NamesFile (pattern part name : String) : Prop where
  parts : (Path.ofString pattern).parts = [part]
  ofFile : pattern.endsWith "/" = false
  wild : isWild part = true
  single : part ≠ "**"
  accepts : matchesName (pieces part) name.toList = true
  plain : name ≠ ".."

section Alone

variable {tree : FileTree} {place : Place} {pattern part name : String} {content : List UInt8}

theorem mem_namesIn (name : String) :
    name ∈ namesIn tree place ↔ ∃ entry, ([name], entry) ∈ tree.below place := by
  rw [namesIn, List.mem_filterMap]
  constructor
  · rintro ⟨⟨names, entry⟩, listed, single⟩
    dsimp only at single
    split at single
    · cases single
      exact ⟨entry, listed⟩
    · cases single
  · rintro ⟨entry, listed⟩
    exact ⟨_, listed, rfl⟩

theorem mem_directories (names : List String) : names ∈ directories tree place →
    names = [] ∨ (names, Entry.directory) ∈ tree.below place := by
  rw [directories, List.mem_cons, List.mem_filterMap]
  rintro (rfl | ⟨⟨names, entry⟩, listed, directory⟩)
  · exact .inl rfl
  · dsimp only at directory
    split at directory
    · rename_i isDirectory
      cases directory
      exact .inr (isDirectory ▸ listed)
    · cases directory

/-- What a part of a pattern selects in a directory with a single file below it. -/
theorem mem_select_of_alone (names : NamesFile pattern part name)
    (directory : tree.entry? place = some .directory)
    (held : tree.entry? (place ++ [name]) = some (.file content))
    (alone : ∀ names, names ≠ [] → (tree.entry? (place ++ names)).isSome → names = [name])
    (selected : List String) : selected ∈ select tree place [part] ↔ selected = [name] := by
  have expanded (other : String) : other ∈ expand tree place part ↔ other = name := by
    rw [expand, if_pos names.wild, List.mem_filter, mem_namesIn]
    constructor
    · rintro ⟨⟨entry, listed⟩, _⟩
      obtain ⟨nonempty, stands⟩ := isSome_of_mem_below listed
      exact List.head_eq_of_cons_eq (alone _ nonempty stands)
    · rintro rfl
      exact ⟨⟨_, mem_below_of_held (List.cons_ne_nil _ _) held⟩, names.accepts⟩
  have ending : select tree (step place name) [] = [[]] := by
    rw [select, step, if_neg names.plain, held]
    rfl
  rw [select, if_neg (not_not.mpr directory), if_neg names.single, List.mem_flatMap]
  constructor
  · rintro ⟨other, listed, within⟩
    obtain rfl := (expanded other).mp listed
    rw [ending] at within
    exact List.mem_singleton.mp within
  · rintro rfl
    refine ⟨name, (expanded name).mpr rfl, ?_⟩
    rw [ending]
    exact List.mem_singleton.mpr rfl

/-- Below a directory with a single file, a pattern that the file agrees with names the file. -/
theorem files_of_alone (names : NamesFile pattern part name)
    (directory : tree.entry? place = some .directory)
    (held : tree.entry? (place ++ [name]) = some (.file content))
    (alone : ∀ names, names ≠ [] → (tree.entry? (place ++ names)).isSome → names = [name]) :
    files tree place pattern = [[name]] := by
  have here := mem_select_of_alone names directory held alone
  have found (selected : List String) :
      selected ∈ select tree place ["**", part] ↔ selected = [name] := by
    rw [select, if_neg (not_not.mpr directory), if_pos rfl, List.mem_flatMap]
    constructor
    · rintro ⟨upper, listed, within⟩
      obtain ⟨lower, selects, rfl⟩ := List.mem_map.mp within
      obtain rfl | below := mem_directories upper listed
      · rw [List.append_nil] at selects
        exact (here lower).mp selects
      · -- the only thing below is no directory
        obtain ⟨nonempty, stands⟩ := isSome_of_mem_below below
        obtain rfl := alone upper nonempty stands
        rw [select, if_pos (by rw [held]; nofun)] at selects
        cases selects
    · rintro rfl
      refine ⟨[], List.mem_cons_self .., List.mem_map.mpr ⟨[name], ?_, rfl⟩⟩
      rw [List.append_nil]
      exact (here _).mpr rfl
  have file : isFile tree ([name].foldl FileTree.step place) = true := by
    rw [List.foldl_cons, List.foldl_nil, step, if_neg names.plain, isFile, held]
  rw [files, names.ofFile, if_neg Bool.false_ne_true, names.parts]
  dsimp only
  apply eraseDups_of_forall_eq
  · rw [List.mem_mergeSort, List.mem_filter]
    exact ⟨(found _).mpr rfl, file⟩
  · intro selected listed
    rw [List.mem_mergeSort, List.mem_filter] at listed
    exact (found selected).mp listed.1

/-- The default pattern of source files names the only file of a new program. -/
theorem namesFile_library : NamesFile "*.rs" "*.rs" "lib.rs" where
  parts := by decide +kernel
  ofFile := by
    rw [← String.endsWith_toSlice, String.Slice.endsWith_string_eq_false_iff, String.copy_toSlice]
    decide +kernel
  wild := by
    rw [isWild, String.any, String.contains_bool_eq]
    decide +kernel
  single := by decide
  accepts := by decide +kernel
  plain := by decide

end Alone

end Glob

end ProgramIdl
