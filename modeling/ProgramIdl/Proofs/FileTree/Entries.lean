import Mathlib.Data.List.Infix
import ProgramIdl.FileTree.Basic

/-!
# What stands in a file tree

Putting and removing an entry changes its own place only.  In a tree where everything stands in a
directory, a path leads to the place it names exactly if the places above are directories, as long as
double points stand only behind directories that exist (`Anchored.locate_of_leads`,
`Anchored.leads_of_locate`).
-/

set_option autoImplicit false

namespace ProgramIdl

namespace FileTree

variable {tree : FileTree} {place other upper : Place} {entry : Entry}

/-! ## One entry -/

@[simp] theorem directory_nil (tree : FileTree) : tree.entry? [] = some .directory :=
  rfl

theorem eq_lookup_of_ne_nil (nonempty : place ≠ []) : tree.entry? place = tree.entries.lookup place :=
  if_neg nonempty

theorem ne_nil_of_ne_directory (other : tree.entry? place ≠ some .directory) : place ≠ [] := by
  rintro rfl
  exact other rfl

theorem ne_nil_of_fresh (fresh : tree.entry? place = none) : place ≠ [] := by
  rintro rfl
  cases fresh

theorem nothing_directory_or_file (tree : FileTree) (place : Place) : tree.entry? place = none ∨
    tree.entry? place = some .directory ∨ ∃ content, tree.entry? place = some (.file content) := by
  cases tree.entry? place with
  | none => exact Or.inl rfl
  | some entry =>
      cases entry with
      | directory => exact Or.inr (Or.inl rfl)
      | file content => exact Or.inr (Or.inr ⟨content, rfl⟩)

theorem lookup_filter_of_ne (apart : other ≠ place) (entries : List (Place × Entry)) :
    (entries.filter fun held => held.1 ≠ place).lookup other = entries.lookup other := by
  induction entries with
  | nil => rfl
  | cons held entries inductionHypothesis =>
      obtain ⟨key, entry⟩ := held
      by_cases same : key = place
      · have missed : (other == key) = false := by rw [same, beq_false_of_ne apart]
        rw [List.filter_cons_of_neg (by simp [same]), inductionHypothesis, List.lookup_cons, missed]
      · rw [List.filter_cons_of_pos (by simp [same]), List.lookup_cons, List.lookup_cons,
          inductionHypothesis]

theorem put_self (nonempty : place ≠ []) : FileTree.entry? (tree.put place entry) place = some entry := by
  rw [eq_lookup_of_ne_nil nonempty, put, List.lookup_cons_self]

theorem put_of_ne (apart : other ≠ place) :
    FileTree.entry? (tree.put place entry) other = tree.entry? other := by
  by_cases root : other = []
  · rw [root, directory_nil, directory_nil]
  · rw [eq_lookup_of_ne_nil root, eq_lookup_of_ne_nil root, put, List.lookup_cons,
      beq_false_of_ne apart]
    exact lookup_filter_of_ne apart tree.entries

theorem mem_keys_of_lookup {entries : List (Place × Entry)} {entry : Entry}
    (found : entries.lookup place = some entry) : place ∈ entries.map Prod.fst := by
  obtain ⟨before, after, rfl, _⟩ := List.lookup_eq_some_iff.mp found
  simp

/-- An entry that is put where nothing stands, and removed again, leaves nothing behind. -/
theorem remove_put_of_fresh (fresh : tree.entry? place = none) :
    (tree.put place entry).remove place = tree := by
  have nonempty := ne_nil_of_fresh fresh
  rw [eq_lookup_of_ne_nil nonempty, List.lookup_eq_none_iff] at fresh
  have untouched : (tree.entries.filter fun held => held.1 ≠ place) = tree.entries := by
    rw [List.filter_eq_self]
    intro held listed
    simpa using Ne.symm (by simpa using fresh held listed)
  rw [put, remove, List.filter_cons_of_neg (by simp), untouched, untouched]

/-! ## Directories above -/

/-- Everything but the root stands in a directory. -/
def Closed (tree : FileTree) : Prop :=
  ∀ place name entry, tree.entry? (place ++ [name]) = some entry →
    tree.entry? place = some .directory

theorem closed_of_all (all : ∀ held ∈ tree.entries,
    tree.entry? held.1.dropLast = some .directory) : tree.Closed := by
  intro place name entry stands
  rw [eq_lookup_of_ne_nil (by simp)] at stands
  obtain ⟨held, listed, same⟩ := List.mem_map.mp (mem_keys_of_lookup stands)
  have directory := all held listed
  rwa [same, List.dropLast_concat] at directory

/-- The places above a place are directories. -/
def Leads (tree : FileTree) (place : Place) : Prop :=
  ∀ upper, upper <+: place → upper ≠ place → tree.entry? upper = some .directory

theorem leads_nil (tree : FileTree) : tree.Leads [] := by
  intro upper above apart
  exact absurd (List.prefix_nil.mp above) apart

theorem Leads.concat (leads : tree.Leads place) (directory : tree.entry? place = some .directory)
    (name : String) : tree.Leads (place ++ [name]) := by
  intro upper above apart
  have within : upper <+: place := (List.prefix_concat_iff.mp above).resolve_left apart
  by_cases same : upper = place
  · rw [same, directory]
  · exact leads upper within same

theorem Closed.leads (closed : tree.Closed) (held : tree.entry? place = some entry) :
    tree.Leads place := by
  induction place using List.reverseRecOn generalizing entry with
  | nil => exact leads_nil tree
  | append_singleton place name inductionHypothesis =>
      have directory := closed place name entry held
      exact (inductionHypothesis directory).concat directory name

/-! ## Following names -/

theorem step_of_ne {name : String} (plain : name ≠ "..") (place : Place) :
    step place name = place ++ [name] :=
  if_neg plain

theorem foldl_step {names : List String} (plain : ".." ∉ names) (place : Place) :
    names.foldl step place = place ++ names := by
  induction names generalizing place with
  | nil => simp
  | cons name names inductionHypothesis =>
      rw [List.mem_cons, not_or] at plain
      rw [List.foldl_cons, step_of_ne (Ne.symm plain.1), inductionHypothesis plain.2]
      simp

@[simp] theorem follow_nil (tree : FileTree) (place : Place) : tree.follow place [] = .ok place :=
  rfl

/-- Only a directory leads on. -/
theorem follow_of_directory (directory : tree.entry? place = some .directory) (name : String)
    (names : List String) :
    tree.follow place (name :: names) = tree.follow (step place name) names := by
  rw [follow, directory]

theorem follow_cons_eq_ok_iff {name : String} {names : List String} {target : Place} :
    tree.follow place (name :: names) = .ok target ↔
      tree.entry? place = some .directory ∧ tree.follow (step place name) names = .ok target := by
  constructor
  · intro reached
    rw [follow] at reached
    split at reached
    · exact ⟨‹_›, reached⟩
    · cases reached
    · cases reached
  · rintro ⟨directory, reached⟩
    rw [follow_of_directory directory, reached]

theorem follow_of_leads {names : List String} (plain : ".." ∉ names)
    (leads : tree.Leads (place ++ names)) : tree.follow place names = .ok (place ++ names) := by
  induction names generalizing place with
  | nil => rw [follow_nil, List.append_nil]
  | cons name names inductionHypothesis =>
      rw [List.mem_cons, not_or] at plain
      have split : place ++ name :: names = place ++ [name] ++ names := by simp
      have directory : tree.entry? place = some .directory :=
        leads place (List.prefix_append ..) (by simp)
      rw [split] at leads ⊢
      rw [follow_of_directory directory, step_of_ne (Ne.symm plain.1),
        inductionHypothesis plain.2 leads]

theorem leads_of_follow {names : List String} {target : Place} (plain : ".." ∉ names)
    (above : tree.Leads place) (reached : tree.follow place names = .ok target) :
    target = place ++ names ∧ tree.Leads target := by
  induction names generalizing place with
  | nil =>
      obtain rfl := Except.ok.inj reached
      exact ⟨(List.append_nil _).symm, above⟩
  | cons name names inductionHypothesis =>
      rw [List.mem_cons, not_or] at plain
      rw [follow_cons_eq_ok_iff, step_of_ne (Ne.symm plain.1)] at reached
      obtain ⟨same, leads⟩ := inductionHypothesis plain.2 (above.concat reached.1 name) reached.2
      exact ⟨by rw [same]; simp, leads⟩

theorem eq_foldl_of_follow {names : List String} {target : Place}
    (reached : tree.follow place names = .ok target) : target = names.foldl step place := by
  induction names generalizing place with
  | nil => exact (Except.ok.inj reached).symm
  | cons name names inductionHypothesis =>
      rw [follow_cons_eq_ok_iff] at reached
      exact inductionHypothesis reached.2

theorem follow_append {names : List String} {target : Place}
    (reached : tree.follow place names = .ok target) (behind : List String) :
    tree.follow place (names ++ behind) = tree.follow target behind := by
  induction names generalizing place with
  | nil => rw [List.nil_append, Except.ok.inj reached]
  | cons name names inductionHypothesis =>
      rw [follow_cons_eq_ok_iff] at reached
      rw [List.cons_append, follow_of_directory reached.1]
      exact inductionHypothesis reached.2

theorem exists_of_follow_concat {names : List String} {name : String} {target : Place}
    (reached : tree.follow place (names ++ [name]) = .ok target) :
    ∃ middle, tree.follow place names = .ok middle ∧ tree.entry? middle = some .directory := by
  induction names generalizing place with
  | nil =>
      rw [List.nil_append, follow_cons_eq_ok_iff] at reached
      exact ⟨place, rfl, reached.1⟩
  | cons first names inductionHypothesis =>
      rw [List.cons_append, follow_cons_eq_ok_iff] at reached
      rw [follow_of_directory reached.1]
      exact inductionHypothesis reached.2

/-- A way through directories stays when they stay. -/
theorem follow_of_kept {other : FileTree} {names : List String} {target : Place}
    (kept : ∀ place, tree.entry? place = some .directory → other.entry? place = some .directory)
    (reached : tree.follow place names = .ok target) : other.follow place names = .ok target := by
  induction names generalizing place with
  | nil => exact reached
  | cons name names inductionHypothesis =>
      rw [follow_cons_eq_ok_iff] at reached
      rw [follow_of_directory (kept place reached.1)]
      exact inductionHypothesis reached.2

/-- A way that ends in front of a file has met that file. -/
theorem exists_file_of_follow {names : List String} (plain : ".." ∉ names)
    (ended : tree.follow place names = .error .notDirectory) :
    ∃ upper content, upper <+: place ++ names ∧ tree.entry? upper = some (.file content) := by
  induction names generalizing place with
  | nil => cases ended
  | cons name names inductionHypothesis =>
      rw [List.mem_cons, not_or] at plain
      obtain held | held | ⟨content, held⟩ := tree.nothing_directory_or_file place
      · rw [follow, held] at ended
        cases ended
      · rw [follow_of_directory held, step_of_ne (Ne.symm plain.1)] at ended
        obtain ⟨upper, content, above, file⟩ := inductionHypothesis plain.2 ended
        rw [List.append_assoc] at above
        exact ⟨upper, content, above, file⟩
      · exact ⟨place, content, List.prefix_append .., held⟩

end FileTree

namespace Workspace

variable {workspace : Workspace} {path : Path} {place : Place}

/-- A workspace whose tree is closed, with a directory that relative paths start from. -/
structure WellFormed (workspace : Workspace) : Prop where
  closed : workspace.tree.Closed
  here : workspace.tree.entry? workspace.here = some .directory

theorem WellFormed.start (wellFormed : workspace.WellFormed) (path : Path) :
    workspace.tree.entry? (workspace.start path) = some .directory := by
  by_cases relative : path.root = ""
  · rw [Workspace.start, if_pos relative]
    exact wellFormed.here
  · rw [Workspace.start, if_neg relative]
    rfl

theorem namedPlace_eq (plain : ".." ∉ path.parts) :
    workspace.namedPlace path = workspace.start path ++ path.parts :=
  FileTree.foldl_step plain _

theorem namedPlace_child {name : String} (other : name ≠ "..") :
    workspace.namedPlace (path.child name) = workspace.namedPlace path ++ [name] := by
  rw [namedPlace, Path.child, List.foldl_append]
  exact FileTree.step_of_ne other _

theorem locate_of_leads (plain : ".." ∉ path.parts)
    (leads : workspace.tree.Leads (workspace.namedPlace path)) :
    workspace.locate path = .ok (workspace.namedPlace path) := by
  rw [namedPlace_eq plain] at leads ⊢
  exact FileTree.follow_of_leads plain leads

/-! ## Ways that lead back up -/

theorem exists_of_isDirectory (found : workspace.isDirectory path = true) :
    workspace.locate path = .ok (workspace.namedPlace path) ∧
      workspace.tree.entry? (workspace.namedPlace path) = some .directory := by
  have stands : workspace.entry? path = some .directory := of_decide_eq_true found
  rw [Workspace.entry?] at stands
  split at stands
  · rename_i place located
    obtain rfl : place = workspace.namedPlace path := FileTree.eq_foldl_of_follow located
    exact ⟨located, stands⟩
  · cases stands

theorem isDirectory_parent (found : workspace.isDirectory path = true) :
    workspace.isDirectory path.parent = true := by
  obtain ⟨root, parts⟩ := path
  cases parts using List.reverseRecOn with
  | nil => exact found
  | append_singleton parts name =>
      obtain ⟨located, _⟩ := exists_of_isDirectory found
      obtain ⟨middle, reached, directory⟩ := FileTree.exists_of_follow_concat located
      rw [Path.parent, List.dropLast_concat]
      refine decide_eq_true ?_
      rw [Workspace.entry?, show workspace.locate ⟨root, parts⟩ = .ok middle from reached]
      exact directory

/-- A path to which an existing directory leads: double points stand only on the way to that
directory. -/
def Anchored (workspace : Workspace) (path : Path) : Prop :=
  ∃ front back, path.parts = front ++ back ∧ ".." ∉ back ∧
    workspace.isDirectory ⟨path.root, front⟩ = true

theorem WellFormed.anchored (wellFormed : workspace.WellFormed) (plain : ".." ∉ path.parts) :
    workspace.Anchored path :=
  ⟨[], path.parts, rfl, plain, decide_eq_true (wellFormed.start ⟨path.root, []⟩)⟩

/-- An anchored path leads to a directory, or its last name stands behind an anchored path. -/
theorem Anchored.cases_parent (anchored : workspace.Anchored path) :
    workspace.isDirectory path = true ∨
      ∃ name, name ≠ ".." ∧ path.parent.child name = path ∧ workspace.Anchored path.parent := by
  obtain ⟨root, parts⟩ := path
  obtain ⟨front, back, rfl, plain, found⟩ := anchored
  cases back using List.reverseRecOn with
  | nil =>
      left
      rwa [List.append_nil]
  | append_singleton back name =>
      right
      rw [List.mem_append, not_or, List.mem_singleton] at plain
      have parent : Path.parent ⟨root, front ++ (back ++ [name])⟩ = ⟨root, front ++ back⟩ := by
        rw [Path.parent, ← List.append_assoc, List.dropLast_concat]
      refine ⟨name, Ne.symm plain.2, ?_, ?_⟩
      · rw [parent, Path.child, List.append_assoc]
      · rw [parent]
        exact ⟨front, back, rfl, plain.1, found⟩

/-- An anchored path continues from its directory. -/
theorem Anchored.exists_base (anchored : workspace.Anchored path) :
    ∃ base names, workspace.tree.entry? base = some .directory ∧ ".." ∉ names ∧
      workspace.namedPlace path = base ++ names ∧
        workspace.locate path = workspace.tree.follow base names := by
  obtain ⟨front, back, split, plain, found⟩ := anchored
  obtain ⟨located, directory⟩ := exists_of_isDirectory found
  refine ⟨_, back, directory, plain, ?_, ?_⟩
  · rw [namedPlace, split, List.foldl_append]
    exact FileTree.foldl_step plain _
  · rw [locate, split]
    exact FileTree.follow_append located back

theorem Anchored.locate_of_leads (anchored : workspace.Anchored path)
    (leads : workspace.tree.Leads (workspace.namedPlace path)) :
    workspace.locate path = .ok (workspace.namedPlace path) := by
  obtain ⟨base, names, _, plain, place, follows⟩ := anchored.exists_base
  rw [place] at leads ⊢
  rw [follows]
  exact FileTree.follow_of_leads plain leads

theorem Anchored.leads_of_locate (anchored : workspace.Anchored path)
    (wellFormed : workspace.WellFormed) (located : workspace.locate path = .ok place) :
    place = workspace.namedPlace path ∧ workspace.tree.Leads place := by
  obtain ⟨base, names, directory, plain, named, follows⟩ := anchored.exists_base
  rw [follows] at located
  rw [named]
  exact FileTree.leads_of_follow plain (wellFormed.closed.leads directory) located

theorem Anchored.exists_file (anchored : workspace.Anchored path)
    (ended : workspace.locate path = .error .notDirectory) :
    ∃ upper content, upper <+: workspace.namedPlace path ∧
      workspace.tree.entry? upper = some (.file content) := by
  obtain ⟨base, names, _, plain, named, follows⟩ := anchored.exists_base
  rw [follows] at ended
  rw [named]
  exact FileTree.exists_file_of_follow plain ended

/-- An anchored path stays anchored when directories stay. -/
theorem Anchored.of_kept {other : Workspace} (anchored : workspace.Anchored path)
    (here : other.here = workspace.here)
    (kept : ∀ place, workspace.tree.entry? place = some .directory →
      other.tree.entry? place = some .directory) : other.Anchored path := by
  obtain ⟨front, back, split, plain, found⟩ := anchored
  refine ⟨front, back, split, plain, decide_eq_true ?_⟩
  obtain ⟨located, directory⟩ := exists_of_isDirectory found
  have reached : other.locate ⟨path.root, front⟩ = .ok (workspace.namedPlace ⟨path.root, front⟩) := by
    rw [locate, start, here]
    exact FileTree.follow_of_kept kept located
  rw [Workspace.entry?, reached]
  exact kept _ directory

end Workspace

end ProgramIdl
