import ProgramIdl.Proofs.Layout.Extension
import ProgramIdl.Proofs.Program.Arrangement

/-!
# Unrelated declarations

A plain struct or a constant is unrelated to a program if its name is none that a struct or a constant
of the program has, and if the constant's text is read as no bytes.  Wherever such declarations are put
into the files of a program, the tables of the program say the same of the names it had before
(`Declarations.OnlyAdds.of_extended`).
-/

set_option autoImplicit false

namespace ProgramIdl

/-! ## Lists with others put in between -/

/-- A list from which another one comes by putting added elements in between; the elements that stay
are alike one by one. -/
inductive Interspersed {α : Type} (same : α → α → Prop) (added : α → Prop) :
    List α → List α → Prop where
  | nil : Interspersed same added [] []
  | keep {value other : α} {values others : List α} (alike : same value other)
      (rest : Interspersed same added values others) :
      Interspersed same added (value :: values) (other :: others)
  | add {other : α} {values others : List α} (new : added other)
      (rest : Interspersed same added values others) :
      Interspersed same added values (other :: others)

namespace Interspersed

variable {α β : Type} {same : α → α → Prop} {added : α → Prop} {values others : List α}

theorem append {later laterOthers : List α} (first : Interspersed same added values others)
    (second : Interspersed same added later laterOthers) :
    Interspersed same added (values ++ later) (others ++ laterOthers) := by
  induction first with
  | nil => exact second
  | keep alike rest inductionHypothesis => exact .keep alike inductionHypothesis
  | add new rest inductionHypothesis => exact .add new inductionHypothesis

theorem of_added (new : ∀ other ∈ others, added other) : Interspersed same added [] others := by
  induction others with
  | nil => exact .nil
  | cons other rest inductionHypothesis =>
      obtain ⟨isNew, later⟩ := List.forall_mem_cons.mp new
      exact .add isNew (inductionHypothesis later)

theorem filter {keeps : α → Bool}
    (blind : ∀ value other, same value other → keeps value = keeps other)
    (interspersed : Interspersed same added values others) :
    Interspersed same added (values.filter keeps) (others.filter keeps) := by
  induction interspersed with
  | nil => exact .nil
  | @keep value other _ _ alike rest inductionHypothesis =>
      rw [List.filter_cons, List.filter_cons, blind value other alike]
      split
      · exact .keep alike inductionHypothesis
      · exact inductionHypothesis
  | add new rest inductionHypothesis =>
      rw [List.filter_cons]
      split
      · exact .add new inductionHypothesis
      · exact inductionHypothesis

theorem flatMap {same : β → β → Prop} {added : β → Prop} {sameInside : α → α → Prop}
    {addedInside : α → Prop} {parts : β → List α} {values others : List β}
    (interspersed : Interspersed same added values others)
    (kept : ∀ value other, same value other →
      Interspersed sameInside addedInside (parts value) (parts other))
    (new : ∀ other, added other → Interspersed sameInside addedInside [] (parts other)) :
    Interspersed sameInside addedInside (values.flatMap parts) (others.flatMap parts) := by
  induction interspersed with
  | nil => exact .nil
  | keep alike rest inductionHypothesis => exact (kept _ _ alike).append inductionHypothesis
  | add isNew rest inductionHypothesis => exact (new _ isNew).append inductionHypothesis

theorem filterMap {select : α → Option β} {addedEntry : β → Prop}
    (new : ∀ other entry, added other → select other = some entry → addedEntry entry)
    (interspersed : Interspersed (· = ·) added values others) :
    Interspersed (· = ·) addedEntry (values.filterMap select) (others.filterMap select) := by
  induction interspersed with
  | nil => exact .nil
  | @keep value other _ _ alike rest inductionHypothesis =>
      obtain rfl : value = other := alike
      rw [List.filterMap_cons, List.filterMap_cons]
      split
      · exact inductionHypothesis
      · exact .keep rfl inductionHypothesis
  | @add other _ _ isNew rest inductionHypothesis =>
      rw [List.filterMap_cons]
      split
      · exact inductionHypothesis
      · exact .add (new other _ isNew ‹_›) inductionHypothesis

theorem eq_of_not_added (interspersed : Interspersed (· = ·) (fun _ : α => False) values others) :
    values = others := by
  induction interspersed with
  | nil => rfl
  | keep alike rest inductionHypothesis => rw [alike, inductionHypothesis]
  | add new rest inductionHypothesis => exact new.elim

/-- What is selected stays if nothing of what is added is selected. -/
theorem filterMap_eq {select : α → Option β} (new : ∀ other, added other → select other = none)
    (interspersed : Interspersed (· = ·) added values others) :
    values.filterMap select = others.filterMap select := by
  refine eq_of_not_added (interspersed.filterMap fun other entry isNew selected => ?_)
  rw [new other isNew] at selected
  cases selected

/-- A name stands for what it stood for before, or else it is a new name of something added. -/
theorem lookup {keys : List String} {added : String × β → Prop} {entries others : List (String × β)}
    (new : ∀ entry, added entry → entry.1 ∉ keys) (listed : ∀ entry ∈ entries, entry.1 ∈ keys)
    (interspersed : Interspersed (· = ·) added entries others) (name : String) :
    others.lookup name = entries.lookup name ∨
      entries.lookup name = none ∧ ∃ value, others.lookup name = some value ∧ added (name, value) := by
  induction interspersed with
  | nil => exact .inl rfl
  | @keep entry other _ _ alike rest inductionHypothesis =>
      obtain rfl : entry = other := alike
      obtain ⟨own, value⟩ := entry
      by_cases here : name = own
      · left
        rw [List.lookup_cons, List.lookup_cons, beq_iff_eq.mpr here]
      · simp only [List.lookup_cons, beq_eq_false_iff_ne.mpr here]
        exact inductionHypothesis fun entry member => listed entry (List.mem_cons_of_mem _ member)
  | @add other _ _ isNew rest inductionHypothesis =>
      obtain ⟨own, value⟩ := other
      by_cases here : name = own
      · subst here
        right
        refine ⟨?_, value, by simp, isNew⟩
        rw [List.lookup_eq_none_iff]
        intro entry member
        refine bne_iff_ne.mpr fun sameName => new _ isNew ?_
        rw [sameName]
        exact listed entry member
      · simp only [List.lookup_cons, beq_eq_false_iff_ne.mpr here]
        exact inductionHypothesis listed

end Interspersed
/-! ## Declarations that a program does not refer to -/

/-- The names that types and seeds of a program may refer to. -/
def Declarations.tableNames (declarations : Declarations) : List String :=
  declarations.records.map (·.name) ++ declarations.constants.map (·.name)

/-- A plain struct, or a constant whose text is read as no bytes, with a name that is not taken. -/
inductive Declaration.Unrelated (taken : List String) : Declaration → Prop where
  | record {declared : Declared PlainStruct} (fresh : declared.name ∉ taken) :
      Unrelated taken (.record declared)
  | constant {declared : Declared Constant} (fresh : declared.name ∉ taken)
      (noBytes : Literal.byteString? declared.content.value = none) :
      Unrelated taken (.constant declared)

/-- Files into which unrelated declarations have been put, in any place: between the declarations of a
file, or in files of their own. -/
abbrev ScannedFile.Extended (taken : List String) : List ScannedFile → List ScannedFile → Prop :=
  Interspersed
    (fun file other => file.path = other.path ∧
      Interspersed (· = ·) (Declaration.Unrelated taken) file.declarations other.declarations)
    (fun other => ∀ declaration ∈ other.declarations, declaration.Unrelated taken)

/-! ### The order of files -/

namespace ScannedFile

/-- Some files in the order of their paths. -/
def sorted (files : List ScannedFile) : List ScannedFile :=
  files.mergeSort fun file other => decide (file.path ≤ other.path)

/-- The files whose paths come before a path. -/
def before (path : String) (files : List ScannedFile) : List ScannedFile :=
  files.filter fun file => !decide (path ≤ file.path)

/-- The files whose paths do not come before a path. -/
def notBefore (path : String) (files : List ScannedFile) : List ScannedFile :=
  files.filter fun file => decide (path ≤ file.path)

/-- Sorting puts one more file between those whose paths come before its own and all others. -/
theorem sorted_cons (file : ScannedFile) (files : List ScannedFile) :
    sorted files = before file.path (sorted files) ++ notBefore file.path (sorted files) ∧
      sorted (file :: files) =
        before file.path (sorted files) ++ file :: notBefore file.path (sorted files) := by
  obtain ⟨front, back, larger, smaller, earlier⟩ :=
    List.mergeSort_cons path_le_trans path_le_total file files
  have pairwise := List.pairwise_mergeSort path_le_trans path_le_total (file :: files)
  rw [larger] at pairwise
  have later := (List.pairwise_cons.mp (List.pairwise_append.mp pairwise).2.1).1
  have frontFound : before file.path (front ++ back) = front := by
    rw [before, List.filter_append, List.filter_eq_self.mpr earlier,
      List.filter_eq_nil_iff.mpr fun other member => by rw [later other member]; decide,
      List.append_nil]
  have backFound : notBefore file.path (front ++ back) = back := by
    rw [notBefore, List.filter_append, List.filter_eq_self.mpr later,
      List.filter_eq_nil_iff.mpr fun other member same => by
        have absent := earlier other member
        rw [same] at absent
        cases absent]
    rfl
  rw [sorted, sorted, larger, smaller, frontFound, backFound]
  exact ⟨rfl, rfl⟩

variable {taken : List String} {files others : List ScannedFile}

theorem Extended.filter_before (extended : Extended taken files others) (path : String) :
    Extended taken (before path files) (before path others) :=
  extended.filter fun _ _ alike => congrArg (fun own => !decide (path ≤ own)) alike.1

theorem Extended.filter_notBefore (extended : Extended taken files others) (path : String) :
    Extended taken (notBefore path files) (notBefore path others) :=
  extended.filter fun _ _ alike => congrArg (fun own => decide (path ≤ own)) alike.1

theorem Extended.sort (extended : Extended taken files others) :
    Extended taken (sorted files) (sorted others) := by
  induction extended with
  | nil =>
      rw [sorted, List.mergeSort_nil]
      exact .nil
  | @keep file other files others alike rest inductionHypothesis =>
      rw [(sorted_cons file files).2, (sorted_cons other others).2, alike.1]
      exact (Extended.filter_before inductionHypothesis _).append
        (.keep alike (Extended.filter_notBefore inductionHypothesis _))
  | @add other files others new rest inductionHypothesis =>
      have split := (sorted_cons ⟨other.path, []⟩ files).1
      rw [(sorted_cons other others).2, split]
      exact (Extended.filter_before inductionHypothesis _).append
        (.add new (Extended.filter_notBefore inductionHypothesis _))

/-- In the files in order, the unrelated declarations stand between those of the program. -/
theorem Extended.inOrder (extended : Extended taken files others) :
    Interspersed (· = ·) (Declaration.Unrelated taken) (inOrder files) (inOrder others) :=
  (Extended.sort extended).flatMap (fun _ _ alike => alike.2) fun _ new => .of_added new

end ScannedFile

/-! ### The tables of a program -/

/-- What the types of a program may refer to grows, what its seeds may refer to stays, and so does
everything else. -/
structure Declarations.OnlyAdds (declarations other : Declarations) : Prop where
  others : other = { declarations with constants := other.constants, records := other.records }
  types : other.typeTable.Extends declarations.typeTable
  /-- The constants that are read as bytes are the same. -/
  bytes : ∀ name, (other.constantTexts.lookup name).bind Literal.byteString? =
    (declarations.constantTexts.lookup name).bind Literal.byteString?

section Tables

variable {first second : List Declaration}

theorem ofList_others {taken : List String}
    (interspersed : Interspersed (· = ·) (Declaration.Unrelated taken) first second) :
    Declarations.ofList second =
      { Declarations.ofList first with
        constants := (Declarations.ofList second).constants
        records := (Declarations.ofList second).records } := by
  unfold Declarations.ofList
  rw [Declarations.mk.injEq]
  refine ⟨?_, ?_, ?_, ?_, ?_, ?_, rfl, ?_, ?_, ?_, rfl, ?_, ?_, ?_⟩
  all_goals
    refine (interspersed.filterMap_eq fun declaration new => ?_).symm
    cases new <;> rfl

/-- The name and the text of the constant that a declaration is. -/
def Declaration.constantText? (declaration : Declaration) : Option (String × String) :=
  declaration.constant?.map fun constant => (constant.name, constant.content.value)

/-- The name and the fields of the plain struct that a declaration is. -/
def Declaration.recordFields? (declaration : Declaration) : Option (String × List Field) :=
  declaration.record?.map fun record => (record.name, record.content.fields)

theorem constantTexts_ofList (declarations : List Declaration) :
    (Declarations.ofList declarations).constantTexts =
      declarations.filterMap Declaration.constantText? :=
  List.map_filterMap

theorem records_ofList (declarations : List Declaration) :
    (Declarations.ofList declarations).typeTable.records =
      declarations.filterMap Declaration.recordFields? :=
  List.map_filterMap

/-- A constant stands for the same text as before, or else it is new and no text of bytes. -/
theorem lookup_constantTexts (interspersed : Interspersed (· = ·)
      (Declaration.Unrelated (Declarations.ofList first).tableNames) first second) (name : String) :
    (Declarations.ofList second).constantTexts.lookup name =
        (Declarations.ofList first).constantTexts.lookup name ∨
      (Declarations.ofList first).constantTexts.lookup name = none ∧
        ∃ value, (Declarations.ofList second).constantTexts.lookup name = some value ∧
          Literal.byteString? value = none := by
  have interspersedTexts : Interspersed (· = ·)
      (fun entry => entry.1 ∉ (Declarations.ofList first).tableNames ∧
        Literal.byteString? entry.2 = none)
      (Declarations.ofList first).constantTexts (Declarations.ofList second).constantTexts := by
    rw [constantTexts_ofList, constantTexts_ofList]
    refine interspersed.filterMap fun other entry new selected => ?_
    cases new with
    | record fresh => cases selected
    | constant fresh noBytes =>
        obtain rfl := Option.some.inj selected
        exact ⟨fresh, noBytes⟩
  have listed : ∀ entry ∈ (Declarations.ofList first).constantTexts,
      entry.1 ∈ (Declarations.ofList first).tableNames := by
    intro entry member
    obtain ⟨constant, declared, rfl⟩ := List.mem_map.mp member
    exact List.mem_append_right _ (List.mem_map_of_mem declared)
  rcases interspersedTexts.lookup (fun _ new => new.1) listed name with
    same | ⟨unknown, value, found, _, noBytes⟩
  · exact .inl same
  · exact .inr ⟨unknown, value, found, noBytes⟩

theorem lookup_records (interspersed : Interspersed (· = ·)
      (Declaration.Unrelated (Declarations.ofList first).tableNames) first second) (name : String) :
    (Declarations.ofList second).typeTable.records.lookup name =
        (Declarations.ofList first).typeTable.records.lookup name ∨
      (Declarations.ofList first).typeTable.records.lookup name = none := by
  have interspersedFields : Interspersed (· = ·)
      (fun entry => entry.1 ∉ (Declarations.ofList first).tableNames)
      (Declarations.ofList first).typeTable.records
      (Declarations.ofList second).typeTable.records := by
    rw [records_ofList, records_ofList]
    refine interspersed.filterMap fun other entry new selected => ?_
    cases new with
    | constant fresh noBytes => cases selected
    | record fresh =>
        obtain rfl := Option.some.inj selected
        exact fresh
  have listed : ∀ entry ∈ (Declarations.ofList first).typeTable.records,
      entry.1 ∈ (Declarations.ofList first).tableNames := by
    intro entry member
    obtain ⟨record, declared, rfl⟩ := List.mem_map.mp member
    exact List.mem_append_left _ (List.mem_map_of_mem declared)
  rcases interspersedFields.lookup (fun _ new => new) listed name with same | ⟨unknown, _⟩
  · exact .inl same
  · exact .inr unknown

end Tables

/-- Unrelated declarations only add to the tables of a program. -/
theorem Declarations.OnlyAdds.of_extended {files others : List ScannedFile}
    (extended : ScannedFile.Extended (Declarations.ofFiles files).tableNames files others) :
    (Declarations.ofFiles files).OnlyAdds (Declarations.ofFiles others) := by
  have inOrder (files : List ScannedFile) :
      Declarations.ofFiles files = .ofList (ScannedFile.inOrder files) := rfl
  have interspersed := ScannedFile.Extended.inOrder extended
  rw [inOrder] at interspersed
  rw [inOrder, inOrder]
  refine ⟨ofList_others interspersed, ⟨?_, ?_⟩, ?_⟩
  · intro name fields found
    rcases lookup_records interspersed name with same | unknown
    · exact same.trans found
    · cases unknown.symm.trans found
  · intro name value found
    rcases lookup_constantTexts interspersed name with same | ⟨unknown, _⟩
    · exact same.trans found
    · cases unknown.symm.trans found
  · intro name
    rcases lookup_constantTexts interspersed name with same | ⟨unknown, value, found, noBytes⟩
    · exact congrArg (Option.bind · Literal.byteString?) same
    · rw [unknown, found, Option.bind_some, noBytes, Option.bind_none]

end ProgramIdl
