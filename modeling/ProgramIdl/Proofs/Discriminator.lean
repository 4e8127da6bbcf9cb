import ProgramIdl.Discriminator
import ProgramIdl.Proofs.LittleEndian
import ProgramIdl.Proofs.Pass

/-!
# Enums of discriminators

What it takes for the enums of a program to be taken up, and for a tagged struct to select one of
their variants: `all_eq_ok_iff` and `select_eq_ok_iff`.  In an enum that has been taken up no two
variants have one number, so that the number of a variant tells which variant it is
(`valueOf?_inj`).
-/

set_option autoImplicit false

namespace ProgramIdl.Discriminator

open ProgramIdl.Text

/-! ## Taking up one enum -/

theorem primitiveWidth?_eq_some_iff {type : String} {width : Nat} :
    primitiveWidth? type = some width ↔
      (type, width) ∈ [("u8", 1), ("u16", 2), ("u32", 4), ("u64", 8)] := by
  constructor
  · exact mem_of_lookup
  · intro listed
    simp only [List.mem_cons, Prod.mk.injEq, List.not_mem_nil, or_false] at listed
    rcases listed with ⟨rfl, rfl⟩ | ⟨rfl, rfl⟩ | ⟨rfl, rfl⟩ | ⟨rfl, rfl⟩ <;> rfl

theorem primitiveWidth?_mem {type : String} {width : Nat}
    (found : primitiveWidth? type = some width) : width ∈ [1, 2, 4, 8] := by
  have listed := List.mem_map_of_mem (f := Prod.snd) (primitiveWidth?_eq_some_iff.mp found)
  simpa using listed

theorem declaredWidth_mem {declared : Declared DiscriminatorEnum} {width : Nat}
    (found : declaredWidth declared = .ok width) : width ∈ [1, 2, 4, 8] := by
  rw [declaredWidth] at found
  split at found
  · split at found
    · rename_i known
      obtain rfl := Except.ok.inj found
      exact primitiveWidth?_mem known
    · cases found
  · obtain rfl := Except.ok.inj found
    cases first : (splitTopLevel (declared.content.repr.getD "")).findSome? primitiveWidth? with
    | none => simp
    | some width =>
        obtain ⟨type, _, known⟩ := List.exists_of_findSome?_eq_some first
        exact primitiveWidth?_mem known

/-- The width of an enum is known if its primitive type is left out or one of four. -/
theorem declaredWidth_isOk_iff {declared : Declared DiscriminatorEnum} :
    (∃ width, declaredWidth declared = .ok width) ↔
      ∀ type, declared.content.primitive = some type → type ∈ ["u8", "u16", "u32", "u64"] := by
  rw [declaredWidth]
  cases declared.content.primitive with
  | none => simp
  | some type =>
      simp only [Option.some.injEq, forall_eq']
      constructor
      · rintro ⟨width, found⟩
        split at found
        · rename_i known
          have listed :=
            List.mem_map_of_mem (f := Prod.fst) (primitiveWidth?_eq_some_iff.mp known)
          simpa using listed
        · cases found
      · intro listed
        simp only [List.mem_cons, List.not_mem_nil, or_false] at listed
        rcases listed with rfl | rfl | rfl | rfl <;> exact ⟨_, rfl⟩

/-- Numbers pass the check if they are new and different, and fit the width. -/
theorem checkValues_eq_ok_iff {enum : String} {width : Nat} {seen : List (Int × String)}
    {values : List (String × Int)} :
    checkValues enum width seen values = .ok () ↔
      Fresh (seen.map Prod.fst) (values.map Prod.snd) ∧
        ∀ entry ∈ values, entry.2 < 2 ^ (8 * width) := by
  induction values generalizing seen with
  | nil => simp [checkValues, fresh_nil]
  | cons entry rest inductionHypothesis =>
      obtain ⟨variant, value⟩ := entry
      rw [checkValues, List.map_cons, fresh_cons_iff]
      cases found : seen.lookup value with
      | some earlier =>
          have listed := List.mem_map_of_mem (f := Prod.fst) (mem_of_lookup found)
          simp [listed]
      | none =>
          have absent : value ∉ seen.map Prod.fst := by
            intro member
            obtain ⟨entry, listed, same⟩ := List.mem_map.mp member
            have differs := List.lookup_eq_none_iff.mp found entry listed
            simp [same] at differs
          have bound : (LittleEndian.limit width : Int) = 2 ^ (8 * width) := by
            rw [LittleEndian.limit_eq_two_pow]
            push_cast
            rfl
          simp only [bound]
          split
          · rename_i above
            simp only [reduceCtorEq, List.forall_mem_cons, false_iff]
            rintro ⟨_, fits, _⟩
            omega
          · rename_i below
            rw [inductionHypothesis, List.map_cons, List.forall_mem_cons]
            simp only [absent, not_false_eq_true, true_and]
            constructor
            · rintro ⟨fresh, fits⟩
              exact ⟨fresh, by omega, fits⟩
            · rintro ⟨fresh, _, fits⟩
              exact ⟨fresh, fits⟩

/-- The variants of an enum with their numbers. -/
def declaredValues (declared : Declared DiscriminatorEnum) : List (String × Int) :=
  declared.content.variants.map fun variant => (variant.name, variant.value)

/-- An enum that is taken up has a known width, which its different numbers fit. -/
theorem ofDeclared_eq_ok_iff {declared : Declared DiscriminatorEnum}
    {discriminator : Discriminator} :
    ofDeclared declared = .ok discriminator ↔
      ∃ width, declaredWidth declared = .ok width ∧
        ((declaredValues declared).map Prod.snd).Nodup ∧
        (∀ entry ∈ declaredValues declared, entry.2 < 2 ^ (8 * width)) ∧
        discriminator =
          ⟨declared.name, width, declaredValues declared, declared.content.isFinal,
            declared.docs⟩ := by
  rw [ofDeclared, bind_eq_ok_iff]
  refine exists_congr fun width => and_congr_right fun _ => ?_
  rw [bind_eq_ok_iff]
  constructor
  · rintro ⟨⟨⟩, checked, taken⟩
    obtain ⟨fresh, fits⟩ := checkValues_eq_ok_iff.mp checked
    exact ⟨fresh_top_iff.mp fresh, fits, (Except.ok.inj taken).symm⟩
  · rintro ⟨distinct, fits, rfl⟩
    exact ⟨(), checkValues_eq_ok_iff.mpr ⟨fresh_top_iff.mpr distinct, fits⟩, rfl⟩

/-- An enum whose variants have different numbers that fit its width. -/
structure Numbered (declared : Declared DiscriminatorEnum) : Prop where
  primitive : ∀ type, declared.content.primitive = some type → type ∈ ["u8", "u16", "u32", "u64"]
  nodup : (declared.content.variants.map (·.value)).Nodup
  fits : ∀ width, declaredWidth declared = .ok width →
    ∀ variant ∈ declared.content.variants, variant.value < 2 ^ (8 * width)

theorem ofDeclared_isOk_iff {declared : Declared DiscriminatorEnum} :
    (∃ discriminator, ofDeclared declared = .ok discriminator) ↔ Numbered declared := by
  have values : (declaredValues declared).map Prod.snd =
      declared.content.variants.map (·.value) := by
    rw [declaredValues, List.map_map]
    rfl
  simp only [ofDeclared_eq_ok_iff, values]
  constructor
  · rintro ⟨_, width, known, distinct, fits, _⟩
    refine ⟨declaredWidth_isOk_iff.mp ⟨width, known⟩, distinct, ?_⟩
    intro other knownToo variant listed
    obtain rfl := Except.ok.inj (known.symm.trans knownToo)
    exact fits (variant.name, variant.value) (List.mem_map_of_mem listed)
  · intro numbered
    obtain ⟨width, known⟩ := declaredWidth_isOk_iff.mpr numbered.primitive
    refine ⟨_, width, known, numbered.nodup, ?_, rfl⟩
    intro entry listed
    obtain ⟨variant, member, rfl⟩ := List.mem_map.mp listed
    exact numbered.fits width known variant member

/-- In an enum that has been taken up, a number belongs to one variant only. -/
theorem valueOf?_inj {declared : Declared DiscriminatorEnum} {discriminator : Discriminator}
    (taken : ofDeclared declared = .ok discriminator) {variant other : String} {value : Int}
    (found : discriminator.valueOf? variant = some value)
    (again : discriminator.valueOf? other = some value) : variant = other := by
  obtain ⟨width, _, distinct, _, rfl⟩ := ofDeclared_eq_ok_iff.mp taken
  exact congrArg Prod.fst
    (List.inj_on_of_nodup_map distinct (mem_of_lookup found) (mem_of_lookup again) rfl)

theorem valueOf?_isSome_iff {discriminator : Discriminator} {variant : String} :
    (∃ value, discriminator.valueOf? variant = some value) ↔
      variant ∈ discriminator.values.map Prod.fst := by
  rw [← Option.isSome_iff_exists, valueOf?, List.lookup_isSome_iff]
  simp

/-! ## Taking up all enums -/

theorem allFrom_eq_ok_iff {seen : List String} {declared : List (Declared DiscriminatorEnum)}
    {discriminators : List Discriminator} :
    allFrom seen declared = .ok discriminators ↔
      Fresh seen (declared.map (·.name)) ∧
        List.Forall₂ (fun enum taken => ofDeclared enum = .ok taken) declared discriminators := by
  induction declared generalizing seen discriminators with
  | nil => simp [allFrom, fresh_nil, eq_comm]
  | cons enum rest inductionHypothesis =>
      rw [allFrom, ensure_eq_ok_iff, List.map_cons, fresh_cons_iff, List.forall₂_cons_left_iff]
      simp only [bind_eq_ok_iff, inductionHypothesis]
      constructor
      · rintro ⟨absent, first, taken, others, ⟨fresh, takenToo⟩, same⟩
        exact ⟨⟨absent, fresh⟩, first, others, taken, takenToo, (Except.ok.inj same).symm⟩
      · rintro ⟨⟨absent, fresh⟩, first, others, taken, takenToo, rfl⟩
        exact ⟨absent, first, taken, others, ⟨fresh, takenToo⟩, rfl⟩

/-- The enums of a program are taken up if their names differ and each can be taken up. -/
theorem all_eq_ok_iff {declared : List (Declared DiscriminatorEnum)}
    {discriminators : List Discriminator} :
    all declared = .ok discriminators ↔
      (declared.map (·.name)).Nodup ∧
        List.Forall₂ (fun enum taken => ofDeclared enum = .ok taken) declared discriminators := by
  rw [all, allFrom_eq_ok_iff, fresh_top_iff]

theorem all_isOk_iff {declared : List (Declared DiscriminatorEnum)} :
    (∃ discriminators, all declared = .ok discriminators) ↔
      (declared.map (·.name)).Nodup ∧ ∀ enum ∈ declared, Numbered enum := by
  simp only [all_eq_ok_iff, exists_and_left, exists_forall₂_iff, ofDeclared_isOk_iff]

section All

variable {declared : List (Declared DiscriminatorEnum)} {discriminators : List Discriminator}

/-- Taking up enums keeps their names. -/
theorem map_name_of_all (taken : all declared = .ok discriminators) :
    discriminators.map (·.name) = declared.map (·.name) := by
  refine (map_eq_of_forall₂ (all_eq_ok_iff.mp taken).2 ?_).symm
  intro enum discriminator ofEnum
  obtain ⟨width, _, _, _, rfl⟩ := ofDeclared_eq_ok_iff.mp ofEnum
  rfl

theorem nodup_of_all (taken : all declared = .ok discriminators) :
    (discriminators.map (·.name)).Nodup := by
  rw [map_name_of_all taken]
  exact (all_eq_ok_iff.mp taken).1

theorem mem_of_all (taken : all declared = .ok discriminators) {discriminator : Discriminator} :
    discriminator ∈ discriminators ↔ ∃ enum ∈ declared, ofDeclared enum = .ok discriminator := by
  have related := (all_eq_ok_iff.mp taken).2
  constructor
  · exact exists_left_of_forall₂ related
  · rintro ⟨enum, listed, found⟩
    obtain ⟨other, member, again⟩ := exists_right_of_forall₂ related listed
    rw [Except.ok.inj (found.symm.trans again)]
    exact member

end All

/-! ## Selecting a variant -/

/-- A tagged struct selects a variant if it names an enum that is there, and that enum has the
variant. -/
theorem select_eq_ok_iff {discriminators : List Discriminator} {declared : Declared TaggedStruct}
    {variant : String} {selection : Selection} :
    select discriminators declared variant = .ok selection ↔
      ∃ path, declared.content.enum = some path ∧ path ≠ "" ∧ variant ≠ "" ∧
        find? discriminators path = some selection.enum ∧ selection.variant = variant ∧
        selection.enum.valueOf? variant = some selection.value := by
  obtain ⟨enum, chosen, value⟩ := selection
  rw [select]
  cases named : declared.content.enum with
  | none => simp
  | some path =>
      simp only [Option.getD_some, Option.some.injEq, exists_eq_left']
      split
      · simp
      · rename_i nonempty
        cases found : find? discriminators path with
        | none => simp
        | some other =>
            simp only [Option.some.injEq]
            split
            · rename_i missing
              simp [missing]
            · rename_i present
              cases lookup : other.valueOf? variant with
              | none =>
                  simp only [reduceCtorEq, false_iff]
                  rintro ⟨_, _, rfl, _, again⟩
                  simp [lookup] at again
              | some number =>
                  simp only [Except.ok.injEq, Selection.mk.injEq]
                  constructor
                  · rintro ⟨rfl, rfl, rfl⟩
                    exact ⟨nonempty, present, rfl, rfl, lookup⟩
                  · rintro ⟨_, _, rfl, rfl, again⟩
                    exact ⟨rfl, rfl, Option.some.inj (lookup.symm.trans again)⟩

theorem variant_of_select {discriminators : List Discriminator} {declared : Declared TaggedStruct}
    {variant : String} {selection : Selection}
    (selected : select discriminators declared variant = .ok selection) :
    selection.variant = variant := by
  obtain ⟨_, _, _, _, _, same, _⟩ := select_eq_ok_iff.mp selected
  exact same

/-- Enums of different names are found by their names. -/
theorem find?_eq_some_iff {discriminators : List Discriminator} {path : String}
    {discriminator : Discriminator} (distinct : (discriminators.map (·.name)).Nodup) :
    find? discriminators path = some discriminator ↔
      discriminator ∈ discriminators ∧ discriminator.name = lastSegment path := by
  constructor
  · intro found
    exact ⟨List.mem_of_find?_eq_some found, by simpa using List.find?_some found⟩
  · rintro ⟨listed, named⟩
    cases found : find? discriminators path with
    | none =>
        have differs := List.find?_eq_none.mp found discriminator listed
        simp [named] at differs
    | some other =>
        have otherNamed : other.name = lastSegment path := by simpa using List.find?_some found
        have otherListed := List.mem_of_find?_eq_some found
        rw [List.inj_on_of_nodup_map distinct otherListed listed (otherNamed.trans named.symm)]

/-- A tagged struct selects a variant of enums that have been taken up if it names one of them that
has the variant. -/
theorem select_isOk_iff {enums : List (Declared DiscriminatorEnum)}
    {discriminators : List Discriminator} (taken : all enums = .ok discriminators)
    {declared : Declared TaggedStruct} {variant : String} :
    (∃ selection, select discriminators declared variant = .ok selection) ↔
      ∃ path, declared.content.enum = some path ∧ path ≠ "" ∧ variant ≠ "" ∧
        ∃ enum ∈ enums, enum.name = lastSegment path ∧
          variant ∈ enum.content.variants.map (·.name) := by
  have names (enum : Declared DiscriminatorEnum) :
      (declaredValues enum).map Prod.fst = enum.content.variants.map (·.name) := by
    rw [declaredValues, List.map_map]
    rfl
  simp only [select_eq_ok_iff, find?_eq_some_iff (nodup_of_all taken)]
  constructor
  · rintro ⟨⟨other, chosen, value⟩, path, named, nonempty, present, ⟨listed, same⟩, rfl, found⟩
    obtain ⟨enum, member, ofEnum⟩ := (mem_of_all taken).mp listed
    obtain ⟨width, _, _, _, rfl⟩ := ofDeclared_eq_ok_iff.mp ofEnum
    have selected := valueOf?_isSome_iff.mp ⟨value, found⟩
    exact ⟨path, named, nonempty, present, enum, member, same, names enum ▸ selected⟩
  · rintro ⟨path, named, nonempty, present, enum, member, same, selected⟩
    obtain ⟨other, listed, ofEnum⟩ :=
      exists_right_of_forall₂ (all_eq_ok_iff.mp taken).2 member
    obtain ⟨width, _, _, _, shape⟩ := ofDeclared_eq_ok_iff.mp ofEnum
    have selectable : variant ∈ other.values.map Prod.fst := by
      rw [shape, names enum]
      exact selected
    have sameName : other.name = lastSegment path := by
      rw [shape]
      exact same
    obtain ⟨value, found⟩ := valueOf?_isSome_iff.mpr selectable
    exact ⟨⟨_, variant, value⟩, path, named, nonempty, present, ⟨listed, sameName⟩, rfl, found⟩

end ProgramIdl.Discriminator
