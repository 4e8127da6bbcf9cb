import ProgramIdl.Proofs.Program.Keys
import ProgramIdl.Proofs.Program.Relaid

/-!
# Widths of discriminators

How many bytes the discriminators of an enum take follows from the attributes in front of it.  The
type that its `discriminator` attribute gives decides; if it gives none, the first integer type that
its `repr` attributes list, in order; if they list none either, the discriminators take one byte.  An
assembly reads the first `repr` attribute only, so that this holds exactly if it is decided by then
(`width_of_assembleSources_iff`).
-/

set_option autoImplicit false

namespace ProgramIdl

open ProgramIdl.Syntax
open ProgramIdl.Text

/-! ## What attributes declare -/

/-- The items that an attribute lists. -/
def Attribute.listed (attr : Attribute) : List String :=
  splitTopLevel attr.arguments

namespace Annotations

/-- The `repr` attributes, in order. -/
def reprs (annotations : Annotations) : List Attribute :=
  annotations.attributes.filter fun attr => attr.name = "repr"

/-- What the `repr` attributes list, in order. -/
def representations (annotations : Annotations) : List String :=
  annotations.reprs.flatMap Attribute.listed

/-- The type that the `discriminator` attribute gives. -/
def primitive? (annotations : Annotations) : Option String :=
  (annotations.find? "discriminator").bind (·.argument? "primitive")

/-- The discriminators of an enum with some annotations are to take so many bytes. -/
inductive Declares (annotations : Annotations) : Nat → Prop where
  | primitive {type : String} {width : Nat} (given : annotations.primitive? = some type)
      (known : Discriminator.primitiveWidth? type = some width) : Declares annotations width
  | representation {before after : List String} {type : String} {width : Nat}
      (ungiven : annotations.primitive? = none)
      (listed : annotations.representations = before ++ type :: after)
      (known : Discriminator.primitiveWidth? type = some width)
      (first : ∀ other ∈ before, Discriminator.primitiveWidth? other = none) :
      Declares annotations width
  | unlisted (ungiven : annotations.primitive? = none)
      (none : ∀ type ∈ annotations.representations, Discriminator.primitiveWidth? type = none) :
      Declares annotations 1

/-- The width is given, or the first `repr` attribute lists an integer type, or one byte is declared
anyway. -/
def FirstDecides (annotations : Annotations) : Prop :=
  annotations.primitive? ≠ none ∨
    (∃ attr, annotations.reprs.head? = some attr ∧
      ∃ type ∈ attr.listed, Discriminator.primitiveWidth? type ≠ none) ∨
    annotations.Declares 1

variable {annotations : Annotations} {type : String} {width : Nat}

theorem declares_iff_of_primitive (given : annotations.primitive? = some type) :
    annotations.Declares width ↔ Discriminator.primitiveWidth? type = some width := by
  constructor
  · intro declares
    cases declares with
    | primitive givenToo known =>
        obtain rfl := Option.some.inj (given.symm.trans givenToo)
        exact known
    | representation ungiven => cases given.symm.trans ungiven
    | unlisted ungiven => cases given.symm.trans ungiven
  · exact .primitive given

theorem declares_iff_of_open (ungiven : annotations.primitive? = none) :
    annotations.Declares width ↔
      (annotations.representations.findSome? Discriminator.primitiveWidth?).getD 1 = width := by
  constructor
  · intro declares
    cases declares with
    | primitive given => cases given.symm.trans ungiven
    | representation _ listed known first =>
        have found := List.findSome?_eq_some_iff.mpr ⟨_, _, _, listed, known, first⟩
        rw [found, Option.getD_some]
    | unlisted _ none => rw [List.findSome?_eq_none_iff.mpr none, Option.getD_none]
  · rintro rfl
    cases found : annotations.representations.findSome? Discriminator.primitiveWidth? with
    | none => exact .unlisted ungiven (List.findSome?_eq_none_iff.mp found)
    | some width =>
        obtain ⟨_, _, _, listed, known, first⟩ := List.findSome?_eq_some_iff.mp found
        exact .representation ungiven listed known first

/-- The `repr` attribute that is read is the first of them. -/
theorem find?_repr : annotations.find? "repr" = annotations.reprs.head? :=
  List.head?_filter.symm

end Annotations

/-! ## Enums in a file -/

/-- The enum that an item is, by name. -/
def Syntax.Item.enum? : Item → Option String
  | .enumeration name _ => some name.text
  | _ => none

/-- The enums among some items, those in modules included, with the annotations in front of them. -/
def Syntax.enums (items : List (Annotated Item)) : List (Annotations × String) :=
  (leaves 0 items).filterMap fun leaf =>
    leaf.2.value.enum?.map fun name => (leaf.2.annotations, name)

/-- An enum with a `discriminator` attribute declares the type that it gives and the arguments of its
first `repr` attribute. -/
theorem enumFindings_of_marked {annotations : Annotations}
    (marked : annotations.find? "discriminator" ≠ none) (site : Site) (name : String)
    (variants : List (Annotated VariantItem)) :
    ∃ declared : Declared DiscriminatorEnum,
      enumFindings site annotations name variants = [.declaration (.discriminator declared)] ∧
        declared.name = name ∧ declared.content.primitive = annotations.primitive? ∧
          declared.content.repr = annotations.reprs.head?.map (·.arguments) := by
  obtain ⟨attr, found⟩ := Option.ne_none_iff_exists'.mp marked
  rw [enumFindings, Annotations.primitive?, found, ← Annotations.find?_repr]
  exact ⟨_, rfl, rfl, rfl, rfl⟩

theorem ScannedFile.ReadFrom.exists_discriminator {file : ScannedFile} {items : List (Annotated Item)}
    (read : file.ReadFrom items) {annotations : Annotations} {name : String}
    (stands : (annotations, name) ∈ Syntax.enums items)
    (marked : annotations.find? "discriminator" ≠ none) :
    ∃ declared : Declared DiscriminatorEnum, .discriminator declared ∈ file.declarations ∧
      declared.name = name ∧ declared.content.primitive = annotations.primitive? ∧
        declared.content.repr = annotations.reprs.head?.map (·.arguments) := by
  obtain ⟨⟨depth, ⟨notes, line, item⟩⟩, leaf, same⟩ := List.mem_filterMap.mp stands
  cases item with
  | enumeration written variants =>
      obtain ⟨rfl, rfl⟩ := Prod.mk.inj (Option.some.inj same)
      obtain ⟨declared, found, facts⟩ :=
        enumFindings_of_marked marked ⟨file.path, line⟩ written.text variants
      refine ⟨declared, read.mem_declarations_iff.mpr ⟨_, leaf, ?_⟩, facts⟩
      rw [annotatedFindings, itemFindings, found]
      exact List.mem_singleton.mpr rfl
  | _ => cases same

theorem mem_discriminators_iff {files : List ScannedFile} {declared : Declared DiscriminatorEnum} :
    declared ∈ (Declarations.ofFiles files).discriminators ↔
      ∃ file ∈ files, .discriminator declared ∈ file.declarations := by
  refine mem_ofFiles_iff fun declaration value => ?_
  cases declaration <;> simp [Declaration.discriminator?]

/-! ## Widths of declared enums -/

namespace Discriminator

variable {annotations : Annotations} {declared : Declared DiscriminatorEnum} {width : Nat}

/-- If the first `repr` attribute lists an integer type, all of them together list the same first. -/
theorem findSome?_representations {attr : Attribute} (first : annotations.reprs.head? = some attr)
    {type : String} (listed : type ∈ attr.listed) (known : primitiveWidth? type ≠ none) :
    annotations.representations.findSome? primitiveWidth? =
      attr.listed.findSome? primitiveWidth? := by
  obtain ⟨later, split⟩ : ∃ later, annotations.reprs = attr :: later :=
    ⟨_, List.eq_cons_of_mem_head? first⟩
  have some : (attr.listed.findSome? primitiveWidth?).isSome := by
    rw [List.findSome?_isSome_iff]
    exact ⟨type, listed, Option.isSome_iff_ne_none.mpr known⟩
  rw [Annotations.representations, split, List.flatMap_cons, List.findSome?_append,
    Option.or_of_isSome some]

/-- If the first `repr` attribute lists no integer type, the width is one byte. -/
theorem declaredWidth_of_head? (ungiven : declared.content.primitive = none)
    (repr : declared.content.repr = annotations.reprs.head?.map (·.arguments)) :
    declaredWidth declared = .ok ((annotations.reprs.head?.bind fun attr =>
      attr.listed.findSome? primitiveWidth?).getD 1) := by
  rw [declaredWidth, ungiven, repr]
  cases annotations.reprs.head? with
  | none => rfl
  | some attr => rfl

/-- The width of an enum is the declared one exactly if the first `repr` attribute decides, and one
byte otherwise. -/
theorem declares_iff_of_declaredWidth
    (primitive : declared.content.primitive = annotations.primitive?)
    (repr : declared.content.repr = annotations.reprs.head?.map (·.arguments))
    (found : declaredWidth declared = .ok width) :
    (annotations.Declares width ↔ annotations.FirstDecides) ∧
      (¬ annotations.FirstDecides → width = 1) := by
  cases given : annotations.primitive? with
  | some type =>
      have decides : annotations.FirstDecides := .inl (given ▸ Option.some_ne_none type)
      rw [declaredWidth, primitive, given] at found
      refine ⟨iff_of_true ?_ decides, (absurd decides ·)⟩
      rw [Annotations.declares_iff_of_primitive given]
      dsimp only at found
      split at found
      · rename_i known
        rw [known, Except.ok.inj found]
      · cases found
  | none =>
      rw [declaredWidth_of_head? (primitive.trans given) repr] at found
      obtain rfl := Except.ok.inj found
      by_cases listed : ∃ attr, annotations.reprs.head? = some attr ∧
          ∃ type ∈ attr.listed, primitiveWidth? type ≠ none
      · have decides : annotations.FirstDecides := .inr (.inl listed)
        obtain ⟨attr, first, type, member, known⟩ := listed
        refine ⟨iff_of_true ?_ decides, (absurd decides ·)⟩
        rw [Annotations.declares_iff_of_open given, findSome?_representations first member known,
          first, Option.bind_some]
      · have none : (annotations.reprs.head?.bind fun attr =>
            attr.listed.findSome? primitiveWidth?) = none := by
          rw [Option.bind_eq_none_iff]
          intro attr first
          rw [List.findSome?_eq_none_iff]
          intro type member
          by_contra known
          exact listed ⟨attr, first, type, member, known⟩
        rw [none, Option.getD_none]
        have only : annotations.FirstDecides ↔ annotations.Declares 1 := by
          simp only [Annotations.FirstDecides, given, ne_eq, not_true_eq_false, listed, false_or]
        exact ⟨only.symm, fun _ => rfl⟩

end Discriminator

/-! ## Widths in a program -/

theorem mem_sources_of_assembleSources {known : KnownAddresses} {name : String}
    {sources : List (String × String)} {program : Program}
    (assembled : (assembleSources known name sources).outcome = .ok program) :
    ∃ files, (∀ source ∈ sources, ∀ items, itemsOf? source.2 = some items →
        ∃ file ∈ files, file.ReadFrom items) ∧
      (assemble known name files).outcome = .ok program := by
  rw [assembleSources, Reporting.outcome_bind, bind_eq_ok_iff] at assembled
  obtain ⟨files, scanned, together⟩ := assembled
  refine ⟨files, fun source listed items parsed => ?_, together⟩
  obtain ⟨file, member, outcome⟩ :=
    exists_right_of_forall₂ (Reporting.outcome_mapM_eq_ok_iff.mp scanned) listed
  exact ⟨file, member, source.1, source.2, parsed, outcome⟩

/-- Every enum with a `discriminator` attribute becomes the one enum of the program that has its name.
Its width is the one that its annotations declare exactly if the first `repr` attribute decides it. -/
theorem width_of_assembleSources_iff {known : KnownAddresses} {name : String}
    {sources : List (String × String)} {program : Program}
    (assembled : (assembleSources known name sources).outcome = .ok program)
    {source : String × String} (listed : source ∈ sources) {items : List (Annotated Item)}
    (parsed : itemsOf? source.2 = some items) {annotations : Annotations} {enum : String}
    (stands : (annotations, enum) ∈ Syntax.enums items)
    (marked : annotations.find? "discriminator" ≠ none) :
    ∃ discriminator : Discriminator,
      (∀ other, other ∈ program.discriminators ∧ other.name = enum ↔ other = discriminator) ∧
        (annotations.Declares discriminator.width ↔ annotations.FirstDecides) ∧
          (¬ annotations.FirstDecides → discriminator.width = 1) := by
  obtain ⟨files, reads, together⟩ := mem_sources_of_assembleSources assembled
  obtain ⟨_, layouts, collects⟩ := assembleDeclarations_eq_ok_iff.mp together
  obtain ⟨file, inFiles, read⟩ := reads source listed items parsed
  obtain ⟨declared, inFile, rfl, primitive, repr⟩ := read.exists_discriminator stands marked
  have declaredToo := mem_discriminators_iff.mpr ⟨file, inFiles, inFile⟩
  obtain ⟨distinct, taken⟩ := Discriminator.all_eq_ok_iff.mp collects.discriminators
  obtain ⟨discriminator, member, ofEnum⟩ := exists_right_of_forall₂ taken declaredToo
  obtain ⟨width, found, _, _, shape⟩ := Discriminator.ofDeclared_eq_ok_iff.mp ofEnum
  have named : discriminator.name = declared.name := by rw [shape]
  refine ⟨discriminator, fun other => ⟨?_, ?_⟩, ?_⟩
  · rintro ⟨memberToo, same⟩
    exact List.inj_on_of_nodup_map (Discriminator.nodup_of_all collects.discriminators) memberToo
      member (same.trans named.symm)
  · rintro rfl
    exact ⟨member, named⟩
  · rw [shape]
    exact Discriminator.declares_iff_of_declaredWidth primitive repr found

/-! ### One attribute and two -/

/-- The annotations of an enum with two `repr` attributes. -/
def apartNotes : Annotations :=
  ["#[discriminator]", "#[repr(C)]", "#[repr(u16)]"]

/-- An enum with some `repr` attributes in front of it. -/
def kindText (reprs : String) : String :=
  "\n".intercalate ["#[discriminator]", reprs, "enum Kind \x7b A = 1 \x7d"]

/-- The enum is read with some annotations, and its discriminators take so many bytes. -/
structure KindTakes (reprs : String) (annotations : Annotations) (width : Nat) : Prop where
  read : ∃ items, itemsOf? (kindText reprs) = some items ∧
    decide ((annotations, "Kind") ∈ Syntax.enums items) = true
  assembled : ∃ program,
    (assembleSources .standard "kinds" [("src/lib.rs", kindText reprs)]).outcome = .ok program ∧
      decide (program.discriminators.map (fun taken => (taken.name, taken.width)) =
        [("Kind", width)]) = true

theorem kindTakes_grouped :
    KindTakes "#[repr(C, u16)]" ["#[discriminator]", "#[repr(C, u16)]"] 2 := by
  constructor
  · refine (Option.any_eq_true _ _).mp ?_
    rw [kindText, itemsOf?_lines]
    decide +kernel
  · refine exists_ok_of_any ?_
    rw [assembleSources_single, scan, kindText, itemsOf?_lines]
    decide +kernel

theorem kindTakes_apart : KindTakes "#[repr(C)] #[repr(u16)]" apartNotes 1 := by
  constructor
  · refine (Option.any_eq_true _ _).mp ?_
    rw [kindText, itemsOf?_lines]
    decide +kernel
  · refine exists_ok_of_any ?_
    rw [assembleSources_single, scan, kindText, itemsOf?_lines]
    decide +kernel

/-- An integer type behind another representation is found in the same attribute. -/
theorem width_of_assembleSources_grouped : ∃ program discriminator,
    (assembleSources .standard "kinds" [("src/lib.rs", kindText "#[repr(C, u16)]")]).outcome =
        .ok program ∧
      discriminator ∈ program.discriminators ∧
        Annotations.Declares ["#[discriminator]", "#[repr(C, u16)]"] discriminator.width := by
  obtain ⟨items, parsed, stands⟩ := kindTakes_grouped.read
  obtain ⟨program, assembled, _⟩ := kindTakes_grouped.assembled
  obtain ⟨discriminator, only, declares, _⟩ := width_of_assembleSources_iff assembled
    List.mem_cons_self parsed (of_decide_eq_true stands) (by decide +kernel)
  refine ⟨program, discriminator, assembled, ((only discriminator).mpr rfl).1, declares.mpr ?_⟩
  exact .inr (.inl ⟨_, rfl, "u16", by decide +kernel, by decide⟩)

/-- An integer type in a second attribute is passed over: the discriminators take one byte. -/
theorem not_declares_apart : ∃ program discriminator,
    (assembleSources .standard "kinds"
        [("src/lib.rs", kindText "#[repr(C)] #[repr(u16)]")]).outcome = .ok program ∧
      program.discriminators = [discriminator] ∧ discriminator.width = 1 ∧
        (∃ items, itemsOf? (kindText "#[repr(C)] #[repr(u16)]") = some items ∧
          (apartNotes, "Kind") ∈ Syntax.enums items) ∧
        apartNotes.Declares 2 ∧ ¬ apartNotes.Declares 1 := by
  obtain ⟨items, parsed, stands⟩ := kindTakes_apart.read
  obtain ⟨program, assembled, taken⟩ := kindTakes_apart.assembled
  obtain ⟨discriminator, single, same⟩ := List.map_eq_singleton_iff.mp (of_decide_eq_true taken)
  have ungiven : apartNotes.primitive? = none := by decide +kernel
  refine ⟨program, discriminator, assembled, single, congrArg Prod.snd same,
    ⟨items, parsed, of_decide_eq_true stands⟩, ?_, ?_⟩
  · exact (Annotations.declares_iff_of_open ungiven).mpr (by decide +kernel)
  · intro declares
    have other := (Annotations.declares_iff_of_open ungiven).mp declares
    revert other
    decide +kernel

end ProgramIdl
