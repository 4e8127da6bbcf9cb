import ProgramIdl.Declaration.Scan
import ProgramIdl.Proofs.Pass

/-!
# Names in scanned files

Whatever a source text says, an enum that is found in it has a name, and so have its variants.  The
names come from tokens, which have characters; numbering the variants keeps them.
-/

set_option autoImplicit false

namespace ProgramIdl

open ProgramIdl.Syntax

/-- An enum with a name, whose variants have names. -/
structure Declared.Named (declared : Declared DiscriminatorEnum) : Prop where
  name_ne : declared.name ≠ ""
  variant_ne : ∀ variant ∈ declared.content.variants, variant.name ≠ ""

/-! ## Variants -/

theorem length_variantValuesFrom (next : Int) (explicit : List (Option Int)) :
    (variantValuesFrom next explicit).length = explicit.length := by
  induction explicit generalizing next with
  | nil => rfl
  | cons first rest inductionHypothesis =>
      rw [variantValuesFrom, List.length_cons, List.length_cons, inductionHypothesis]

/-- Numbering variants keeps their names. -/
theorem Variant.map_name_number (variants : List Variant) :
    (Variant.number variants).map (·.name) = variants.map (·.name) := by
  have numbered : (variantValues (variants.map (·.explicit))).length = variants.length := by
    rw [variantValues, length_variantValuesFrom, List.length_map]
  have kept : (Variant.number variants).map (·.name) =
      ((variants.zip (variantValues (variants.map (·.explicit)))).map Prod.fst).map (·.name) := by
    rw [Variant.number, List.map_map, List.map_map]
    rfl
  rw [kept, List.map_fst_zip (Nat.le_of_eq numbered.symm)]

theorem declaredVariants_name_ne (variants : List (Annotated VariantItem)) :
    ∀ variant ∈ declaredVariants variants, variant.name ≠ "" := by
  intro variant declared
  have listed := List.mem_map_of_mem (f := Variant.name) declared
  rw [declaredVariants, Variant.map_name_number, List.map_map, List.mem_map] at listed
  obtain ⟨written, _, same⟩ := listed
  rw [← same]
  exact written.value.name.text_ne

/-! ## Findings -/

/-- A finding that is no enum without names. -/
def Finding.Named : Finding → Prop
  | .declaration (.discriminator declared) => declared.Named
  | _ => True

theorem recordFindings_named (site : Site) (annotations : Annotations) (name : String)
    (body : RecordBody) : ∀ finding ∈ recordFindings site annotations name body, finding.Named := by
  intro finding found
  unfold recordFindings at found
  split at found
  · obtain rfl := List.mem_singleton.mp found
    trivial
  · obtain rfl := List.mem_singleton.mp found
    trivial
  · split at found
    · obtain rfl := List.mem_singleton.mp found
      trivial
    · split at found
      · obtain rfl := List.mem_singleton.mp found
        trivial
      · cases found

theorem enumFindings_named (site : Site) (annotations : Annotations) (name : Name)
    (variants : List (Annotated VariantItem)) :
    ∀ finding ∈ enumFindings site annotations name.text variants, finding.Named := by
  intro finding found
  rw [enumFindings] at found
  split at found
  · obtain rfl := List.mem_singleton.mp found
    exact ⟨name.text_ne, declaredVariants_name_ne variants⟩
  · obtain rfl := List.mem_singleton.mp found
    trivial
  · cases found

theorem macroRulesFindings_named (site : Site) (annotations : Annotations) (name : String)
    (rules : List MacroRule) :
    ∀ finding ∈ macroRulesFindings site annotations name rules, finding.Named := by
  intro finding found
  rw [macroRulesFindings] at found
  split at found
  · split at found
    · obtain rfl := List.mem_singleton.mp found
      trivial
    · obtain rfl := List.mem_singleton.mp found
      trivial
  · cases found

theorem bodyFindings_named (path : String) (body : List Fragment) :
    ∀ finding ∈ bodyFindings path body, finding.Named := by
  intro finding found
  rcases List.mem_append.mp found with called | derived
  · obtain ⟨call, _, rfl⟩ := List.mem_map.mp called
    trivial
  · obtain ⟨call, _, rfl⟩ := List.mem_map.mp derived
    trivial

theorem functionFindings_named (path name : String) (body : List Fragment) :
    ∀ finding ∈ functionFindings path name body, finding.Named := by
  intro finding found
  rcases List.mem_append.mp found with inside | chosen
  · exact bodyFindings_named path body finding inside
  · split at chosen
    · obtain ⟨dispatch, _, rfl⟩ := List.mem_map.mp chosen
      trivial
    · cases chosen

theorem implementationFindings_named (site : Site) (ofTrait target : String)
    (bodies : List (List Fragment)) :
    ∀ finding ∈ implementationFindings site ofTrait target bodies, finding.Named := by
  intro finding found
  rcases List.mem_append.mp found with checks | inside
  · split at checks
    · obtain rfl := List.mem_singleton.mp checks
      trivial
    · cases checks
  · obtain ⟨body, _, listed⟩ := List.mem_flatMap.mp inside
    exact bodyFindings_named site.path body finding listed

mutual

theorem itemFindings_named (path : String) (depth : Nat) (annotations : Annotations) (line : Nat) :
    (item : Item) → ∀ finding ∈ itemFindings path depth annotations line item, finding.Named
  | .record name body => recordFindings_named ⟨path, line⟩ annotations name.text body
  | .enumeration name variants => enumFindings_named ⟨path, line⟩ annotations name variants
  | .constant name type value => by
      intro finding found
      obtain rfl := List.mem_singleton.mp found
      trivial
  | .macroCall macroPath arguments => by
      intro finding found
      rw [itemFindings, macroCallFindings] at found
      split at found
      · obtain rfl := List.mem_singleton.mp found
        trivial
      · cases found
  | .macroRules name rules => macroRulesFindings_named ⟨path, line⟩ annotations name.text rules
  | .module items => findings_named path (depth + 1) items
  | .function name body => functionFindings_named path name.text body
  | .implementation ofTrait target bodies =>
      implementationFindings_named ⟨path, line⟩ ofTrait target bodies
  | .other => by
      intro finding found
      cases found

theorem annotatedFindings_named (path : String) (depth : Nat) :
    (item : Annotated Item) → ∀ finding ∈ annotatedFindings path depth item, finding.Named
  | ⟨annotations, line, item⟩ => itemFindings_named path depth annotations line item

/-- The enums found among items have names. -/
theorem findings_named (path : String) (depth : Nat) :
    (items : List (Annotated Item)) → ∀ finding ∈ findings path depth items, finding.Named
  | [] => by
      intro finding found
      cases found
  | item :: rest => by
      intro finding found
      rcases List.mem_append.mp found with here | later
      · exact annotatedFindings_named path depth item finding here
      · exact findings_named path depth rest finding later

end

/-! ## Files -/

/-- What is gathered has been found. -/
theorem mem_of_gather {found : List Finding} {declarations : List Declaration}
    (gathered : (gather found).outcome = .ok declarations) :
    ∀ declaration ∈ declarations, Finding.declaration declaration ∈ found := by
  induction found generalizing declarations with
  | nil =>
      obtain rfl := Except.ok.inj gathered
      intro declaration listed
      cases listed
  | cons finding rest inductionHypothesis =>
      cases finding with
      | declaration first =>
          rw [gather, Reporting.outcome_bind, bind_eq_ok_iff] at gathered
          obtain ⟨later, gatheredLater, same⟩ := gathered
          obtain rfl := Except.ok.inj same
          intro declaration listed
          rcases List.mem_cons.mp listed with rfl | listed
          · exact List.mem_cons_self
          · exact List.mem_cons_of_mem _ (inductionHypothesis gatheredLater declaration listed)
      | notice notice =>
          rw [gather, Reporting.outcome_bind, bind_eq_ok_iff] at gathered
          obtain ⟨_, _, gatheredLater⟩ := gathered
          intro declaration listed
          exact List.mem_cons_of_mem _ (inductionHypothesis gatheredLater declaration listed)
      | failure failure => cases gathered

/-- A file that has been read from some text. -/
def ScannedFile.Scanned (file : ScannedFile) : Prop :=
  ∃ path text, (scan path text).outcome = .ok file

/-- A file has been read if its declarations are computed from the items of some text. -/
theorem ScannedFile.scanned_of_any {path text : String} {declarations : List Declaration}
    (computed : (Syntax.itemsOf? text).any fun items =>
      decide ((gather (findings path 0 items)).outcome = .ok declarations)) :
    (ScannedFile.mk path declarations).Scanned := by
  obtain ⟨items, parsed, same⟩ := (Option.any_eq_true _ _).mp computed
  have gathered := of_decide_eq_true same
  refine ⟨path, text, ?_⟩
  rw [scan, parsed]
  simp only [Reporting.outcome_bind, gathered]
  rfl

/-- The enums of discriminators in a file that has been read have names. -/
theorem ScannedFile.Scanned.named {file : ScannedFile} (scanned : file.Scanned)
    {declared : Declared DiscriminatorEnum}
    (listed : Declaration.discriminator declared ∈ file.declarations) : declared.Named := by
  obtain ⟨path, text, outcome⟩ := scanned
  rw [scan] at outcome
  split at outcome
  · cases outcome
  · rename_i items _
    rw [Reporting.outcome_bind, bind_eq_ok_iff] at outcome
    obtain ⟨declarations, gathered, outcome⟩ := outcome
    obtain rfl := Except.ok.inj outcome
    exact findings_named path 0 items _ (mem_of_gather gathered _ listed)

end ProgramIdl
