import ProgramIdl.Proofs.Annotations.Arguments
import ProgramIdl.Proofs.Declaration.Leaves
import ProgramIdl.Proofs.Declaration.Reading
import ProgramIdl.Proofs.Syntax.Filling
import ProgramIdl.Proofs.Text.Compact
import ProgramIdl.Proofs.Text.QualifiedName

/-!
# What is declared under open names

When names are filled into a text, what it declares has the names filled in.  This is checked item by
item (`findings_fill`): an item that leaves no name open is read as before; other items may leave open
the name of an enum, the enum of a discriminator, or arguments that nobody looks at.
-/

set_option autoImplicit false

namespace ProgramIdl

open ProgramIdl.Text
open ProgramIdl.Syntax
open Filling

variable (ρ : Filling)

/-! ## Declarations -/

/-- A declaration with the names filled in that it may leave open. -/
def Declaration.fill : Declaration → Declaration
  | .discriminator declared => .discriminator
      { declared with name := ρ.string declared.name, docs := declared.docs.map ρ.string }
  | .tagged tag declared => .tagged tag
      { declared with
        content := { declared.content with enum := declared.content.enum.map ρ.string } }
  | .error declared => .error
      { declared with name := ρ.string declared.name, docs := declared.docs.map ρ.string }
  | .dispatch declared => .dispatch
      { declared with
        content := { declared.content with enum := ρ.string declared.content.enum } }
  | declared => declared

/-- What is found, with the names filled in. -/
def Finding.fill : Finding → Finding
  | .declaration declared => .declaration (declared.fill ρ)
  | other => other

/-- Whether a declaration leaves no name open that could be filled in. -/
def Declaration.isWhole : Declaration → Bool
  | .discriminator declared | .error declared =>
      isAscii declared.name && declared.docs.all isAscii
  | .tagged _ declared => declared.content.enum.all isAscii
  | .dispatch declared => isAscii declared.content.enum
  | _ => true

def Finding.isWhole : Finding → Bool
  | .declaration declared => declared.isWhole
  | _ => true

theorem map_string_of_isAscii {texts : List String}
    (ascii : texts.all isAscii = true) : texts.map ρ.string = texts := by
  rw [List.all_eq_true] at ascii
  rw [List.map_congr_left fun text listed => ρ.string_of_isAscii (ascii text listed), List.map_id']

theorem Finding.fill_of_isWhole {finding : Finding} (whole : finding.isWhole = true) :
    finding.fill ρ = finding := by
  cases finding with
  | declaration declared =>
      cases declared with
      | discriminator declared | error declared =>
          obtain ⟨name, docs⟩ := Bool.and_eq_true_iff.mp whole
          simp only [Finding.fill, Declaration.fill, ρ.string_of_isAscii name, map_string_of_isAscii ρ docs]
      | tagged tag declared =>
          obtain ⟨name, site, docs, enum, variant, fields⟩ := declared
          cases enum with
          | none => rfl
          | some enum =>
              have named : isAscii enum = true := whole
              simp only [Finding.fill, Declaration.fill, Option.map_some, ρ.string_of_isAscii named]
      | dispatch declared =>
          have named : isAscii declared.content.enum = true := whole
          simp only [Finding.fill, Declaration.fill, ρ.string_of_isAscii named]
      | _ => rfl
  | notice | failure => rfl

/-! ## Parts of items that leave no name open -/

namespace Syntax

def Callee.isWhole : Callee → Bool
  | .method receiver name => isAscii receiver && isAscii name
  | .path text => isAscii text

def Fragment.isWhole : Fragment → Bool
  | .binding name value _ => isAscii name && isAscii value
  | .macroCall path arguments _ _ => isAscii path && isAscii arguments
  | .call callee arguments _ _ => callee.isWhole && arguments.all isAscii
  | .arm pattern value _ => isAscii pattern && isAscii value

def FieldItem.isWhole (field : Annotated FieldItem) : Bool :=
  field.annotations.all isAscii && isAscii field.value.name.text && isAscii field.value.type

def VariantItem.isWhole (variant : Annotated VariantItem) : Bool :=
  variant.annotations.all isAscii && isAscii variant.value.name.text && variant.value.value.all isAscii

def RecordBody.isWhole : RecordBody → Bool
  | .named fields => fields.all FieldItem.isWhole
  | _ => true

def MacroRule.isWhole (rule : MacroRule) : Bool :=
  isAscii rule.matcher && isAscii rule.body

section Whole

variable {ρ} {places : Places} {kind : TextKind}

theorem text_of_whole {text text' : String} (alike : (ρ.relations places).text kind text text')
    (known : isAscii text = true) : places.reading.text kind text text' := by
  have filled : text' = ρ.string text := alike
  rw [filled, ρ.string_of_isAscii known]
  exact TextKind.Same.refl kind text

theorem name_of_whole {name name' : String} (alike : (ρ.relations places).name name name')
    (known : isAscii name = true) : name = name' := by
  have filled : name' = ρ.string name := alike
  exact (filled.trans (ρ.string_of_isAscii known)).symm

/-- Related values are related otherwise if the first ones satisfy a condition. -/
theorem forall₂_of_all {α β : Type} {related other : α → β → Prop} {condition : α → Bool}
    {values : List α} {values' : List β} (alike : List.Forall₂ related values values')
    (all : values.all condition = true)
    (each : ∀ value value', related value value' → condition value = true → other value value') :
    List.Forall₂ other values values' := by
  induction alike with
  | nil => exact .nil
  | cons first _ inductionHypothesis =>
      rw [List.all_cons, Bool.and_eq_true] at all
      exact .cons (each _ _ first all.1) (inductionHypothesis all.2)

theorem callee_of_whole {callee callee' : Callee}
    (alike : CalleeAlike (ρ.relations places) callee callee') (known : callee.isWhole = true) :
    CalleeAlike places.reading callee callee' := by
  cases alike with
  | method receivers names =>
      obtain ⟨receiver, name⟩ := Bool.and_eq_true_iff.mp known
      exact .method (text_of_whole receivers receiver) (name_of_whole names name)
  | path texts => exact .path (text_of_whole texts known)

theorem fragment_of_whole {fragment fragment' : Fragment}
    (alike : FragmentAlike (ρ.relations places) fragment fragment')
    (known : fragment.isWhole = true) : FragmentAlike places.reading fragment fragment' := by
  cases alike with
  | binding names values stops =>
      obtain ⟨name, value⟩ := Bool.and_eq_true_iff.mp known
      exact .binding (name_of_whole names name) (text_of_whole values value) stops
  | macroCall paths texts delimiters starts =>
      obtain ⟨path, arguments⟩ := Bool.and_eq_true_iff.mp known
      exact .macroCall (text_of_whole paths path) (text_of_whole texts arguments) delimiters starts
  | call callees texts starts =>
      obtain ⟨callee, arguments⟩ := Bool.and_eq_true_iff.mp known
      exact .call (callee_of_whole callees callee)
        (forall₂_of_all texts arguments fun _ _ => text_of_whole) starts
  | arm patterns values =>
      obtain ⟨pattern, value⟩ := Bool.and_eq_true_iff.mp known
      exact .arm (text_of_whole patterns pattern) (text_of_whole values value)

/-- The names are filled into each note. -/
theorem notes_filled {notes notes' : Annotations} (alike : NotesAlike (ρ.relations places) notes notes') :
    notes' = notes.map ρ.string ∧
      ∀ note ∈ notes, note.toList.head? = some '/' ∨ note.toList.head? = some '#' := by
  induction alike with
  | nil => exact ⟨rfl, nofun⟩
  | comments alike => exact ⟨alike.1, fun note listed => .inl (alike.2 note listed)⟩
  | spelled texts marked _ =>
      exact ⟨congrArg (fun text => [text]) texts, List.forall_mem_singleton.mpr (.inr marked)⟩
  | append _ _ front back =>
      refine ⟨?_, List.forall_mem_append.mpr ⟨front.2, back.2⟩⟩
      rw [List.map_append, front.1, back.1]

theorem notes_of_whole {notes notes' : Annotations}
    (alike : NotesAlike (ρ.relations places) notes notes') (known : notes.all isAscii = true) :
    NotesAlike places.reading notes notes' := by
  rw [(notes_filled alike).1, map_string_of_isAscii ρ known]
  exact .comments ⟨rfl, rfl⟩

theorem body_of_whole {body body' : RecordBody} (alike : BodyAlike (ρ.relations places) body body')
    (known : body.isWhole = true) : BodyAlike places.reading body body' := by
  cases alike with
  | named fields =>
      refine .named (forall₂_of_all fields known fun field field' alike known => ?_)
      rw [FieldItem.isWhole, Bool.and_eq_true, Bool.and_eq_true] at known
      exact ⟨notes_of_whole alike.notes known.1.1, name_of_whole alike.values.names known.1.2,
        text_of_whole alike.values.types known.2⟩
  | tuple => exact .tuple
  | unit => exact .unit

theorem variants_of_whole {variants variants' : List (Annotated VariantItem)}
    (alike : List.Forall₂ (AnnotatedAlike (ρ.relations places) (VariantAlike (ρ.relations places)))
      variants variants') (known : variants.all VariantItem.isWhole = true) :
    List.Forall₂ (AnnotatedAlike places.reading (VariantAlike places.reading)) variants variants' := by
  refine forall₂_of_all alike known fun variant variant' alike known => ?_
  rw [VariantItem.isWhole, Bool.and_eq_true, Bool.and_eq_true] at known
  refine ⟨notes_of_whole alike.notes known.1.1, name_of_whole alike.values.names known.1.2, ?_⟩
  have values := alike.values.values
  generalize variant.value.value = value at values known
  generalize variant'.value.value = value' at values
  cases values with
  | none => exact .none
  | some texts => exact .some (text_of_whole texts known.2)

theorem rules_of_whole {rules rules' : List MacroRule}
    (alike : List.Forall₂ (RuleAlike (ρ.relations places)) rules rules')
    (known : rules.all MacroRule.isWhole = true) :
    List.Forall₂ (RuleAlike places.reading) rules rules' := by
  refine forall₂_of_all alike known fun rule rule' alike known => ?_
  obtain ⟨matcher, body⟩ := Bool.and_eq_true_iff.mp known
  exact ⟨text_of_whole alike.matchers matcher, text_of_whole alike.bodies body⟩

end Whole

/-! ## Bodies -/

/-- Whether a fragment may declare something, other than a choice of accounts. -/
def Fragment.counts : Fragment → Bool
  | .call (.method _ name) _ _ _ =>
      decide (name ∈ pdaFunctions) || "assert_".toList.isPrefixOf name.toList
  | .call (.path text) _ _ _ => decide (typeName text ∈ pdaFunctions)
  | .arm .. => false
  | _ => true

/-- Whether a fragment leaves names open only where nobody looks at them. -/
def Fragment.isSettled (fragment : Fragment) : Bool :=
  match fragment with
  | .call (.method _ name) _ _ _ => isAscii name && (!fragment.counts || fragment.isWhole)
  | .call (.path text) _ _ _ => isAscii text && (!fragment.counts || fragment.isWhole)
  | .arm .. => true
  | _ => fragment.isWhole

end Syntax

section Bodies

variable (body : List Fragment)

theorem filterMap_counts {α : Type} {select : Fragment → Option α}
    (none_ : ∀ fragment : Fragment, fragment.counts = false → select fragment = none) :
    (body.filter Fragment.counts).filterMap select = body.filterMap select := by
  rw [List.filterMap_filter]
  apply List.filterMap_congr
  intro fragment _
  cases counts : fragment.counts with
  | true => rfl
  | false => exact (none_ fragment counts).symm

theorem bindings_counts : bindings (body.filter Fragment.counts) = bindings body := by
  apply filterMap_counts
  intro fragment idle
  cases fragment with
  | binding | macroCall => cases idle
  | call | arm => rfl

theorem seedCalls_counts (path : String) :
    seedCalls path (body.filter Fragment.counts) = seedCalls path body := by
  rw [seedCalls, bindings_counts, seedCalls]
  apply filterMap_counts
  intro fragment idle
  cases fragment with
  | binding | macroCall => cases idle
  | call | arm => rfl

theorem pdaCalls_counts (path : String) :
    pdaCalls path (body.filter Fragment.counts) = pdaCalls path body := by
  rw [pdaCalls, bindings_counts, pdaCalls]
  apply filterMap_counts
  intro fragment idle
  cases fragment with
  | call callee arguments start line =>
      have other : calleeName callee ∉ pdaFunctions := by
        cases callee with
        | method receiver name =>
            rw [Fragment.counts, Bool.or_eq_false_iff, decide_eq_false_iff_not] at idle
            exact idle.1
        | path text =>
            rw [Fragment.counts, decide_eq_false_iff_not] at idle
            exact idle
      cases arguments with
      | nil => rfl
      | cons argument arguments => exact if_neg other
  | binding | macroCall | arm => rfl

theorem assertions_counts : assertions (body.filter Fragment.counts) = assertions body := by
  rw [assertions, bindings_counts, assertions]
  apply filterMap_counts
  intro fragment idle
  cases fragment with
  | call callee arguments start line =>
      cases callee with
      | method receiver name =>
          rw [Fragment.counts, Bool.or_eq_false_iff] at idle
          simp only [idle.2, Bool.false_eq_true, if_false]
      | path text => rfl
  | binding | macroCall | arm => rfl

end Bodies

section Settled

variable {ρ} {places : Places}

theorem counts_eq {fragment fragment' : Fragment}
    (alike : FragmentAlike (ρ.relations places) fragment fragment')
    (settled : fragment.isSettled = true) : fragment.counts = fragment'.counts := by
  cases alike with
  | call callees texts starts =>
      cases callees with
      | method receivers names =>
          have same := name_of_whole names (Bool.and_eq_true_iff.mp settled).1
          rw [Fragment.counts, Fragment.counts, same]
      | path texts =>
          have known := (Bool.and_eq_true_iff.mp settled).1
          have same : places.reading.text .typePath _ _ := text_of_whole texts known
          have sameType : typeName _ = typeName _ := same
          rw [Fragment.counts, Fragment.counts, sameType]
  | binding | macroCall | arm => rfl

theorem settled_of_counts {fragment : Fragment} (settled : fragment.isSettled = true)
    (counts : fragment.counts = true) : fragment.isWhole = true := by
  cases fragment with
  | call callee arguments start line =>
      cases callee with
      | method receiver name =>
          have known := (Bool.and_eq_true_iff.mp settled).2
          rwa [counts, Bool.not_true, Bool.false_or] at known
      | path text =>
          have known := (Bool.and_eq_true_iff.mp settled).2
          rwa [counts, Bool.not_true, Bool.false_or] at known
  | arm => cases counts
  | binding | macroCall => exact settled

/-- Of a settled body, the fragments that declare something read the same. -/
theorem counts_alike {body body' : List Fragment}
    (alike : FragmentsAlike (ρ.relations places) body body')
    (settled : body.all Fragment.isSettled = true) :
    FragmentsAlike places.reading (body.filter Fragment.counts) (body'.filter Fragment.counts) := by
  induction alike with
  | nil => exact .nil
  | cons first _ inductionHypothesis =>
      rw [List.all_cons, Bool.and_eq_true] at settled
      have later := inductionHypothesis settled.2
      have same := counts_eq first settled.1
      cases counts : Fragment.counts _ with
      | true =>
          rw [List.filter_cons_of_pos counts, List.filter_cons_of_pos (same ▸ counts)]
          exact .cons (fragment_of_whole first (settled_of_counts settled.1 counts)) later
      | false =>
          have noCount := Bool.eq_false_iff.mp counts
          rw [List.filter_cons_of_neg noCount, List.filter_cons_of_neg (same ▸ noCount)]
          exact later

theorem bodyFindings_settled (path : String) {body body' : List Fragment}
    (alike : FragmentsAlike (ρ.relations places) body body')
    (settled : body.all Fragment.isSettled = true) :
    (bodyFindings path body).map Finding.lineless =
      (bodyFindings path body').map Finding.lineless := by
  have same := bodyFindings_lineless path (counts_alike alike settled)
  simp only [bodyFindings, seedCalls_counts, pdaCalls_counts] at same ⊢
  exact same

end Settled

/-! ## Choices of accounts -/

/-- The path of a variant of an enum names both. -/
theorem variantPattern?_path {enum variant : List Char} (enumName : isAsciiName enum = true)
    (variantName : isAsciiName variant = true) :
    variantPattern? (.ofList (enum ++ ':' :: ':' :: variant)) =
      some (.ofList enum, .ofList variant) := by
  have words (text : List Char) (name : isAsciiName text = true) :
      ∀ c ∈ text, isAsciiWordChar c = true :=
    List.all_eq_true.mp (Bool.and_eq_true_iff.mp name).1
  have visible : ∀ c ∈ enum ++ ':' :: ':' :: variant, isBlank c = false := by
    intro c listed
    simp only [List.mem_append, List.mem_cons] at listed
    rcases listed with listed | rfl | rfl | listed
    · exact isBlank_of_ascii (words enum enumName c listed)
    · decide
    · decide
    · exact isBlank_of_ascii (words variant variantName c listed)
  have letters (text : List Char) (name : isAsciiName text = true) :
      ∀ c ∈ text, isWordChar c = true :=
    fun c listed => isWordChar_of_ascii (words text name c listed)
  have segments : pathSegments (enum ++ ':' :: ':' :: variant) = [enum, variant] := by
    rw [pathSegments_append (letters enum enumName), pathSegments_word (letters variant variantName)]
  unfold variantPattern?
  rw [compact, String.toList_ofList, String.toList_ofList, compactChars_of_visible visible, segments]
  simp only [List.all_cons, List.all_nil, isIdentifier_of_isAsciiName enumName,
    isIdentifier_of_isAsciiName variantName]
  rfl

/-- Whether a fragment is no arm, or one whose pattern names an enum by a name that may be open. -/
def Syntax.Fragment.isChoice : Fragment → Bool
  | .arm pattern value _ =>
      isAscii value &&
        match variantPattern? pattern with
        | some (enum, variant) =>
            decide (pattern.toList = enum.toList ++ ':' :: ':' :: variant.toList) &&
              isOpenName enum.toList && isAsciiName variant.toList && isAscii variant
        | none => isAscii pattern
  | _ => true

theorem variantPattern?_fill {pattern enum variant : String}
    (spelled : pattern.toList = enum.toList ++ ':' :: ':' :: variant.toList)
    (enumName : isOpenName enum.toList = true) (variantName : isAsciiName variant.toList = true)
    (known : isAscii variant = true) :
    variantPattern? (ρ.string pattern) = some (ρ.string enum, variant) := by
  have filled : ρ.string pattern =
      .ofList (ρ.fill enum.toList ++ ':' :: ':' :: ρ.fill variant.toList) := by
    rw [Filling.string, spelled, fill_append]
    rfl
  rw [filled, ρ.fill_of_isWhole (isWhole_of_isAscii known), variantPattern?_path (ρ.isAsciiName_fill enumName) variantName,
    String.ofList_toList]
  rfl

/-- A choice of accounts with the names filled in. -/
def Dispatch.fill (declared : Declared Dispatch) : Declared Dispatch :=
  { declared with content := { declared.content with enum := ρ.string declared.content.enum } }

theorem dispatches_fill {places : Places} (path : String) {body body' : List Fragment}
    (alike : FragmentsAlike (ρ.relations places) body body')
    (choices : body.all Fragment.isChoice = true) :
    (dispatches path body').map Declared.lineless =
      ((dispatches path body).map (Dispatch.fill ρ)).map Declared.lineless := by
  have checked : List.Forall₂ (fun fragment fragment' =>
      FragmentAlike (ρ.relations places) fragment fragment' ∧ fragment.isChoice = true) body body' :=
    forall₂_of_all alike choices fun _ _ related choice => ⟨related, choice⟩
  rw [dispatches, dispatches]
  conv_rhs => rw [List.map_filterMap]
  refine (map_filterMap_eq checked ?_).symm
  rintro fragment fragment' ⟨related, choice⟩
  cases related with
  | @arm pattern pattern' value value' line line' patterns values =>
      obtain ⟨knownValue, named⟩ := Bool.and_eq_true_iff.mp choice
      obtain rfl : value' = value := values.trans (ρ.string_of_isAscii knownValue)
      obtain rfl : pattern' = ρ.string pattern := patterns
      dsimp only
      cases variant : variantPattern? pattern with
      | none =>
          rw [variant] at named
          rw [ρ.string_of_isAscii named, variant]
          rfl
      | some pair =>
          obtain ⟨enum, chosen⟩ := pair
          rw [variant] at named
          simp only [Bool.and_eq_true, decide_eq_true_eq] at named
          obtain ⟨⟨⟨spelled, enumName⟩, variantName⟩, known⟩ := named
          rw [variantPattern?_fill ρ spelled enumName variantName known]
          cases convertedType? (compact value').toList <;> rfl
  | binding | macroCall | call => rfl

/-! ## Functions -/

section Functions

variable {ρ} {places : Places}

theorem bodyFindings_isWhole (path : String) (body : List Fragment) :
    ∀ finding ∈ bodyFindings path body, finding.isWhole = true := by
  intro finding found
  rcases List.mem_append.mp found with called | derived
  · obtain ⟨call, _, rfl⟩ := List.mem_map.mp called
    rfl
  · obtain ⟨call, _, rfl⟩ := List.mem_map.mp derived
    rfl

theorem map_fill_of_isWhole {found : List Finding} (known : ∀ finding ∈ found, finding.isWhole = true) :
    found.map (Finding.fill ρ) = found := by
  rw [List.map_congr_left fun finding listed => Finding.fill_of_isWhole ρ (known finding listed),
    List.map_id']

theorem functionFindings_fill (path name : String) {body body' : List Fragment}
    (alike : FragmentsAlike (ρ.relations places) body body')
    (settled : body.all Fragment.isSettled = true) (choices : body.all Fragment.isChoice = true) :
    (functionFindings path name body').map Finding.lineless =
      ((functionFindings path name body).map (Finding.fill ρ)).map Finding.lineless := by
  simp only [functionFindings, List.map_append, map_fill_of_isWhole (bodyFindings_isWhole path body),
    bodyFindings_settled path alike settled]
  congr 1
  split
  · have chosen := congrArg (List.map (Finding.declaration ∘ Declaration.dispatch))
      (dispatches_fill ρ path alike choices)
    simp only [List.map_map] at chosen ⊢
    exact chosen
  · rfl

theorem implementationFindings_fill (site site' : Site) (paths : site.path = site'.path)
    {ofTrait target : String} {bodies bodies' : List (List Fragment)}
    (alike : List.Forall₂ (FragmentsAlike (ρ.relations places)) bodies bodies')
    (settled : bodies.all (·.all Fragment.isSettled) = true) :
    (implementationFindings site' ofTrait target bodies').map Finding.lineless =
      ((implementationFindings site ofTrait target bodies).map (Finding.fill ρ)).map
        Finding.lineless := by
  have known : ∀ finding ∈ implementationFindings site ofTrait target bodies,
      finding.isWhole = true := by
    intro finding found
    rw [implementationFindings, List.mem_append, List.mem_flatMap] at found
    rcases found with checks | ⟨body, _, listed⟩
    · split at checks
      · obtain rfl := List.mem_singleton.mp checks
        rfl
      · cases checks
    · exact bodyFindings_isWhole site.path body finding listed
  have each : List.Forall₂ (fun body body' => FragmentsAlike (ρ.relations places) body body' ∧
      body.all Fragment.isSettled = true) bodies bodies' :=
    forall₂_of_all alike settled fun _ _ related settled => ⟨related, settled⟩
  have sameChecks : bodies.flatMap assertions = bodies'.flatMap assertions := by
    refine flatMap_eq each fun body body' related => ?_
    rw [← assertions_counts body, ← assertions_counts body']
    exact assertions_eq (counts_alike related.1 related.2)
  have sameFound : (bodies.flatMap (bodyFindings site.path)).map Finding.lineless =
      (bodies'.flatMap (bodyFindings site.path)).map Finding.lineless := by
    rw [List.map_flatMap, List.map_flatMap]
    exact flatMap_eq each fun body body' related => bodyFindings_settled site.path related.1 related.2
  rw [map_fill_of_isWhole known]
  by_cases checking : typeName ofTrait = "ProcessAccountInfos"
  · simp only [implementationFindings, List.map_append, ← paths, sameChecks, sameFound, if_pos checking,
      List.map_cons, List.map_nil, Finding.lineless, Declaration.lineless, Declared.lineless]
  · simp only [implementationFindings, List.map_append, ← paths, sameFound, if_neg checking]

end Functions

/-! ## Enums -/

section Enums

variable {ρ} {places : Places}

/-- A documentation comment with the names filled in documents the same with the names filled in. -/
theorem docLines_comment (rest : List Char) :
    Annotations.docLines (ρ.string (.ofList ('/' :: '/' :: '/' :: rest))) =
      (Annotations.docLines (.ofList ('/' :: '/' :: '/' :: rest))).map ρ.string := by
  obtain ⟨kept, trimmed⟩ : ∃ kept, trim ('/' :: '/' :: '/' :: rest) = '/' :: '/' :: '/' :: kept := by
    obtain ⟨kept, ended⟩ := @exists_trimEnd_cons '/' (by decide) rest
    have visible : ∃ c ∈ '/' :: rest, isBlank c = false := ⟨'/', List.mem_cons_self, by decide⟩
    have whole := @trimEnd_append ['/', '/'] ('/' :: rest) visible
    rw [ended] at whole
    exact ⟨kept, (trim_of_flush (flush_cons_iff.mpr (by decide))).trans whole⟩
  have filled : trim (ρ.string (.ofList ('/' :: '/' :: '/' :: rest))).toList =
      '/' :: '/' :: '/' :: ρ.fill kept := by
    rw [Filling.string, String.toList_ofList, String.toList_ofList, ρ.trim_fill, trimmed]
    rfl
  have same : (ρ.fill kept).head? = some '/' ↔ kept.head? = some '/' := by
    cases kept with
    | nil => rfl
    | cons c kept =>
        by_cases hole : c ∈ holes
        · obtain ⟨letter, more, named, word, _⟩ := ρ.exists_letter_of_hole hole
          have other : ∀ c ∈ holes, c ≠ '/' := forall_mem_of_all (by decide)
          rw [fill_cons, named]
          exact iff_of_false (fun head => ne_of_isAsciiWordChar word (by decide) (Option.some.inj head))
            (fun head => other c hole (Option.some.inj head))
        · rw [fill_cons, ρ.char_of_not_mem hole]
          rfl
  unfold Annotations.docLines
  rw [filled, String.toList_ofList, trimmed]
  dsimp only
  simp only [same]
  split
  · rfl
  · rw [ρ.trim_fill]
    exact congrArg (fun text => [String.ofList (ρ.fill text)]) String.toList_ofList.symm

/-- Whether names may be left open in a note: in a documentation comment. -/
def isOpenNote (note : String) : Bool :=
  ['/', '/', '/'].isPrefixOf note.toList ||
    (isAscii note && (Annotations.docLines note).all isAscii)

theorem docLines_fill {note : String} (open_ : isOpenNote note = true) :
    Annotations.docLines (ρ.string note) = (Annotations.docLines note).map ρ.string := by
  rcases Bool.or_eq_true_iff.mp open_ with comment | known
  · obtain ⟨rest, spelled⟩ := List.isPrefixOf_iff_prefix.mp comment
    have note_eq : note = .ofList ('/' :: '/' :: '/' :: rest) := by
      rw [← String.ofList_toList (s := note), ← spelled]
      rfl
    rw [note_eq, docLines_comment]
  · obtain ⟨knownNote, knownLines⟩ := Bool.and_eq_true_iff.mp known
    rw [ρ.string_of_isAscii knownNote, map_string_of_isAscii ρ knownLines]

theorem docs_fill {notes : Annotations} (open_ : notes.all isOpenNote = true) :
    Annotations.docs (notes.map ρ.string) = (Annotations.docs notes).map ρ.string := by
  rw [Annotations.docs, Annotations.docs, List.flatMap_map, List.map_flatMap]
  rw [List.all_eq_true] at open_
  exact List.flatMap_congr fun note listed => docLines_fill (open_ note listed)

theorem attributes_fill {notes : Annotations}
    (marked : ∀ note ∈ notes, note.toList.head? = some '/' ∨ note.toList.head? = some '#')
    (open_ : notes.all isOpenNote = true) :
    Annotations.attributes (notes.map ρ.string) = Annotations.attributes notes := by
  rw [Annotations.attributes, Annotations.attributes, List.filterMap_map]
  apply List.filterMap_congr
  intro note listed
  rcases marked note listed with comment | hash
  · have filled : (ρ.string note).toList.head? = some '/' := by
      obtain ⟨rest, spelled⟩ := List.head?_eq_some_iff.mp comment
      rw [Filling.string, String.toList_ofList, spelled]
      rfl
    rw [Function.comp_apply, parse?_comment filled, parse?_comment comment]
  · rcases Bool.or_eq_true_iff.mp (List.all_eq_true.mp open_ note listed) with comment | known
    · obtain ⟨rest, spelled⟩ := List.isPrefixOf_iff_prefix.mp comment
      rw [← spelled] at hash
      cases hash
    · rw [Function.comp_apply, ρ.string_of_isAscii (Bool.and_eq_true_iff.mp known).1]

theorem enumFindings_fill (site site' : Site) (paths : site.path = site'.path) (name : String)
    {notes notes' : Annotations} (noted : NotesAlike (ρ.relations places) notes notes')
    (open_ : notes.all isOpenNote = true) {variants variants' : List (Annotated VariantItem)}
    (alike : List.Forall₂ (AnnotatedAlike (ρ.relations places) (VariantAlike (ρ.relations places)))
      variants variants') (known : variants.all VariantItem.isWhole = true) :
    (enumFindings site' notes' (ρ.string name) variants').map Finding.lineless =
      ((enumFindings site notes name variants).map (Finding.fill ρ)).map Finding.lineless := by
  obtain ⟨rfl, marked⟩ := notes_filled noted
  have sameVariants := declaredVariants_eq (variants_of_whole alike known)
  have sameAttributes := find?_eq (@attributes_fill ρ notes marked open_)
  unfold enumFindings
  simp only [docs_fill open_, sameAttributes, sameVariants]
  cases notes.find? "discriminator" with
  | some attr =>
      simp [Finding.fill, Declaration.fill, Finding.lineless, Declaration.lineless, Declared.lineless, paths]
  | none =>
      cases notes.find? "error" with
      | some attr =>
          simp [Finding.fill, Declaration.fill, Finding.lineless, Declaration.lineless, Declared.lineless,
            paths]
      | none => rfl

end Enums

/-! ## Tagged structs -/

def discriminatorKey : List Char :=
  ['d', 'i', 's', 'c', 'r', 'i', 'm', 'i', 'n', 'a', 't', 'o', 'r']

def variantKey : List Char :=
  ['v', 'a', 'r', 'i', 'a', 'n', 't']

/-- The arguments of a tag: the enum of the discriminator, and the variant if it is named. -/
def tagPairs (enum : List Char) (variant : Option String) : List (List Char × List Char) :=
  (discriminatorKey, enum) :: variant.toList.map fun variant => (variantKey, variant.toList)

/-- The attribute that tags a struct. -/
def tagNote (tag : Tag) (enum : List Char) (variant : Option String) : String :=
  .ofList (Attribute.spelled tag.word.toList (tagPairs enum variant))

section Tags

variable {tag : Tag} {enum : List Char} {variant : Option String}

theorem parse?_tagNote (enumName : isAsciiName enum = true)
    (variantName : variant.all (isAsciiName ·.toList) = true) :
    ∃ attr, Attribute.parse? (tagNote tag enum variant) = some attr ∧ attr.name = tag.word ∧
      attr.argument? "discriminator" = some (.ofList enum) ∧ attr.argument? "variant" = variant := by
  have path : isAsciiName tag.word.toList = true := by
    cases tag <;> decide
  have keys : isAsciiName discriminatorKey = true ∧ isAsciiName variantKey = true := by decide
  have named : Attribute.Named (tagPairs enum variant) := by
    cases variant with
    | none => exact List.forall_mem_singleton.mpr ⟨keys.1, enumName⟩
    | some variant =>
        exact List.forall_mem_cons.mpr ⟨⟨keys.1, enumName⟩,
          List.forall_mem_singleton.mpr ⟨keys.2, variantName⟩⟩
  have word : lastSegment (.ofList tag.word.toList) = tag.word := by
    cases tag <;> decide +kernel
  obtain ⟨arguments, parsed⟩ := Attribute.parse?_spelled path named
  refine ⟨_, parsed, ?_⟩
  cases variant with
  | none => exact ⟨word, rfl, rfl⟩
  | some variant =>
      refine ⟨word, rfl, ?_⟩
      change List.lookup "variant" [("discriminator", .ofList enum), ("variant", .ofList variant.toList)] =
        some variant
      rw [String.ofList_toList]
      rfl

theorem string_tagNote {ρ : Filling} {enum : String} (known : variant.all isAscii = true) :
    ρ.string (tagNote tag enum.toList variant) = tagNote tag (ρ.fill enum.toList) variant := by
  have word : ρ.fill tag.word.toList = tag.word.toList :=
    ρ.fill_of_isWhole (by cases tag <;> decide)
  have closing : ρ.fill [')', ']'] = [')', ']'] := rfl
  have pairs : ρ.fill (Attribute.argumentsText (tagPairs enum.toList variant)) =
      Attribute.argumentsText (tagPairs (ρ.fill enum.toList) variant) := by
    cases variant with
    | none =>
        simp only [tagPairs, Option.toList_none, List.map_nil, Attribute.argumentsText_singleton,
          Attribute.pairText, fill_append]
        rfl
    | some variant =>
        have same : ρ.fill variant.toList = variant.toList := ρ.fill_of_isWhole (isWhole_of_isAscii known)
        have keys : ρ.fill discriminatorKey = discriminatorKey ∧ ρ.fill variantKey = variantKey :=
          ⟨rfl, rfl⟩
        simp only [tagPairs, Option.toList_some, List.map_cons, List.map_nil,
          Attribute.argumentsText_cons_cons, Attribute.argumentsText_singleton, Attribute.pairText,
          fill_append, fill_cons, same, keys]
        rfl
  rw [tagNote, Filling.string, String.toList_ofList, tagNote, Attribute.spelled, Attribute.spelled]
  simp only [fill_cons, fill_append, word, pairs, closing]
  rfl

/-- Whether a note is an attribute. -/
def isAttributeNote (note : String) : Bool :=
  note.toList.head? = some '#'

/-- Whether the only attribute in front of a struct is its tag; the name of the enum in it may be open. -/
def Annotations.isOpenTag (notes : Annotations) : Bool :=
  match tag? notes with
  | some (tag, attr) =>
      match attr.argument? "discriminator" with
      | some enum =>
          decide (notes.filter isAttributeNote = [tagNote tag enum.toList (attr.argument? "variant")]) &&
            isOpenName enum.toList && (attr.argument? "variant").all (isAsciiName ·.toList) &&
            (attr.argument? "variant").all isAscii &&
            notes.all fun note =>
              if isAttributeNote note then (Annotations.docLines note).isEmpty else isAscii note
      | none => false
  | none => false

/-- Annotations of which one attribute is a tag. -/
structure TaggedBy (notes : Annotations) (tag : Tag) (enum : List Char) (variant : Option String) :
    Prop where
  single : notes.filter isAttributeNote = [tagNote tag enum variant]
  marked : ∀ note ∈ notes, note.toList.head? = some '/' ∨ note.toList.head? = some '#'
  enumName : isAsciiName enum = true
  variantName : variant.all (isAsciiName ·.toList) = true

theorem TaggedBy.attributes_eq {notes : Annotations} (tagged : TaggedBy notes tag enum variant) :
    notes.attributes = [tagNote tag enum variant].filterMap Attribute.parse? := by
  rw [← tagged.single, List.filterMap_filter, Annotations.attributes]
  apply List.filterMap_congr
  intro note listed
  rcases tagged.marked note listed with slash | hash
  · rw [parse?_comment slash]
    split <;> rfl
  · have attribute_ : isAttributeNote note = true := decide_eq_true hash
    rw [if_pos attribute_]

theorem TaggedBy.exists_tag {notes : Annotations} (tagged : TaggedBy notes tag enum variant) :
    ∃ attr, tag? notes = some (tag, attr) ∧ attr.argument? "discriminator" = some (.ofList enum) ∧
      attr.argument? "variant" = variant := by
  obtain ⟨attr, parsed, named, first, second⟩ := parse?_tagNote tagged.enumName tagged.variantName
  refine ⟨attr, ?_, first, second⟩
  have only : notes.attributes = [attr] := by
    rw [tagged.attributes_eq, List.filterMap_cons_some parsed, List.filterMap_nil]
  unfold tag?
  cases tag <;>
    simp [Annotations.find?, only, named, Tag.word]

theorem docLines_tagNote (enumName : isAsciiName enum = true)
    (variantName : variant.all (isAsciiName ·.toList) = true) :
    Annotations.docLines (tagNote tag enum variant) = [] := by
  obtain ⟨attr, parsed, named, _⟩ := @parse?_tagNote tag _ _ enumName variantName
  have other : attr.name ≠ "doc" := by
    rw [named]
    cases tag <;> decide
  have marked : (tagNote tag enum variant).toList.head? = some '#' := by
    rw [tagNote, String.toList_ofList]
    rfl
  rw [docLines_attribute marked, parsed]
  exact if_neg other

end Tags

section Records

variable {ρ} {places : Places}

/-- Filling in names leaves the mark that a note starts with. -/
theorem head?_string {note : String}
    (marked : note.toList.head? = some '/' ∨ note.toList.head? = some '#') :
    (ρ.string note).toList.head? = note.toList.head? := by
  rw [Filling.string, String.toList_ofList]
  rcases marked with starts | starts
  · obtain ⟨rest, spelled⟩ := List.head?_eq_some_iff.mp starts
    rw [spelled]
    rfl
  · obtain ⟨rest, spelled⟩ := List.head?_eq_some_iff.mp starts
    rw [spelled]
    rfl

/-- With the names filled in, the tag of a struct names the enum with the names filled in. -/
theorem exists_tag_fill {notes notes' : Annotations}
    (noted : NotesAlike (ρ.relations places) notes notes') (open_ : notes.isOpenTag = true) :
    ∃ tag attr attr' enum, tag? notes = some (tag, attr) ∧ tag? notes' = some (tag, attr') ∧
      attr.argument? "discriminator" = some enum ∧
      attr'.argument? "discriminator" = some (ρ.string enum) ∧
      attr'.argument? "variant" = attr.argument? "variant" ∧ notes'.docs = notes.docs := by
  obtain ⟨rfl, marked⟩ := notes_filled noted
  unfold Annotations.isOpenTag at open_
  split at open_
  · rename_i tag attr tagged
    split at open_
    · rename_i enum selected
      simp only [Bool.and_eq_true, decide_eq_true_eq] at open_
      obtain ⟨⟨⟨⟨single, enumName⟩, variantName⟩, known⟩, others⟩ := open_
      have filled : TaggedBy (notes.map ρ.string) tag (ρ.fill enum.toList) (attr.argument? "variant") := by
        refine ⟨?_, ?_, ρ.isAsciiName_fill enumName, variantName⟩
        · have kept : notes.filter (isAttributeNote ∘ ρ.string) = notes.filter isAttributeNote := by
            apply List.filter_congr
            intro note listed
            rw [Function.comp_apply, isAttributeNote, head?_string (marked note listed), isAttributeNote]
          rw [List.filter_map, kept, single, List.map_singleton, string_tagNote known]
        · intro note listed
          obtain ⟨open_, among, rfl⟩ := List.mem_map.mp listed
          rw [head?_string (marked open_ among)]
          exact marked open_ among
      obtain ⟨attr', tagged', enum', variant'⟩ := filled.exists_tag
      refine ⟨tag, attr, attr', enum, tagged, tagged', selected, enum', variant', ?_⟩
      rw [Annotations.docs, Annotations.docs, List.flatMap_map]
      apply List.flatMap_congr
      intro note listed
      have here := List.all_eq_true.mp others note listed
      by_cases attribute_ : isAttributeNote note = true
      · rw [if_pos attribute_, List.isEmpty_iff] at here
        have among : note ∈ notes.filter isAttributeNote := List.mem_filter.mpr ⟨listed, attribute_⟩
        rw [single] at among
        rw [here, List.mem_singleton.mp among, string_tagNote known]
        exact docLines_tagNote filled.enumName variantName
      · rw [if_neg attribute_] at here
        rw [ρ.string_of_isAscii here]
    · cases open_
  · cases open_

theorem recordFindings_fill (site site' : Site) (paths : site.path = site'.path) (name : String)
    {notes notes' : Annotations} (noted : NotesAlike (ρ.relations places) notes notes')
    (open_ : notes.isOpenTag = true) {record record' : RecordBody}
    (alike : BodyAlike (ρ.relations places) record record') (known : record.isWhole = true) :
    (recordFindings site' notes' name record').map Finding.lineless =
      ((recordFindings site notes name record).map (Finding.fill ρ)).map Finding.lineless := by
  obtain ⟨tag, attr, attr', enum, tagged, tagged', selected, selected', variant', docs'⟩ :=
    exists_tag_fill noted open_
  have sameFields := declaredFields_eq (body_of_whole alike known)
  unfold recordFindings
  simp only [tagged, tagged', sameFields, docs']
  cases alike with
  | named | unit =>
      simp only [selected', variant', selected, List.map_cons, List.map_nil, Finding.fill,
        Declaration.fill, Finding.lineless, Declaration.lineless, Declared.lineless, paths,
        Option.map_some]
  | tuple => rfl

end Records

/-! ## Items -/

mutual

/-- Whether names are left open in an item only where they may be. -/
def itemIsFillable (notes : Annotations) : Item → Bool
  | .record name body =>
      isAscii name.text && body.isWhole &&
        (notes.isOpenTag || (notes.all isAscii && (tag? notes).isNone))
  | .enumeration _ variants => notes.all isOpenNote && variants.all VariantItem.isWhole
  | .constant name type value => notes.all isAscii && isAscii name.text && isAscii type && isAscii value
  | .macroCall path arguments => isAscii path && isAscii arguments
  | .macroRules name rules => notes.all isAscii && isAscii name.text && rules.all MacroRule.isWhole
  | .module items => areFillable items
  | .function name body =>
      isAscii name.text && body.all Fragment.isSettled && body.all Fragment.isChoice
  | .implementation ofTrait target bodies =>
      isAscii ofTrait && isAscii target && bodies.all (·.all Fragment.isSettled)
  | .other => true

def annotatedIsFillable : Annotated Item → Bool
  | ⟨notes, _, item⟩ => itemIsFillable notes item

/-- Whether names are left open in some items only where they may be. -/
def areFillable : List (Annotated Item) → Bool
  | [] => true
  | item :: rest => annotatedIsFillable item && areFillable rest

end

section Items

variable {ρ} {places : Places} (path : String)

theorem macroCallFindings_isWhole (site : Site) (depth : Nat) (called arguments : String) :
    ∀ finding ∈ macroCallFindings site depth called arguments, finding.isWhole = true := by
  intro finding found
  rw [macroCallFindings] at found
  split at found
  · obtain rfl := List.mem_singleton.mp found
    rfl
  · cases found

theorem macroRulesFindings_isWhole (site : Site) (notes : Annotations) (name : String)
    (rules : List MacroRule) :
    ∀ finding ∈ macroRulesFindings site notes name rules, finding.isWhole = true := by
  intro finding found
  rw [macroRulesFindings] at found
  split at found
  · split at found
    · obtain rfl := List.mem_singleton.mp found
      rfl
    · obtain rfl := List.mem_singleton.mp found
      rfl
  · cases found

theorem recordFindings_isWhole (site : Site) {notes : Annotations} (untagged : tag? notes = none)
    (name : String) (body : RecordBody) :
    ∀ finding ∈ recordFindings site notes name body, finding.isWhole = true := by
  intro finding found
  unfold recordFindings at found
  simp only [untagged] at found
  split at found
  · obtain rfl := List.mem_singleton.mp found
    rfl
  · split at found
    · obtain rfl := List.mem_singleton.mp found
      rfl
    · cases found

mutual

theorem itemFindings_fill (depth line line' : Nat) {notes notes' : Annotations}
    (noted : NotesAlike (ρ.relations places) notes notes') {item item' : Item} :
    ItemAlike (ρ.relations places) item item' → itemIsFillable notes item = true →
      (itemFindings path depth notes' line' item').map Finding.lineless =
        ((itemFindings path depth notes line item).map (Finding.fill ρ)).map Finding.lineless
  | .record names bodies, fillable => by
      rw [itemIsFillable, Bool.and_eq_true, Bool.and_eq_true, Bool.or_eq_true, Bool.and_eq_true,
        Option.isNone_iff_eq_none] at fillable
      obtain ⟨⟨knownName, known⟩, open_ | ⟨knownNotes, untagged⟩⟩ := fillable
      · rw [itemFindings, itemFindings, ← name_of_whole names knownName]
        exact recordFindings_fill ⟨path, line⟩ ⟨path, line'⟩ rfl _ noted open_ bodies known
      · rw [itemFindings, itemFindings, ← name_of_whole names knownName,
          map_fill_of_isWhole (recordFindings_isWhole _ untagged _ _)]
        exact (recordFindings_lineless path line line' _ (notes_eq (notes_of_whole noted knownNotes))
          (body_of_whole bodies known)).symm
  | .enumeration names alike, fillable => by
      rw [itemIsFillable, Bool.and_eq_true] at fillable
      have same : _ = _ := names
      rw [itemFindings, itemFindings, same]
      exact enumFindings_fill ⟨path, line⟩ ⟨path, line'⟩ rfl _ noted fillable.1 alike fillable.2
  | .constant names types values, fillable => by
      rw [itemIsFillable, Bool.and_eq_true, Bool.and_eq_true, Bool.and_eq_true] at fillable
      obtain ⟨⟨⟨knownNotes, knownName⟩, knownType⟩, knownValue⟩ := fillable
      exact (itemFindings_lineless path line line' depth (notes_eq (notes_of_whole noted knownNotes))
        (.constant (name_of_whole names knownName) (text_of_whole types knownType)
          (text_of_whole values knownValue))).symm
  | .macroCall paths texts, fillable => by
      rw [itemIsFillable, Bool.and_eq_true] at fillable
      have samePath : places.reading.text .macroPath _ _ := text_of_whole paths fillable.1
      have sameText : places.reading.text .address _ _ := text_of_whole texts fillable.2
      rw [itemFindings, itemFindings, map_fill_of_isWhole (macroCallFindings_isWhole _ _ _ _)]
      exact (macroCallFindings_lineless path line line' depth samePath sameText).symm
  | .macroRules names alike, fillable => by
      rw [itemIsFillable, Bool.and_eq_true, Bool.and_eq_true] at fillable
      have docs := (notes_eq (notes_of_whole noted fillable.1.1)).1
      rw [itemFindings, itemFindings, ← name_of_whole names fillable.1.2,
        map_fill_of_isWhole (macroRulesFindings_isWhole _ _ _ _)]
      exact (macroRulesFindings_lineless path line line' _ docs (rules_of_whole alike fillable.2)).symm
  | .module alike, fillable => by
      rw [itemFindings, itemFindings]
      exact findings_fill (depth + 1) alike fillable
  | .function names bodies, fillable => by
      rw [itemIsFillable, Bool.and_eq_true, Bool.and_eq_true] at fillable
      rw [itemFindings, itemFindings, ← name_of_whole names fillable.1.1]
      exact functionFindings_fill path _ bodies fillable.1.2 fillable.2
  | .implementation traits targets alike, fillable => by
      rw [itemIsFillable, Bool.and_eq_true, Bool.and_eq_true] at fillable
      have sameTrait := traits.trans (ρ.string_of_isAscii fillable.1.1)
      have sameTarget := targets.trans (ρ.string_of_isAscii fillable.1.2)
      rw [itemFindings, itemFindings, sameTrait, sameTarget]
      exact implementationFindings_fill ⟨path, line⟩ ⟨path, line'⟩ rfl alike fillable.2
  | .other, _ => rfl

/-- What some items declare with the names filled in is what they declare, with the names filled in. -/
theorem findings_fill (depth : Nat) {items items' : List (Annotated Item)} :
    ItemsAlike (ρ.relations places) items items' → areFillable items = true →
      (findings path depth items').map Finding.lineless =
        ((findings path depth items).map (Finding.fill ρ)).map Finding.lineless
  | .nil, _ => rfl
  | @ItemsAlike.cons _ ⟨_, line, _⟩ ⟨_, line', _⟩ _ _ notes values behind, fillable => by
      rw [areFillable, annotatedIsFillable, Bool.and_eq_true] at fillable
      rw [findings, findings, List.map_append, List.map_append, List.map_append,
        findings_fill depth behind fillable.2, annotatedFindings, annotatedFindings,
        itemFindings_fill depth line line' notes values fillable.1]

end

end Items

end ProgramIdl
