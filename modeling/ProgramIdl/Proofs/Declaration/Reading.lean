import ProgramIdl.Proofs.Program.Arrangement
import ProgramIdl.Proofs.Syntax.Related
import ProgramIdl.Proofs.Text.Trim

/-!
# What is found in items that read the same

The reading of items depends on their texts only as far as these are read, and on places only in
their order: a binding holds behind its end.  Items that read the same declare the same, apart from
the lines where the declarations stand.
-/

set_option autoImplicit false

namespace ProgramIdl

open ProgramIdl.Text
open ProgramIdl.Syntax

/-! ## Readings -/

/-- Two texts come to the same in what they are read for. -/
def Syntax.TextKind.Same : TextKind → String → String → Prop
  | .code, text, text' => compact text = compact text'
  | .macroPath, text, text' => lastSegment text = lastSegment text'
  | .typePath, text, text' => typeName text = typeName text'
  | .number, text, text' => Literal.integer? text = Literal.integer? text'
  | .address, text, text' => declaredAddress? text = declaredAddress? text'
  | .matcher, text, text' => macroParameters text.toList = macroParameters text'.toList
  | .attribute, text, text' => Attribute.parse? text = Attribute.parse? text'

instance (kind : TextKind) (text text' : String) : Decidable (kind.Same text text') := by
  cases kind <;> exact inferInstanceAs (Decidable (_ = _))

theorem Syntax.TextKind.Same.refl (kind : TextKind) (text : String) : kind.Same text text := by
  cases kind <;> rfl

/-- Places in two texts that are in the same order: what ends before something starts does so in
both. -/
structure Places where
  start : Nat → Nat → Prop
  stop : Nat → Nat → Prop
  order {end_ end' begin begin' : Nat} :
    stop end_ end' → start begin begin' → (end_ ≤ begin ↔ end' ≤ begin')

/-- Relations under which items read the same. -/
def Places.reading (places : Places) : Relations where
  text := TextKind.Same
  name := Eq
  comments texts texts' := texts.docs = texts'.docs ∧ texts.attributes = texts'.attributes
  start := places.start
  stop := places.stop

/-! ## Lines -/

/-- Something declared on no line in particular. -/
def Declared.lineless {α : Type} (declared : Declared α) : Declared α :=
  { declared with site := ⟨declared.site.path, 0⟩ }

/-- A declaration that stands on no line in particular. -/
def Declaration.lineless : Declaration → Declaration
  | .discriminator declared => .discriminator declared.lineless
  | .tagged tag declared => .tagged tag declared.lineless
  | .error declared => .error declared.lineless
  | .programId declared => .programId declared.lineless
  | .constant declared => .constant declared.lineless
  | .seedMacro declared => .seedMacro declared.lineless
  | .seedCall declared => .seedCall declared.lineless
  | .pdaCall declared => .pdaCall declared.lineless
  | .record declared => .record declared.lineless
  | .accounts declared => .accounts declared.lineless
  | .processor declared => .processor declared.lineless
  | .dispatch declared => .dispatch declared.lineless

theorem placeless_lineless (declaration : Declaration) :
    declaration.lineless.placeless = declaration.placeless := by
  cases declaration <;> rfl

/-- What is found, without the line where it is found. -/
def Finding.lineless : Finding → Finding
  | .declaration declared => .declaration declared.lineless
  | .notice reported => .notice reported
  | .failure thrown => .failure thrown.placeless

section Reading

variable {places : Places}

/-! ## Annotations -/

/-- A text that starts with a visible character still does when blanks are taken off it. -/
theorem head?_trim {c : Char} {text : List Char} (starts : text.head? = some c)
    (visible : isBlank c = false) : (trim text).head? = some c := by
  cases text with
  | nil => cases starts
  | cons first rest =>
      obtain rfl := Option.some.inj starts
      obtain ⟨back, split, blank⟩ := exists_trimEnd_split (first :: rest)
      rw [trim_of_flush (flush_cons_iff.mpr visible)]
      cases kept : trimEnd (first :: rest) with
      | nil =>
          rw [kept, List.nil_append] at split
          have blankFirst := blank first (by simp [← split])
          rw [visible] at blankFirst
          cases blankFirst
      | cons other others =>
          rw [kept, List.cons_append] at split
          rw [← (List.cons.inj split).1, List.head?_cons]

/-- Comments are no attributes. -/
theorem parse?_comment {text : String} (slash : text.toList.head? = some '/') :
    Attribute.parse? text = none := by
  obtain ⟨rest, spelled⟩ := List.head?_eq_some_iff.mp (head?_trim slash (by decide))
  rw [Attribute.parse?, Attribute.sections?, spelled]
  rfl

/-- The documentation lines that an attribute spells. -/
theorem docLines_attribute {text : String} (marked : text.toList.head? = some '#') :
    Annotations.docLines text =
      match Attribute.parse? text with
      | some attr =>
          if attr.name = "doc" then
            match attr.value.bind Literal.string? with
            | some literal => (Annotations.textLines literal.toList).map .ofList
            | none => []
          else []
      | none => [] := by
  obtain ⟨rest, spelled⟩ : ∃ rest, trim text.toList = '#' :: rest :=
    List.head?_eq_some_iff.mp (head?_trim marked (by decide))
  rw [Annotations.docLines, spelled]
  rfl

theorem docs_append (first second : Annotations) :
    Annotations.docs (first ++ second) = first.docs ++ second.docs := by
  simp [Annotations.docs]

theorem attributes_append (first second : Annotations) :
    Annotations.attributes (first ++ second) = first.attributes ++ second.attributes := by
  simp [Annotations.attributes]

/-- Annotations that read the same document the same and are the same attributes. -/
theorem notes_eq {notes notes' : Annotations} (alike : NotesAlike places.reading notes notes') :
    notes.docs = notes'.docs ∧ notes.attributes = notes'.attributes := by
  induction alike with
  | nil => exact ⟨rfl, rfl⟩
  | comments alike => exact alike
  | spelled texts marked marked' =>
      have same : Attribute.parse? _ = Attribute.parse? _ := texts
      simp only [Annotations.docs, Annotations.attributes, List.flatMap_singleton,
        docLines_attribute marked, docLines_attribute marked', same, List.filterMap_cons,
        List.filterMap_nil, and_self]
  | append _ _ front back =>
      simp only [docs_append, attributes_append, front.1, front.2, back.1, back.2, and_self]

/-! ## Local bindings -/

/-- Bindings of the same names to the same values, of which the same hold at a place. -/
def BindingsAlike (places : Places) : List Binding → List Binding → Prop :=
  List.Forall₂ fun binding binding' =>
    binding.name = binding'.name ∧ binding.value = binding'.value ∧
      places.stop binding.stop binding'.stop

theorem forall₂_filterMap {α β γ δ : Type} {related : α → β → Prop} {result : γ → δ → Prop}
    {select : α → Option γ} {select' : β → Option δ} {values : List α} {values' : List β}
    (alike : List.Forall₂ related values values')
    (each : ∀ value value', related value value' →
      Option.Rel result (select value) (select' value')) :
    List.Forall₂ result (values.filterMap select) (values'.filterMap select') := by
  induction alike with
  | nil => exact .nil
  | cons first _ inductionHypothesis =>
      have here := each _ _ first
      rw [List.filterMap_cons, List.filterMap_cons]
      generalize select _ = selected at here ⊢
      generalize select' _ = selected' at here ⊢
      cases here with
      | none => exact inductionHypothesis
      | some results => exact .cons results inductionHypothesis

theorem bindings_alike {body body' : List Fragment} (alike : FragmentsAlike places.reading body body') :
    BindingsAlike places (bindings body) (bindings body') := by
  apply forall₂_filterMap alike
  intro fragment fragment' related
  cases related with
  | binding names values stops =>
      obtain rfl : _ = _ := names
      have same : compact _ = compact _ := values
      simp only [same]
      split
      · split
        · exact .none
        · exact .some ⟨rfl, rfl, stops⟩
      · exact .none
  | macroCall | call | arm => exact .none

theorem boundAt?_alike {known known' : List Binding} (alike : BindingsAlike places known known')
    {start start' : Nat} (starts : places.start start start') (name : String) :
    boundAt? known name start = boundAt? known' name start' := by
  rw [boundAt?, boundAt?]
  induction alike with
  | nil => rfl
  | cons first _ inductionHypothesis =>
      obtain ⟨names, values, stops⟩ := first
      have holds := places.order stops starts
      rw [List.findRev?, List.findRev?]
      generalize List.findRev? _ _ = later at inductionHypothesis ⊢
      generalize List.findRev? _ _ = later' at inductionHypothesis ⊢
      cases later with
      | some found =>
          cases later' with
          | some found' => exact inductionHypothesis
          | none => cases inductionHypothesis
      | none =>
          cases later' with
          | some found' => cases inductionHypothesis
          | none =>
              simp only [holds, names]
              split
              · exact congrArg some values
              · rfl

theorem resolve_alike {known known' : List Binding} (alike : BindingsAlike places known known')
    {start start' : Nat} (starts : places.start start start') (text : String) :
    resolve known start text = resolve known' start' text := by
  rw [resolve, resolve]
  generalize maxBindingSteps = steps
  induction steps generalizing text with
  | zero => rfl
  | succ steps inductionHypothesis =>
      have same : substitute? known start text = substitute? known' start' text := by
        simp only [substitute?, boundAt?_alike alike starts]
      rw [resolveSteps, resolveSteps, same]
      cases substitute? known' start' text with
      | some next => exact inductionHypothesis next
      | none => rfl

/-! ## Bodies -/

theorem calleeName_eq {callee callee' : Callee} (alike : CalleeAlike places.reading callee callee') :
    calleeName callee = calleeName callee' := by
  cases alike with
  | method _ names => exact names
  | path texts => exact texts

/-- What is selected from related values one by one comes to the same. -/
theorem map_filterMap_eq {α β γ δ : Type} {related : α → β → Prop} {select : α → Option γ}
    {select' : β → Option γ} {read : γ → δ} {values : List α} {values' : List β}
    (alike : List.Forall₂ related values values')
    (each : ∀ value value', related value value' →
      (select value).map read = (select' value').map read) :
    (values.filterMap select).map read = (values'.filterMap select').map read := by
  induction alike with
  | nil => rfl
  | cons first _ inductionHypothesis =>
      have here := each _ _ first
      rw [List.filterMap_cons, List.filterMap_cons]
      generalize select _ = selected at here ⊢
      generalize select' _ = selected' at here ⊢
      cases selected with
      | none =>
          cases selected' with
          | none => exact inductionHypothesis
          | some result => cases here
      | some result =>
          cases selected' with
          | none => cases here
          | some result' =>
              rw [List.map_cons, List.map_cons, Option.some.inj here, inductionHypothesis]

/-- What related values yield one by one comes to the same. -/
theorem flatMap_eq {α β γ : Type} {related : α → β → Prop} {yields : α → List γ}
    {yields' : β → List γ} {values : List α} {values' : List β}
    (alike : List.Forall₂ related values values')
    (each : ∀ value value', related value value' → yields value = yields' value') :
    values.flatMap yields = values'.flatMap yields' := by
  induction alike with
  | nil => rfl
  | cons first _ inductionHypothesis =>
      rw [List.flatMap_cons, List.flatMap_cons, each _ _ first, inductionHypothesis]

variable {body body' : List Fragment}

theorem seedCalls_lineless (path : String) (alike : FragmentsAlike places.reading body body') :
    (seedCalls path body).map Declared.lineless = (seedCalls path body').map Declared.lineless := by
  apply map_filterMap_eq alike
  intro fragment fragment' related
  cases related with
  | macroCall paths texts delimiters starts =>
      have samePath : lastSegment _ = lastSegment _ := paths
      have sameText : compact _ = compact _ := texts
      have sameValues := resolve_alike (bindings_alike alike) starts
      simp only [samePath, sameText, funext sameValues]
      split
      · rfl
      · rfl
  | binding | call | arm => rfl

theorem pdaSeeds?_eq {known known' : List Binding} (alike : BindingsAlike places known known')
    {start start' : Nat} (starts : places.start start start') {argument argument' : String}
    (texts : compact argument = compact argument') :
    pdaSeeds? known start argument = pdaSeeds? known' start' argument' := by
  simp only [pdaSeeds?, texts, funext (resolve_alike alike starts)]

theorem pdaCalls_lineless (path : String) (alike : FragmentsAlike places.reading body body') :
    (pdaCalls path body).map Declared.lineless = (pdaCalls path body').map Declared.lineless := by
  apply map_filterMap_eq alike
  intro fragment fragment' related
  cases related with
  | call callees texts starts =>
      cases texts with
      | nil => rfl
      | cons first _ =>
          have seeds := pdaSeeds?_eq (bindings_alike alike) starts first
          simp only [calleeName_eq callees, seeds]
          split
          · rw [Option.map_map, Option.map_map]
            rfl
          · rfl
  | binding | macroCall | arm => rfl

/-- What is made of the compact forms of texts that read the same. -/
theorem arguments_eq {α : Type} (read : String → α) {texts texts' : List String}
    (alike : List.Forall₂ (places.reading.text .code) texts texts') :
    texts.map (fun text => read (compact text)) = texts'.map fun text => read (compact text) := by
  induction alike with
  | nil => rfl
  | cons first _ inductionHypothesis =>
      have same : compact _ = compact _ := first
      rw [List.map_cons, List.map_cons, same, inductionHypothesis]

theorem assertions_eq (alike : FragmentsAlike places.reading body body') :
    assertions body = assertions body' := by
  rw [← List.map_id (assertions body), ← List.map_id (assertions body')]
  apply map_filterMap_eq alike
  intro fragment fragment' related
  cases related with
  | call callees texts starts =>
      cases callees with
      | path => rfl
      | method receivers names =>
          have sameReceiver : compact _ = compact _ := receivers
          obtain rfl : _ = _ := names
          have sameValues := resolve_alike (bindings_alike alike) starts
          simp only [sameReceiver, funext sameValues, arguments_eq _ texts]
  | binding | macroCall | arm => rfl

theorem dispatches_lineless (path : String) (alike : FragmentsAlike places.reading body body') :
    (dispatches path body).map Declared.lineless =
      (dispatches path body').map Declared.lineless := by
  apply map_filterMap_eq alike
  intro fragment fragment' related
  cases related with
  | arm patterns values =>
      have samePattern : compact _ = compact _ := patterns
      have sameValue : compact _ = compact _ := values
      have sameNamed {text text' : String} (same : compact text = compact text') :
          variantPattern? text = variantPattern? text' := by
        simp only [variantPattern?, same]
      simp only [sameNamed samePattern, sameValue]
      generalize variantPattern? _ = named
      generalize convertedType? _ = accounts
      cases named with
      | none => rfl
      | some named =>
          cases accounts with
          | none => rfl
          | some accounts => rfl
  | binding | macroCall | call => rfl

/-! ## Items -/

theorem find?_eq {notes notes' : Annotations} (same : notes.attributes = notes'.attributes)
    (name : String) : notes.find? name = notes'.find? name := by
  rw [Annotations.find?, Annotations.find?, same]

theorem declaredFields_eq {record record' : RecordBody}
    (alike : BodyAlike places.reading record record') :
    declaredFields record = declaredFields record' := by
  cases alike with
  | named fields =>
      rw [declaredFields, declaredFields]
      induction fields with
      | nil => rfl
      | cons first _ inductionHypothesis =>
          have sameName : _ = _ := first.values.names
          have sameType : compact _ = compact _ := first.values.types
          have sameDocs := (notes_eq first.notes).1
          rw [List.map_cons, List.map_cons, inductionHypothesis, sameName, sameType, sameDocs]
  | tuple | unit => rfl

theorem number_eq {value value' : Option String}
    (alike : Option.Rel (places.reading.text .number) value value') :
    value.bind Literal.integer? = value'.bind Literal.integer? := by
  cases alike with
  | none => rfl
  | some values => exact values

theorem declaredVariants_eq {variants variants' : List (Annotated VariantItem)}
    (alike : List.Forall₂ (AnnotatedAlike places.reading (VariantAlike places.reading))
      variants variants') :
    declaredVariants variants = declaredVariants variants' := by
  rw [declaredVariants, declaredVariants]
  congr 1
  induction alike with
  | nil => rfl
  | cons first _ inductionHypothesis =>
      have sameName : _ = _ := first.values.names
      have sameDocs := (notes_eq first.notes).1
      rw [List.map_cons, List.map_cons, inductionHypothesis, sameName, sameDocs,
        number_eq first.values.values]

variable {notes notes' : Annotations} (path : String) (line line' : Nat) (name : String)

theorem recordFindings_lineless {record record' : RecordBody}
    (same : notes.docs = notes'.docs ∧ notes.attributes = notes'.attributes)
    (alike : BodyAlike places.reading record record') :
    (recordFindings ⟨path, line⟩ notes name record).map Finding.lineless =
      (recordFindings ⟨path, line'⟩ notes' name record').map Finding.lineless := by
  have sameTag : tag? notes = tag? notes' := by
    simp only [tag?, find?_eq same.2]
  have sameDerives : notes.derives "Accounts" = notes'.derives "Accounts" := by
    rw [Annotations.derives, Annotations.derives, same.2]
  unfold recordFindings
  simp only [declaredFields_eq alike, same.1, sameTag, sameDerives]
  cases tag? notes' with
  | some tagged =>
      cases alike with
      | named | tuple | unit => rfl
  | none =>
      dsimp only
      split
      · rfl
      · cases alike with
        | named | tuple | unit => rfl

theorem enumFindings_lineless {variants variants' : List (Annotated VariantItem)}
    (same : notes.docs = notes'.docs ∧ notes.attributes = notes'.attributes)
    (alike : List.Forall₂ (AnnotatedAlike places.reading (VariantAlike places.reading))
      variants variants') :
    (enumFindings ⟨path, line⟩ notes name variants).map Finding.lineless =
      (enumFindings ⟨path, line'⟩ notes' name variants').map Finding.lineless := by
  unfold enumFindings
  simp only [declaredVariants_eq alike, same.1, find?_eq same.2]
  cases notes'.find? "discriminator" with
  | some attr => rfl
  | none =>
      cases notes'.find? "error" with
      | some attr => rfl
      | none => rfl

theorem macroCallFindings_lineless (depth : Nat) {called called' arguments arguments' : String}
    (paths : lastSegment called = lastSegment called')
    (texts : declaredAddress? arguments = declaredAddress? arguments') :
    (macroCallFindings ⟨path, line⟩ depth called arguments).map Finding.lineless =
      (macroCallFindings ⟨path, line'⟩ depth called' arguments').map Finding.lineless := by
  rw [macroCallFindings, macroCallFindings, paths, texts]
  split
  · rfl
  · rfl

theorem macroRulesFindings_lineless {rules rules' : List MacroRule}
    (same : notes.docs = notes'.docs)
    (alike : List.Forall₂ (RuleAlike places.reading) rules rules') :
    (macroRulesFindings ⟨path, line⟩ notes name rules).map Finding.lineless =
      (macroRulesFindings ⟨path, line'⟩ notes' name rules').map Finding.lineless := by
  have sameRules : rules.filterMap seedRule? = rules'.filterMap seedRule? := by
    rw [← List.map_id (rules.filterMap _), ← List.map_id (rules'.filterMap _)]
    apply map_filterMap_eq alike
    intro rule rule' related
    have sameMatcher : macroParameters _ = macroParameters _ := related.matchers
    have sameBody : compact _ = compact _ := related.bodies
    simp only [seedRule?, sameMatcher, sameBody]
  rw [macroRulesFindings, macroRulesFindings, sameRules, same]
  split
  · cases simplestRule? _ with
    | some rule => rfl
    | none => rfl
  · rfl

theorem map_declaration {α : Type} {wrap : Declared α → Declaration}
    (wraps : ∀ declared, (wrap declared).lineless = wrap declared.lineless)
    (declared : List (Declared α)) :
    (declared.map (Finding.declaration ∘ wrap)).map Finding.lineless =
      (declared.map Declared.lineless).map (Finding.declaration ∘ wrap) := by
  simp only [List.map_map]
  apply List.map_congr_left
  intro value _
  exact congrArg Finding.declaration (wraps value)

theorem bodyFindings_lineless (alike : FragmentsAlike places.reading body body') :
    (bodyFindings path body).map Finding.lineless =
      (bodyFindings path body').map Finding.lineless := by
  simp only [bodyFindings, List.map_append]
  rw [map_declaration fun _ => rfl, map_declaration fun _ => rfl, map_declaration fun _ => rfl,
    map_declaration fun _ => rfl, seedCalls_lineless path alike, pdaCalls_lineless path alike]

theorem functionFindings_lineless (alike : FragmentsAlike places.reading body body') :
    (functionFindings path name body).map Finding.lineless =
      (functionFindings path name body').map Finding.lineless := by
  simp only [functionFindings, List.map_append, bodyFindings_lineless path alike]
  congr 1
  split
  · rw [map_declaration fun _ => rfl, map_declaration fun _ => rfl, dispatches_lineless path alike]
  · rfl

theorem implementationFindings_lineless {ofTrait ofTrait' target target' : String}
    {bodies bodies' : List (List Fragment)} (traits : typeName ofTrait = typeName ofTrait')
    (targets : typeName target = typeName target')
    (alike : List.Forall₂ (FragmentsAlike places.reading) bodies bodies') :
    (implementationFindings ⟨path, line⟩ ofTrait target bodies).map Finding.lineless =
      (implementationFindings ⟨path, line'⟩ ofTrait' target' bodies').map Finding.lineless := by
  have sameFound : (bodies.flatMap (bodyFindings path)).map Finding.lineless =
      (bodies'.flatMap (bodyFindings path)).map Finding.lineless := by
    rw [List.map_flatMap, List.map_flatMap]
    exact flatMap_eq alike fun _ _ => bodyFindings_lineless path
  have sameChecks := flatMap_eq alike fun _ _ => assertions_eq
  by_cases checking : typeName ofTrait' = "ProcessAccountInfos"
  · simp only [implementationFindings, List.map_append, traits, targets, sameChecks, sameFound,
      if_pos checking, List.map_cons, List.map_nil, Finding.lineless, Declaration.lineless,
      Declared.lineless]
  · simp only [implementationFindings, List.map_append, traits, sameFound, if_neg checking]

omit notes notes' line line' in
mutual

theorem itemFindings_lineless {notes notes' : Annotations} (line line' depth : Nat)
    (same : notes.docs = notes'.docs ∧ notes.attributes = notes'.attributes) {item item' : Item} :
    ItemAlike places.reading item item' →
      (itemFindings path depth notes line item).map Finding.lineless =
        (itemFindings path depth notes' line' item').map Finding.lineless
  | .record names bodies => by
      rw [itemFindings, itemFindings, names]
      exact recordFindings_lineless path line line' _ same bodies
  | .enumeration names alike => by
      rw [itemFindings, itemFindings, names]
      exact enumFindings_lineless path line line' _ same alike
  | .constant names types values => by
      have sameType : compact _ = compact _ := types
      have sameValue : compact _ = compact _ := values
      rw [itemFindings, itemFindings, names, same.1, sameType, sameValue]
      rfl
  | .macroCall paths texts => by
      rw [itemFindings, itemFindings]
      exact macroCallFindings_lineless path line line' depth paths texts
  | .macroRules names alike => by
      rw [itemFindings, itemFindings, names]
      exact macroRulesFindings_lineless path line line' _ same.1 alike
  | .module alike => by
      rw [itemFindings, itemFindings]
      exact findings_lineless (depth + 1) alike
  | .function names bodies => by
      rw [itemFindings, itemFindings, names]
      exact functionFindings_lineless path _ bodies
  | .implementation traits targets alike => by
      rw [itemFindings, itemFindings]
      exact implementationFindings_lineless path line line' traits targets alike
  | .other => rfl

/-- Items that read the same declare the same, apart from lines. -/
theorem findings_lineless (depth : Nat) {items items' : List (Annotated Item)} :
    ItemsAlike places.reading items items' →
      (findings path depth items).map Finding.lineless =
        (findings path depth items').map Finding.lineless
  | .nil => rfl
  | @ItemsAlike.cons _ ⟨_, line, _⟩ ⟨_, line', _⟩ _ _ notes values behind => by
      rw [findings, findings, List.map_append, List.map_append, findings_lineless depth behind,
        annotatedFindings, annotatedFindings,
        itemFindings_lineless line line' depth (notes_eq notes) values]

end

end Reading

end ProgramIdl
