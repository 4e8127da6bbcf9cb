import Mathlib.Data.List.Forall2
import Mathlib.Data.Option.Basic
import ProgramIdl.Syntax.Grammar

/-!
# Related items

Items of one shape whose texts, names and places are related.  What is kept of an item are texts of
several kinds, names, comments, and the places where calls start and bindings end; `Relations` says
which of them are taken to be related.
-/

set_option autoImplicit false

namespace ProgramIdl.Syntax

/-- What a text that is kept of an item is read for. -/
inductive TextKind where
  /-- An expression, a type, a pattern or an array: read in compact form. -/
  | code
  /-- The path of a macro. -/
  | macroPath
  /-- The path of a type or of a function. -/
  | typePath
  /-- The value behind the name of a variant. -/
  | number
  /-- The arguments of a macro call between items. -/
  | address
  /-- What a rule of a macro matches. -/
  | matcher
  | attribute
  deriving DecidableEq, Repr

/-- Which parts of items are taken to be related. -/
structure Relations where
  text : TextKind → String → String → Prop
  name : String → String → Prop
  /-- The comments in front of one token. -/
  comments : Annotations → Annotations → Prop
  start : Nat → Nat → Prop
  stop : Nat → Nat → Prop

section Values

variable (r : Relations)

inductive CalleeAlike : Callee → Callee → Prop where
  | method {receiver receiver' name name' : String} (receivers : r.text .code receiver receiver')
      (names : r.name name name') : CalleeAlike (.method receiver name) (.method receiver' name')
  | path {text text' : String} (texts : r.text .typePath text text') :
      CalleeAlike (.path text) (.path text')

inductive FragmentAlike : Fragment → Fragment → Prop where
  | binding {name name' value value' : String} {stop stop' : Nat} (names : r.name name name')
      (values : r.text .code value value') (stops : r.stop stop stop') :
      FragmentAlike (.binding name value stop) (.binding name' value' stop')
  | macroCall {path path' arguments arguments' : String} {start start' line line' : Nat}
      (paths : r.text .macroPath path path') (texts : r.text .code arguments arguments')
      (delimiters : arguments.toList.head? = arguments'.toList.head?)
      (starts : r.start start start') :
      FragmentAlike (.macroCall path arguments start line) (.macroCall path' arguments' start' line')
  | call {callee callee' : Callee} {arguments arguments' : List String}
      {start start' line line' : Nat} (callees : CalleeAlike r callee callee')
      (texts : List.Forall₂ (r.text .code) arguments arguments') (starts : r.start start start') :
      FragmentAlike (.call callee arguments start line) (.call callee' arguments' start' line')
  | arm {pattern pattern' value value' : String} {line line' : Nat}
      (patterns : r.text .code pattern pattern') (values : r.text .code value value') :
      FragmentAlike (.arm pattern value line) (.arm pattern' value' line')

abbrev FragmentsAlike : List Fragment → List Fragment → Prop :=
  List.Forall₂ (FragmentAlike r)

structure PatternAlike (pattern pattern' : Pattern) : Prop where
  binding : Option.Rel r.name pattern.binding pattern'.binding
  fragments : FragmentsAlike r pattern.fragments pattern'.fragments

structure ExpressionAlike (expression expression' : Expression) : Prop where
  field : Option.Rel (fun field field' => r.text .code field.1 field'.1 ∧ r.name field.2 field'.2)
    expression.field expression'.field
  fragments : FragmentsAlike r expression.fragments expression'.fragments

/-- The comments and attributes in front of something. -/
inductive NotesAlike : Annotations → Annotations → Prop where
  | nil : NotesAlike [] []
  | comments {texts texts' : Annotations} (alike : r.comments texts texts') : NotesAlike texts texts'
  | spelled {text text' : String} (texts : r.text .attribute text text')
      (marked : text.toList.head? = some '#') (marked' : text'.toList.head? = some '#') :
      NotesAlike [text] [text']
  | append {first first' second second' : Annotations} (front : NotesAlike first first')
      (back : NotesAlike second second') : NotesAlike (first ++ second) (first' ++ second')

structure AnnotatedAlike {α β : Type} (related : α → β → Prop) (noted : Annotated α)
    (noted' : Annotated β) : Prop where
  notes : NotesAlike r noted.annotations noted'.annotations
  values : related noted.value noted'.value

structure FieldAlike (field field' : FieldItem) : Prop where
  names : r.name field.name.text field'.name.text
  types : r.text .code field.type field'.type

structure VariantAlike (variant variant' : VariantItem) : Prop where
  names : r.name variant.name.text variant'.name.text
  values : Option.Rel (r.text .number) variant.value variant'.value

inductive BodyAlike : RecordBody → RecordBody → Prop where
  | named {fields fields' : List (Annotated FieldItem)}
      (alike : List.Forall₂ (AnnotatedAlike r (FieldAlike r)) fields fields') :
      BodyAlike (.named fields) (.named fields')
  | tuple : BodyAlike .tuple .tuple
  | unit : BodyAlike .unit .unit

structure RuleAlike (rule rule' : MacroRule) : Prop where
  matchers : r.text .matcher rule.matcher rule'.matcher
  bodies : r.text .code rule.body rule'.body

mutual

inductive ItemAlike : Item → Item → Prop where
  | record {name name' : Name} {body body' : RecordBody} (names : r.name name.text name'.text)
      (bodies : BodyAlike r body body') : ItemAlike (.record name body) (.record name' body')
  | enumeration {name name' : Name} {variants variants' : List (Annotated VariantItem)}
      (names : r.name name.text name'.text)
      (alike : List.Forall₂ (AnnotatedAlike r (VariantAlike r)) variants variants') :
      ItemAlike (.enumeration name variants) (.enumeration name' variants')
  | constant {name name' : Name} {type type' value value' : String}
      (names : r.name name.text name'.text) (types : r.text .code type type')
      (values : r.text .code value value') :
      ItemAlike (.constant name type value) (.constant name' type' value')
  | macroCall {path path' arguments arguments' : String} (paths : r.text .macroPath path path')
      (texts : r.text .address arguments arguments') :
      ItemAlike (.macroCall path arguments) (.macroCall path' arguments')
  | macroRules {name name' : Name} {rules rules' : List MacroRule}
      (names : r.name name.text name'.text)
      (alike : List.Forall₂ (RuleAlike r) rules rules') :
      ItemAlike (.macroRules name rules) (.macroRules name' rules')
  | module {items items' : List (Annotated Item)} (alike : ItemsAlike items items') :
      ItemAlike (.module items) (.module items')
  | function {name name' : Name} {body body' : List Fragment}
      (names : r.name name.text name'.text) (bodies : FragmentsAlike r body body') :
      ItemAlike (.function name body) (.function name' body')
  | implementation {ofTrait ofTrait' target target' : String} {bodies bodies' : List (List Fragment)}
      (traits : r.text .typePath ofTrait ofTrait') (targets : r.text .typePath target target')
      (alike : List.Forall₂ (FragmentsAlike r) bodies bodies') :
      ItemAlike (.implementation ofTrait target bodies) (.implementation ofTrait' target' bodies')
  | other : ItemAlike .other .other

inductive ItemsAlike : List (Annotated Item) → List (Annotated Item) → Prop where
  | nil : ItemsAlike [] []
  | cons {item item' : Annotated Item} {rest rest' : List (Annotated Item)}
      (notes : NotesAlike r item.annotations item'.annotations)
      (values : ItemAlike item.value item'.value) (behind : ItemsAlike rest rest') :
      ItemsAlike (item :: rest) (item' :: rest')

end

structure ParsedAlike (parsed parsed' : ParsedItem) : Prop where
  items : ItemAlike r parsed.item parsed'.item
  fragments : FragmentsAlike r parsed.fragments parsed'.fragments

end Values

/-! ## The texts that are kept -/

/-- A text that is kept, with what it is read for. -/
abbrev Kept := TextKind × String

def Callee.kept : Callee → List Kept
  | .method receiver _ => [(.code, receiver)]
  | .path text => [(.typePath, text)]

def Fragment.kept : Fragment → List Kept
  | .binding _ value _ => [(.code, value)]
  | .macroCall path arguments _ _ => [(.macroPath, path), (.code, arguments)]
  | .call callee arguments _ _ => callee.kept ++ arguments.map (.code, ·)
  | .arm pattern value _ => [(.code, pattern), (.code, value)]

/-- The attributes among some annotations. -/
def keptAttributes (annotations : Annotations) : List Kept :=
  (annotations.filter fun note => note.toList.head? = some '#').map (.attribute, ·)

def FieldItem.kept (field : Annotated FieldItem) : List Kept :=
  keptAttributes field.annotations ++ [(.code, field.value.type)]

def VariantItem.kept (variant : Annotated VariantItem) : List Kept :=
  keptAttributes variant.annotations ++ variant.value.value.toList.map (.number, ·)

def RecordBody.kept : RecordBody → List Kept
  | .named fields => fields.flatMap FieldItem.kept
  | _ => []

def MacroRule.kept (rule : MacroRule) : List Kept :=
  [(.matcher, rule.matcher), (.code, rule.body)]

mutual

/-- The texts that are kept of an item. -/
def Item.kept : Item → List Kept
  | .record _ body => body.kept
  | .enumeration _ variants => variants.flatMap VariantItem.kept
  | .constant _ type value => [(.code, type), (.code, value)]
  | .macroCall path arguments => [(.macroPath, path), (.address, arguments)]
  | .macroRules _ rules => rules.flatMap MacroRule.kept
  | .module items => keptTexts items
  | .function _ body => body.flatMap Fragment.kept
  | .implementation ofTrait target bodies =>
      (.typePath, ofTrait) :: (.typePath, target) :: bodies.flatMap fun body =>
        body.flatMap Fragment.kept
  | .other => []

/-- The texts that are kept of an item with its attributes. -/
def annotatedKept : Annotated Item → List Kept
  | ⟨annotations, _, item⟩ => keptAttributes annotations ++ item.kept

/-- The texts that are kept of some items. -/
def keptTexts : List (Annotated Item) → List Kept
  | [] => []
  | item :: rest => annotatedKept item ++ keptTexts rest

end

theorem annotatedKept_eq (item : Annotated Item) :
    annotatedKept item = keptAttributes item.annotations ++ item.value.kept := by
  obtain ⟨annotations, line, value⟩ := item
  rw [annotatedKept]

/-- Two kept texts are of one kind and related. -/
def Kept.Related (text : TextKind → String → String → Prop) (kept kept' : Kept) : Prop :=
  kept.1 = kept'.1 ∧ text kept.1 kept.2 kept'.2

/-- The parts of two lists whose front parts have one length are related part by part. -/
theorem forall₂_append_inv {α β : Type} {related : α → β → Prop} {first second : List α}
    {first' second' : List β} (alike : List.Forall₂ related (first ++ second) (first' ++ second'))
    (lengths : first.length = first'.length) :
    List.Forall₂ related first first' ∧ List.Forall₂ related second second' := by
  induction first generalizing first' with
  | nil =>
      obtain rfl := List.length_eq_zero_iff.mp lengths.symm
      exact ⟨.nil, alike⟩
  | cons value first inductionHypothesis =>
      cases first' with
      | nil => cases lengths
      | cons value' first' =>
          cases alike with
          | cons values rest =>
              obtain ⟨front, back⟩ := inductionHypothesis rest (Nat.succ.inj lengths)
              exact ⟨.cons values front, back⟩

/-- Relations of which the second ones hold of everything but texts where the first ones do. -/
structure Relations.Implies (r r' : Relations) : Prop where
  name {name name' : String} : r.name name name' → r'.name name name'
  comments {texts texts' : Annotations} : r.comments texts texts' → r'.comments texts texts'
  start {start start' : Nat} : r.start start start' → r'.start start start'
  stop {stop stop' : Nat} : r.stop stop stop' → r'.stop stop stop'
  plain {texts texts' : Annotations} : r.comments texts texts' →
    keptAttributes texts = [] ∧ keptAttributes texts' = []

/-- Kept texts are related one by one, and if they are related in a second way too, then so is what
they are kept of. -/
structure Told (r r' : Relations) (kept kept' : List Kept) (related : Prop) : Prop where
  texts : List.Forall₂ (Kept.Related r.text) kept kept'
  again : List.Forall₂ (Kept.Related r'.text) kept kept' → related

section Told

variable {r r' : Relations} {kept kept' more more' : List Kept} {related other : Prop}

theorem Told.nil (holds : related) : Told r r' [] [] related :=
  ⟨.nil, fun _ => holds⟩

theorem Told.single {kind : TextKind} {text text' : String} (texts : r.text kind text text') :
    Told r r' [(kind, text)] [(kind, text')] (r'.text kind text text') := by
  refine ⟨.cons ⟨rfl, texts⟩ .nil, fun again => ?_⟩
  cases again with
  | cons first _ => exact first.2

theorem Told.append (first : Told r r' kept kept' related) (second : Told r r' more more' other) :
    Told r r' (kept ++ more) (kept' ++ more') (related ∧ other) := by
  refine ⟨List.rel_append first.texts second.texts, fun again => ?_⟩
  obtain ⟨front, back⟩ := forall₂_append_inv again first.texts.length_eq
  exact ⟨first.again front, second.again back⟩

theorem Told.imp (told : Told r r' kept kept' related) (implies : related → other) :
    Told r r' kept kept' other :=
  ⟨told.texts, fun again => implies (told.again again)⟩

theorem told_flatMap {α : Type} {first second : α → α → Prop} {keptOf : α → List Kept}
    {values values' : List α} (alike : List.Forall₂ first values values')
    (each : ∀ value value', first value value' →
      Told r r' (keptOf value) (keptOf value') (second value value')) :
    Told r r' (values.flatMap keptOf) (values'.flatMap keptOf)
      (List.Forall₂ second values values') := by
  induction alike with
  | nil => exact .nil .nil
  | cons value _ inductionHypothesis =>
      rw [List.flatMap_cons, List.flatMap_cons]
      exact ((each _ _ value).append inductionHypothesis).imp fun both => .cons both.1 both.2

theorem told_map {kind : TextKind} {texts texts' : List String}
    (alike : List.Forall₂ (r.text kind) texts texts') :
    Told r r' (texts.map (kind, ·)) (texts'.map (kind, ·))
      (List.Forall₂ (r'.text kind) texts texts') := by
  induction alike with
  | nil => exact .nil .nil
  | cons text _ inductionHypothesis =>
      exact ((Told.single text).append inductionHypothesis).imp fun both => .cons both.1 both.2

theorem told_option {kind : TextKind} {text text' : Option String}
    (alike : Option.Rel (r.text kind) text text') :
    Told r r' (text.toList.map (kind, ·)) (text'.toList.map (kind, ·))
      (Option.Rel (r'.text kind) text text') := by
  cases alike with
  | none => exact .nil .none
  | some texts => exact (Told.single texts).imp .some

variable (implies : r.Implies r')

include implies

theorem CalleeAlike.told {callee callee' : Callee} (alike : CalleeAlike r callee callee') :
    Told r r' callee.kept callee'.kept (CalleeAlike r' callee callee') := by
  cases alike with
  | method receivers names =>
      exact (Told.single receivers).imp fun again => .method again (implies.name names)
  | path texts => exact (Told.single texts).imp .path

theorem FragmentAlike.told {fragment fragment' : Fragment}
    (alike : FragmentAlike r fragment fragment') :
    Told r r' fragment.kept fragment'.kept (FragmentAlike r' fragment fragment') := by
  cases alike with
  | binding names values stops =>
      exact (Told.single values).imp fun again =>
        .binding (implies.name names) again (implies.stop stops)
  | macroCall paths texts delimiters starts =>
      exact ((Told.single paths).append (Told.single texts)).imp fun again =>
        .macroCall again.1 again.2 delimiters (implies.start starts)
  | call callees texts starts =>
      exact ((callees.told implies).append (told_map texts)).imp fun again =>
        .call again.1 again.2 (implies.start starts)
  | arm patterns values =>
      exact ((Told.single patterns).append (Told.single values)).imp fun again =>
        .arm again.1 again.2

theorem FragmentsAlike.told {fragments fragments' : List Fragment}
    (alike : FragmentsAlike r fragments fragments') :
    Told r r' (fragments.flatMap Fragment.kept) (fragments'.flatMap Fragment.kept)
      (FragmentsAlike r' fragments fragments') :=
  told_flatMap alike fun _ _ fragment => fragment.told implies

theorem NotesAlike.told {notes notes' : Annotations} (alike : NotesAlike r notes notes') :
    Told r r' (keptAttributes notes) (keptAttributes notes') (NotesAlike r' notes notes') := by
  induction alike with
  | nil => exact .nil .nil
  | comments alike =>
      obtain ⟨none, none'⟩ := implies.plain alike
      rw [none, none']
      exact .nil (.comments (implies.comments alike))
  | spelled texts marked marked' =>
      simp only [keptAttributes, List.filter_singleton, marked, marked', decide_true]
      exact (Told.single texts).imp fun again => .spelled again marked marked'
  | append front back first second =>
      simp only [keptAttributes, List.filter_append, List.map_append]
      exact (first.append second).imp fun both => .append both.1 both.2

theorem FieldItem.told {field field' : Annotated FieldItem}
    (alike : AnnotatedAlike r (FieldAlike r) field field') :
    Told r r' (FieldItem.kept field) (FieldItem.kept field')
      (AnnotatedAlike r' (FieldAlike r') field field') :=
  ((alike.notes.told implies).append (Told.single alike.values.types)).imp fun again =>
    ⟨again.1, implies.name alike.values.names, again.2⟩

theorem VariantItem.told {variant variant' : Annotated VariantItem}
    (alike : AnnotatedAlike r (VariantAlike r) variant variant') :
    Told r r' (VariantItem.kept variant) (VariantItem.kept variant')
      (AnnotatedAlike r' (VariantAlike r') variant variant') := by
  have names := implies.name alike.values.names
  exact ((alike.notes.told implies).append (told_option alike.values.values)).imp fun again => ⟨again.1, names, again.2⟩

theorem BodyAlike.told {body body' : RecordBody} (alike : BodyAlike r body body') :
    Told r r' body.kept body'.kept (BodyAlike r' body body') := by
  cases alike with
  | named fields =>
      exact (told_flatMap fields fun _ _ field => FieldItem.told implies field).imp .named
  | tuple => exact .nil .tuple
  | unit => exact .nil .unit

omit implies in
theorem RuleAlike.told {rule rule' : MacroRule} (alike : RuleAlike r rule rule') :
    Told r r' rule.kept rule'.kept (RuleAlike r' rule rule') :=
  ((Told.single alike.matchers).append (Told.single alike.bodies)).imp fun again =>
    ⟨again.1, again.2⟩

mutual

theorem ItemAlike.told {item item' : Item} :
    ItemAlike r item item' → Told r r' item.kept item'.kept (ItemAlike r' item item')
  | .record names bodies => (bodies.told implies).imp (.record (implies.name names))
  | .enumeration names alike =>
      (told_flatMap alike fun _ _ variant => VariantItem.told implies variant).imp
        (.enumeration (implies.name names))
  | .constant names types values =>
      ((Told.single types).append (Told.single values)).imp fun again =>
        .constant (implies.name names) again.1 again.2
  | .macroCall paths texts =>
      ((Told.single paths).append (Told.single texts)).imp fun again => .macroCall again.1 again.2
  | .macroRules names alike =>
      (told_flatMap alike fun _ _ rule => rule.told).imp (.macroRules (implies.name names))
  | .module alike => alike.told.imp .module
  | .function names bodies => (FragmentsAlike.told implies bodies).imp (.function (implies.name names))
  | .implementation traits targets alike => by
      have bodies := told_flatMap alike fun _ _ body => FragmentsAlike.told implies body
      have whole := (Told.single traits).append ((Told.single targets).append bodies)
      exact whole.imp fun again => .implementation again.1 again.2.1 again.2.2
  | .other => .nil .other

theorem ItemsAlike.told {items items' : List (Annotated Item)} :
    ItemsAlike r items items' → Told r r' (keptTexts items) (keptTexts items')
      (ItemsAlike r' items items')
  | .nil => .nil .nil
  | .cons notes values behind => by
      rw [keptTexts, keptTexts, annotatedKept_eq, annotatedKept_eq]
      have whole := ((notes.told implies).append values.told).append behind.told
      exact whole.imp fun again => .cons again.1.1 again.1.2 again.2

end

end Told

end ProgramIdl.Syntax
