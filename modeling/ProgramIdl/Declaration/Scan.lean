import ProgramIdl.Declaration.Body
import ProgramIdl.Failure
import ProgramIdl.Notice
import ProgramIdl.Syntax.Grammar.Item

/-!
# Declarations of a file

The items of a file are read in order, those of its modules included.  Each yields findings: mostly
declarations.  A tagged struct without named fields ends the reading.
-/

set_option autoImplicit false

namespace ProgramIdl

open ProgramIdl.Text
open ProgramIdl.Syntax

/-- What the reading of an item yields. -/
inductive Finding where
  | declaration (declaration : Declaration)
  | notice (notice : Notice)
  | failure (failure : Failure)
  deriving DecidableEq, Repr

/-- The named fields of a struct. -/
def declaredFields : RecordBody → List Field
  | .named fields => fields.map fun field =>
      { name := field.value.name.text
        type := compact field.value.type
        docs := field.annotations.docs }
  | _ => []

/-- The variants of an enum with their values. -/
def declaredVariants (variants : List (Annotated VariantItem)) : List Variant :=
  Variant.number (variants.map fun variant =>
    { name := variant.value.name.text
      explicit := variant.value.value.bind Literal.integer?
      docs := variant.annotations.docs })

/-- The first tag that some annotations give a struct, in the order of the tags. -/
def tag? (annotations : Annotations) : Option (Tag × Attribute) :=
  [Tag.account, .instruction, .event].findSome? fun tag =>
    (annotations.find? tag.word).map (tag, ·)

/-- What a struct declares. -/
def recordFindings (site : Site) (annotations : Annotations) (name : String) (body : RecordBody) :
    List Finding :=
  let fields := declaredFields body
  let docs := annotations.docs
  match tag? annotations, body with
  | some _, .tuple =>
      [.failure (.unsupportedType name "<tuple struct>" (some site.toString))]
  | some (tag, attr), _ =>
      [.declaration (.tagged tag {
        name := name
        site := site
        docs := docs
        content := {
          enum := attr.argument? "discriminator"
          variant := attr.argument? "variant"
          fields := fields } })]
  | none, body =>
      if annotations.derives "Accounts" then
        [.declaration (.accounts ⟨name, site, docs, ⟨fields⟩⟩)]
      else
        match body with
        | .named _ => [.declaration (.record ⟨name, site, docs, ⟨fields⟩⟩)]
        | _ => []

/-- What an enum declares. -/
def enumFindings (site : Site) (annotations : Annotations) (name : String)
    (variants : List (Annotated VariantItem)) : List Finding :=
  let variants := declaredVariants variants
  let docs := annotations.docs
  match annotations.find? "discriminator", annotations.find? "error" with
  | some attr, _ =>
      [.declaration (.discriminator {
        name := name
        site := site
        docs := docs
        content := {
          primitive := attr.argument? "primitive"
          repr := (annotations.find? "repr").map (·.arguments)
          isFinal := attr.hasFlag "final"
          variants := variants } })]
  | none, some attr =>
      [.declaration (.error ⟨name, site, docs, ⟨attr.hasFlag "final", variants⟩⟩)]
  | none, none => []

/-- The address in the arguments of its macro. -/
def declaredAddress? (arguments : String) : Option String := do
  let address ← Literal.firstCooked arguments.toList
  if (trim address).isEmpty then none else return .ofList (trim address)

/-- What a macro call between items declares. -/
def macroCallFindings (site : Site) (depth : Nat) (path arguments : String) : List Finding :=
  if lastSegment path = "declare_id" then
    [.declaration (.programId {
      name := "declare_id"
      site := site
      content := ⟨(declaredAddress? arguments).getD "", depth⟩ })]
  else []

/-- The parameters that the text of a matcher names. -/
def macroParameters : List Char → List String
  | [] => []
  | c :: rest =>
      let name := rest.takeWhile isWordChar
      if c = '$' && !name.isEmpty && (trimStart (rest.dropWhile isWordChar)).head? = some ':' then
        .ofList name :: macroParameters rest
      else macroParameters rest

/-- The seeds that a rule of a macro yields. -/
def seedRule? (rule : MacroRule) : Option SeedMacro :=
  (seedElements? (compact rule.body)).map fun seeds =>
    ⟨macroParameters rule.matcher.toList, seeds⟩

/-- The first of some rules with the fewest parameters. -/
def simplestRule? : List SeedMacro → Option SeedMacro
  | [] => none
  | rule :: rest =>
      match simplestRule? rest with
      | some best => some (if best.params.length < rule.params.length then best else rule)
      | none => some rule

/-- What a declarative macro declares. -/
def macroRulesFindings (site : Site) (annotations : Annotations) (name : String)
    (rules : List MacroRule) : List Finding :=
  if occursIn "seeds".toList name.toList then
    match simplestRule? (rules.filterMap seedRule?) with
    | some rule => [.declaration (.seedMacro ⟨name, site, annotations.docs, rule⟩)]
    | none => [.notice (.barrenSeedMacro name)]
  else []

/-- What any function body declares. -/
def bodyFindings (path : String) (body : List Fragment) : List Finding :=
  (seedCalls path body).map (.declaration ∘ .seedCall)
    ++ (pdaCalls path body).map (.declaration ∘ .pdaCall)

/-- What a function declares; one of them chooses the accounts of each instruction. -/
def functionFindings (path name : String) (body : List Fragment) : List Finding :=
  bodyFindings path body ++
    if name = "process_instruction" then (dispatches path body).map (.declaration ∘ .dispatch)
    else []

/-- What an implementation declares; one trait's functions check the accounts of an instruction. -/
def implementationFindings (site : Site) (ofTrait target : String) (bodies : List (List Fragment)) :
    List Finding :=
  (if typeName ofTrait = "ProcessAccountInfos" then
    [.declaration (.processor {
      name := typeName target, site := site, content := ⟨bodies.flatMap assertions⟩ })]
  else []) ++ bodies.flatMap (bodyFindings site.path)

mutual

/-- What an item declares that stands inside a number of modules. -/
def itemFindings (path : String) (depth : Nat) (annotations : Annotations) (line : Nat) :
    Item → List Finding
  | .record name body => recordFindings ⟨path, line⟩ annotations name.text body
  | .enumeration name variants => enumFindings ⟨path, line⟩ annotations name.text variants
  | .constant name type value =>
      [.declaration (.constant {
        name := name.text
        site := ⟨path, line⟩
        docs := annotations.docs
        content := ⟨compact type, compact value⟩ })]
  | .macroCall macroPath arguments => macroCallFindings ⟨path, line⟩ depth macroPath arguments
  | .macroRules name rules => macroRulesFindings ⟨path, line⟩ annotations name.text rules
  | .module items => findings path (depth + 1) items
  | .function name body => functionFindings path name.text body
  | .implementation ofTrait target bodies =>
      implementationFindings ⟨path, line⟩ ofTrait target bodies
  | .other => []

/-- What an annotated item declares. -/
def annotatedFindings (path : String) (depth : Nat) : Annotated Item → List Finding
  | ⟨annotations, line, item⟩ => itemFindings path depth annotations line item

/-- What some items declare, in order. -/
def findings (path : String) (depth : Nat) : List (Annotated Item) → List Finding
  | [] => []
  | item :: rest => annotatedFindings path depth item ++ findings path depth rest

end

/-- The declarations among some findings, up to the first failure. -/
def gather : List Finding → Reporting (List Declaration)
  | [] => return []
  | .declaration declaration :: rest => return declaration :: (← gather rest)
  | .notice notice :: rest => do
      report notice
      gather rest
  | .failure failure :: _ => throw failure

/-- The declarations of a file. -/
structure ScannedFile where
  path : String
  declarations : List Declaration
  deriving DecidableEq, Repr

/-- The declarations of a file with a given text. -/
def scan (path text : String) : Reporting ScannedFile := do
  match Syntax.itemsOf? text with
  | none => throw (.malformed (.ofString path) none "")
  | some items =>
      let declarations ← gather (findings path 0 items)
      report (.scanned path declarations.length)
      return ⟨path, declarations⟩

end ProgramIdl
