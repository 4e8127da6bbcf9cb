import ProgramIdl.Proofs.Pda.LiteralSeeds
import ProgramIdl.Proofs.Program.SlotPdas

/-!
# The bytes of literal seeds

The seeds of an address are written as an array in the source, in a rule of a macro or in a call.  A
byte-string literal in that array, or the value of a constant that it names, reaches the program with
the bytes that it denotes (`assemble_byteSeeds`), if compacting leaves its text as it is; otherwise it
may reach it with others (`not_byteSeeds_spaces`).
-/

set_option autoImplicit false

namespace ProgramIdl

open ProgramIdl.Text
open ProgramIdl.Syntax
open ProgramIdl.Literal

/-! ## Sources -/

/-- A file with the items that it has been read from. -/
structure Source where
  file : ScannedFile
  items : List (Annotated Item)
  read : file.ReadFrom items

/-- The constant that an item is, with the text of its value. -/
def Syntax.Item.constant? : Item → Option (String × String)
  | .constant name _ value => some (name.text, value)
  | _ => none

/-- The constants among some items, those in modules included. -/
def Syntax.constants (items : List (Annotated Item)) : List (String × String) :=
  (leaves 0 items).filterMap fun leaf => leaf.2.value.constant?

/-- A constant of this name is written with this value, and no other constant has the name. -/
structure ConstantIs (sources : List Source) (name value : String) : Prop where
  written : ∃ source ∈ sources, (name, value) ∈ constants source.items
  only : ∀ source ∈ sources, ∀ other, (name, other) ∈ constants source.items → other = value

theorem mem_constants_iff {files : List ScannedFile} {constant : Declared Constant} :
    constant ∈ (Declarations.ofFiles files).constants ↔
      ∃ file ∈ files, .constant constant ∈ file.declarations := by
  refine mem_ofFiles_iff fun declaration value => ?_
  cases declaration <;> simp [Declaration.constant?]

theorem mem_seedMacros_iff {files : List ScannedFile} {definition : Declared SeedMacro} :
    definition ∈ (Declarations.ofFiles files).seedMacros ↔
      ∃ file ∈ files, .seedMacro definition ∈ file.declarations := by
  refine mem_ofFiles_iff fun declaration value => ?_
  cases declaration <;> simp [Declaration.seedMacro?]

theorem lookup_of_only {entries : List (String × String)} {name value : String}
    (listed : ∃ other, (name, other) ∈ entries)
    (only : ∀ other, (name, other) ∈ entries → other = value) :
    entries.lookup name = some value := by
  cases found : entries.lookup name with
  | none =>
      obtain ⟨other, member⟩ := listed
      have absent := List.lookup_eq_none_iff.mp found (name, other) member
      simp at absent
  | some other => rw [only other (mem_of_lookup found)]

/-- The constant is looked up by its compact text. -/
theorem ConstantIs.lookup_eq {sources : List Source} {name value : String}
    (constant : ConstantIs sources name value) :
    (Declarations.ofFiles (sources.map (·.file))).constantTexts.lookup name =
      some (compact value) := by
  refine lookup_of_only ?_ ?_
  · obtain ⟨source, member, written⟩ := constant.written
    obtain ⟨⟨depth, ⟨annotations, line, item⟩⟩, leaf, found⟩ := List.mem_filterMap.mp written
    cases item with
    | constant word type text =>
        obtain ⟨rfl, rfl⟩ := Prod.mk.inj (Option.some.inj found)
        have declared : Declaration.constant ⟨word.text, ⟨source.file.path, line⟩,
            annotations.docs, ⟨compact type, compact text⟩⟩ ∈ source.file.declarations :=
          source.read.mem_declarations_iff.mpr ⟨_, leaf, by simp [annotatedFindings, itemFindings]⟩
        exact ⟨compact text, List.mem_map.mpr ⟨_, mem_constants_iff.mpr
          ⟨source.file, List.mem_map_of_mem member, declared⟩, rfl⟩⟩
    | _ => cases found
  · intro other listed
    obtain ⟨declared, member, same⟩ := List.mem_map.mp listed
    obtain ⟨rfl, rfl⟩ := Prod.mk.inj same
    obtain ⟨file, inFiles, inFile⟩ := mem_constants_iff.mp member
    obtain ⟨source, inSources, rfl⟩ := List.mem_map.mp inFiles
    obtain ⟨depth, annotations, line, item, leaf, found, declares⟩ := source.read.exists_item inFile
    cases item with
    | constant word type text =>
        have single := List.mem_singleton.mp found
        injection single with single
        injection single with single
        subst single
        rw [constant.only source inSources text (List.mem_filterMap.mpr ⟨_, leaf, rfl⟩)]
    | _ => cases declares

/-! ## Where seeds are written -/

/-- A place where an array of seeds is written: a rule of a macro, with what its parameters are bound
to, or the first argument of a call, with the local names around it. -/
inductive SeedSite where
  | rule (body : String) (bound : String → Option String)
  | call (argument : String) (locals : List Binding) (place : Nat)

namespace SeedSite

/-- The local name that stands for something else there. -/
def local? : SeedSite → String → Option String
  | .rule _ _, _ => none
  | .call _ locals place, name => boundAt? locals name place

/-- What an element stands for. -/
def standsFor : SeedSite → String → String
  | .rule _ bound, element => SeedTable.standsFor bound element
  | .call _ locals place, element => resolve locals place element

/-- The text of the array, or a text that the argument of the call stands for. -/
def Writes : SeedSite → String → Prop
  | .rule body _, text => text = body
  | .call argument locals place, text => text = argument ∧ opensArray text.toList = true ∨
      resolve locals place (compact argument) = compact text

/-- The place is one in some items from which an address of a given name is read. -/
inductive WrittenIn (declarations : Declarations) (items : List (Annotated Item)) :
    String → SeedSite → Prop where
  | rule {depth line : Nat} {annotations : Annotations} {name : Name} {rules : List MacroRule}
      {rule : MacroRule} {definition : Declared SeedMacro}
      (leaf : (depth, ⟨annotations, line, .macroRules name rules⟩) ∈ leaves 0 items)
      (named : definition.name = name.text)
      (chosen : simplestRule? (rules.filterMap seedRule?) = some definition.content)
      (listed : rule ∈ rules) (yields : seedRule? rule = some definition.content) :
      WrittenIn declarations items (Pda.nameOfMacro definition.name)
        (.rule rule.body (Pda.boundBy declarations.seedCalls definition))
  | call {body : List Fragment} {callee : Callee} {argument : String} {others : List String}
      {start line : Nat} {seeds : List String} {constant : String}
      (inBody : body ∈ bodies items)
      (called : Fragment.call callee (argument :: others) start line ∈ body)
      (derives : calleeName callee ∈ pdaFunctions)
      (yields : pdaSeeds? (bindings body) start argument = some seeds)
      (leads : Pda.leadingConstant? declarations.constantTable seeds = some constant) :
      WrittenIn declarations items (Pda.nameOfConstant constant)
        (.call argument (bindings body) start)

end SeedSite

/-- What the literals in an element of an array come to. -/
structure Faithful (sources : List Source) (site : SeedSite) (element : List Char) (seed : Seed) :
    Prop where
  literal : ∀ front text back bytes, element = front ++ text ++ back → Blank front → Blank back →
    ByteLiteral text bytes → SingleSpaced text → (∀ name ∈ literalPrefixes, site.local? name = none) →
      seed = .literal bytes
  constant : ∀ name value bytes, ConstantIs sources name value →
    RefersTo (site.standsFor (.ofList (compactChars element))).toList name.toList →
      ByteLiteral value.toList bytes → SingleSpaced value.toList → seed = .literal bytes

namespace SeedSite

variable {site : SeedSite}

/-- No local name and no parameter is taken for a literal. -/
theorem standsFor_byteLiteral {text : List Char} {bytes : List UInt8}
    (literal : ByteLiteral text bytes)
    (free : ∀ name ∈ literalPrefixes, site.local? name = none) :
    site.standsFor (.ofList text) = .ofList text := by
  cases site with
  | rule body bound =>
      have isLiteral : (default : SeedTable).literal? (.ofList text) = some (.literal bytes) :=
        SeedTable.literal?_of_byteLiteral (by rwa [String.toList_ofList])
      have noParam : Seed.param? (Seed.subject (String.ofList text).toList) = none := by
        by_contra isParam
        obtain ⟨param, isParam⟩ := Option.ne_none_iff_exists'.mp isParam
        rw [SeedTable.literal?_of_param? isParam] at isLiteral
        cases isLiteral
      rw [standsFor, SeedTable.standsFor, noParam]
      rfl
  | call argument locals place => exact resolve_byteLiteral literal free

theorem faithful {sources : List Source} {table : SeedTable}
    (constants : table.constants =
      (Declarations.ofFiles (sources.map (·.file))).constantTexts)
    {element : List Char} {seed : Seed}
    (classified : (table.classifyUnbound
      (site.standsFor (.ofList (compactChars element)))).outcome = .ok seed) :
    Faithful sources site element seed := by
  constructor
  · intro front text back bytes split frontBlank backBlank literal spaced free
    have compacted : compactChars element = text := by
      rw [split, compactChars_append frontBlank backBlank, compactChars_of_singleSpaced spaced]
    rw [compacted, standsFor_byteLiteral literal free, SeedTable.outcome_classifyUnbound
      (SeedTable.literal?_of_byteLiteral (by rwa [String.toList_ofList]))] at classified
    exact (Except.ok.inj classified).symm
  · intro name value bytes constant refers literal spaced
    have read : byteString? (compact value) = some bytes := by
      rw [compact, compactChars_of_singleSpaced spaced]
      exact byteString?_of_byteLiteral literal
    have holds : table.constants.lookup (.ofList name.toList) = some (compact value) := by
      rw [constants, String.ofList_toList]
      exact constant.lookup_eq
    rw [SeedTable.outcome_classifyUnbound (SeedTable.literal?_of_refersTo refers holds read)]
      at classified
    exact (Except.ok.inj classified).symm

end SeedSite

theorem simplestRule?_mem {rules : List SeedMacro} {best : SeedMacro}
    (chosen : simplestRule? rules = some best) : best ∈ rules := by
  induction rules generalizing best with
  | nil => cases chosen
  | cons rule rest inductionHypothesis =>
      rw [simplestRule?] at chosen
      cases later : simplestRule? rest with
      | none =>
          rw [later] at chosen
          obtain rfl := Option.some.inj chosen
          exact List.mem_cons_self
      | some other =>
          rw [later] at chosen
          have inRest := inductionHypothesis later
          dsimp only at chosen
          split at chosen
          · obtain rfl := Option.some.inj chosen
            exact List.mem_cons_of_mem rule inRest
          · obtain rfl := Option.some.inj chosen
            exact List.mem_cons_self

/-- A seed macro is declared by its rules. -/
theorem Source.exists_rule {source : Source} {definition : Declared SeedMacro}
    (declared : Declaration.seedMacro definition ∈ source.file.declarations)
    (declarations : Declarations) : ∃ rule : MacroRule, seedRule? rule = some definition.content ∧
      SeedSite.WrittenIn declarations source.items (Pda.nameOfMacro definition.name)
        (.rule rule.body (Pda.boundBy declarations.seedCalls definition)) := by
  obtain ⟨depth, annotations, line, item, leaf, found, declares⟩ := source.read.exists_item declared
  cases item with
  | macroRules name rules =>
      rw [itemFindings, macroRulesFindings] at found
      split at found
      · split at found
        · rename_i content chosen
          have single := List.mem_singleton.mp found
          injection single with single
          injection single with single
          subst single
          obtain ⟨rule, listed, yields⟩ := List.mem_filterMap.mp (simplestRule?_mem chosen)
          exact ⟨rule, yields, .rule leaf rfl chosen listed yields⟩
        · have single := List.mem_singleton.mp found
          cases single
      · cases found
  | _ => cases declares

theorem mem_pdaCalls_of_bodyFindings {path : String} {body : List Fragment}
    {call : Declared PdaCall}
    (found : Finding.declaration (.pdaCall call) ∈ bodyFindings path body) :
    call ∈ pdaCalls path body := by
  rcases List.mem_append.mp found with called | derived
  · obtain ⟨_, _, same⟩ := List.mem_map.mp called
    cases same
  · obtain ⟨_, member, same⟩ := List.mem_map.mp derived
    cases same
    exact member

/-- A call that derives an address stands in a body. -/
theorem Source.exists_pdaCall {source : Source} {call : Declared PdaCall}
    (declared : Declaration.pdaCall call ∈ source.file.declarations) :
    ∃ body ∈ bodies source.items, call ∈ pdaCalls source.file.path body := by
  obtain ⟨depth, annotations, line, item, leaf, found, declares⟩ := source.read.exists_item declared
  have inside {body : List Fragment} (member : body ∈ item.bodies) :
      body ∈ bodies source.items := List.mem_flatMap.mpr ⟨_, leaf, member⟩
  cases item with
  | function name body =>
      rw [itemFindings, functionFindings] at found
      refine ⟨body, inside List.mem_cons_self, ?_⟩
      rcases List.mem_append.mp found with here | chosen
      · exact mem_pdaCalls_of_bodyFindings here
      · split at chosen
        · obtain ⟨_, _, same⟩ := List.mem_map.mp chosen
          cases same
        · cases chosen
  | implementation ofTrait target written =>
      rw [itemFindings, implementationFindings] at found
      rcases List.mem_append.mp found with checks | calls
      · split at checks
        · have single := List.mem_singleton.mp checks
          cases single
        · cases checks
      · obtain ⟨body, member, here⟩ := List.mem_flatMap.mp calls
        exact ⟨body, inside member, mem_pdaCalls_of_bodyFindings here⟩
  | _ => cases declares

theorem exists_of_mem_pdaCalls {path : String} {body : List Fragment} {call : Declared PdaCall}
    (listed : call ∈ pdaCalls path body) : ∃ callee argument others start line,
      Fragment.call callee (argument :: others) start line ∈ body ∧
        calleeName callee ∈ pdaFunctions ∧
          pdaSeeds? (bindings body) start argument = some call.content.seeds := by
  obtain ⟨fragment, member, found⟩ := List.mem_filterMap.mp listed
  cases fragment with
  | call callee arguments start line =>
      cases arguments with
      | nil => cases found
      | cons argument others =>
          dsimp only at found
          split at found
          · rename_i derives
            obtain ⟨seeds, yields, rfl⟩ := Option.map_eq_some_iff.mp found
            exact ⟨callee, argument, others, start, line, member, derives, yields⟩
          · cases found
  | _ => cases found

/-- Every derived address is read from an array in the source.  A literal in this array is a seed of
the bytes that it denotes, and so is the value of a constant that stands in it. -/
theorem assemble_byteSeeds {known : KnownAddresses} {name : String} {sources : List Source}
    {program : Program}
    (assembled : (assemble known name (sources.map (·.file))).outcome = .ok program) :
    ∀ pda ∈ program.pdas, ∃ source ∈ sources, ∃ site,
      SeedSite.WrittenIn (.ofFiles (sources.map (·.file))) source.items pda.name site ∧
        ∀ text elements, site.Writes text → ArrayOf text.toList elements →
          List.Forall₂ (Faithful sources site) (elements.filter isSeed) pda.seeds := by
  intro pda listed
  obtain ⟨_, layouts, collects⟩ := assembleDeclarations_eq_ok_iff.mp assembled
  have constants : (layouts.seedTable (.ofFiles (sources.map (·.file)))).constants =
      (Declarations.ofFiles (sources.map (·.file))).constantTable.constants := rfl
  rcases (Pda.extract_extracts collects.pdas).sources pda listed with
    ⟨definition, member, ofMacro⟩ | ⟨call, member, ofCall⟩
  · obtain ⟨file, inFiles, inFile⟩ := mem_seedMacros_iff.mp member
    obtain ⟨source, inSources, rfl⟩ := List.mem_map.mp inFiles
    obtain ⟨rule, yields, written⟩ := source.exists_rule inFile (.ofFiles (sources.map (·.file)))
    rw [← ofMacro.name] at written
    refine ⟨source, inSources, _, written, ?_⟩
    rintro text elements rfl array
    rw [seedRule?, seedElements?_of_arrayOf array, Option.map_some] at yields
    have seeds := ofMacro.seeds
    rw [← Option.some.inj yields, List.forall₂_map_left_iff] at seeds
    refine seeds.imp fun element seed classified => ?_
    rw [SeedTable.classify_eq] at classified
    exact SeedSite.faithful constants classified
  · obtain ⟨file, inFiles, inFile⟩ := mem_pdaCalls_iff.mp member
    obtain ⟨source, inSources, rfl⟩ := List.mem_map.mp inFiles
    obtain ⟨body, inBody, called⟩ := source.exists_pdaCall inFile
    obtain ⟨callee, argument, others, start, line, fragment, derives, yields⟩ :=
      exists_of_mem_pdaCalls called
    obtain ⟨constant, leads, named⟩ := Option.map_eq_some_iff.mp ofCall.name
    have leadsHere : Pda.leadingConstant? (Declarations.ofFiles (sources.map (·.file))).constantTable
        call.content.seeds = some constant := by
      rw [← leads, Pda.leadingConstant?, Pda.leadingConstant?,
        SeedTable.byteConstant?_congr constants]
    refine ⟨source, inSources, .call argument (bindings body) start, ?_, ?_⟩
    · rw [← named]
      exact .call inBody fragment derives yields leadsHere
    · intro text elements writes array
      have stands : resolve (bindings body) start (compact argument) = compact text := by
        rcases writes with ⟨rfl, opens⟩ | stands
        · exact resolve_opensArray opens
        · exact stands
      rw [pdaSeeds?, stands] at yields
      split at yields
      · rw [ seedElements?_of_arrayOf array, Option.map_some] at yields
        have seeds := ofCall.seeds
        rw [← Option.some.inj yields, List.forall₂_map_left_iff, List.forall₂_map_left_iff] at seeds
        refine seeds.imp fun element seed classified => ?_
        exact SeedSite.faithful constants classified
      · cases yields

/-! ## Two programs -/

/-- The bytes of a literal seed. -/
def Seed.bytes? : Seed → Option (List UInt8)
  | .literal bytes => some bytes
  | _ => none

/-- The text of a program with two derived addresses. -/
def derivedLines : List String :=
  ["macro_rules! vault_seeds \x7b ($owner:expr) => \x7b &[b\"va,ult\", $owner] \x7d; \x7d",
    "const FUND: &[u8] = br\"fu nd\";",
    "fn derive() \x7b find_program_address(&[FUND, b\"\\x01, x\"], &ID); \x7d"]

/-- What is read from the text. -/
def derivedFile : ScannedFile where
  path := "src/lib.rs"
  declarations :=
    [.seedMacro ⟨"vault_seeds", ⟨"src/lib.rs", 1⟩, [], ⟨["owner"], ["b\"va,ult\"", "$owner"]⟩⟩,
      .constant ⟨"FUND", ⟨"src/lib.rs", 2⟩, [], ⟨"&[u8]", "br\"fu nd\""⟩⟩,
      .pdaCall ⟨"find_program_address", ⟨"src/lib.rs", 3⟩, [], ⟨["FUND", "b\"\\x01, x\""]⟩⟩]

/-- A file that is read from some lines. -/
theorem exists_source (lines : List String) {file : ScannedFile} {entries : List (String × String)}
    (computed : (itemsOf? ("\n".intercalate lines)).any fun items =>
      decide ((gather (findings file.path 0 items)).outcome = .ok file.declarations ∧
        constants items = entries)) :
    ∃ source : Source, source.file = file ∧ constants source.items = entries := by
  obtain ⟨items, parsed, checked⟩ := (Option.any_eq_true _ _).mp computed
  obtain ⟨gathered, same⟩ := of_decide_eq_true checked
  exact ⟨⟨file, items, readFrom_of_gather parsed gathered⟩, rfl, same⟩

theorem constantIs_of_constants {source : Source} {name value : String}
    (single : constants source.items = [(name, value)]) : ConstantIs [source] name value := by
  refine ⟨⟨source, List.mem_singleton_self source, by simp [single]⟩, ?_⟩
  intro other member text listed
  rw [List.mem_singleton.mp member, single] at listed
  simpa using listed

theorem arrayOf_fund :
    ArrayOf "&[FUND, b\"\\x01, x\"]".toList ["FUND".toList, " b\"\\x01, x\"".toList] := by
  refine ⟨⟨['&'], [], by decide, by decide⟩, ?_⟩
  intro element member
  have plain : ∀ c ∈ [',', ' ', 'x'], c.toNat < 0x80 ∧ c ≠ '"' ∧ c ≠ '\\' ∧ c ≠ '\x0d' :=
    forall_mem_of_all (by decide)
  have zero : hexDigit? '0' = some 0 := rfl
  have one : hexDigit? '1' = some 1 := rfl
  have stands := Cooked.hexadecimal zero one (.of_plain plain)
  have word : compactChars "FUND".toList = ['F', 'U', 'N', 'D'] := by decide +kernel
  have literal : compactChars " b\"\\x01, x\"".toList =
      'b' :: '"' :: (['\\', 'x', '0', '1', ',', ' ', 'x'] ++ ['"']) := by decide +kernel
  simp only [List.mem_cons, List.not_mem_nil, or_false] at member
  rcases member with rfl | rfl
  · rw [word]
    exact .plain (.inl rfl) (.plain (.inl rfl) (.plain (.inl rfl) (.plain (.inl rfl) .nil)))
  · rw [literal]
    exact .of_cooked stands (forall_mem_of_all (by decide))

theorem assemble_byteSeeds_vault : ∃ source : Source, source.file = derivedFile ∧
    ConstantIs [source] "FUND" "br\"fu nd\"" ∧
    ArrayOf "&[FUND, b\"\\x01, x\"]".toList ["FUND".toList, " b\"\\x01, x\"".toList] ∧ ∃ program,
      (assemble .standard "vault" [derivedFile]).outcome = .ok program ∧
        program.pdas.map (fun pda => (pda.name, pda.seeds.map Seed.bytes?)) =
          [("vault", [some [118, 97, 44, 117, 108, 116], none]),
            ("fund", [some [102, 117, 32, 110, 100], some [1, 44, 32, 120]])] ∧
        ∀ pda ∈ program.pdas, ∃ other ∈ [source], ∃ site,
          SeedSite.WrittenIn (.ofFiles [derivedFile]) other.items pda.name site ∧
            ∀ text elements, site.Writes text → ArrayOf text.toList elements →
              List.Forall₂ (Faithful [source] site) (elements.filter isSeed) pda.seeds := by
  obtain ⟨source, isFile, constants⟩ : ∃ source : Source, source.file = derivedFile ∧
      Syntax.constants source.items = [("FUND", "br\"fu nd\"")] := by
    refine exists_source derivedLines ?_
    unfold derivedLines
    rw [itemsOf?_lines]
    simp only [List.map_cons, List.map_nil]
    repeat rw [String.toList_ofList]
    decide +kernel
  obtain ⟨program, assembled, seeds⟩ : ∃ program,
      (assemble .standard "vault" [derivedFile]).outcome = .ok program ∧
        decide (program.pdas.map (fun pda => (pda.name, pda.seeds.map Seed.bytes?)) =
          [("vault", [some [118, 97, 44, 117, 108, 116], none]),
            ("fund", [some [102, 117, 32, 110, 100], some [1, 44, 32, 120]])]) :=
    exists_ok_of_any (by decide +kernel)
  have files : [source].map (·.file) = [derivedFile] := by rw [List.map_singleton, isFile]
  have assembledHere : (assemble .standard "vault" ([source].map (·.file))).outcome =
      .ok program := by
    rw [files]
    exact assembled
  have faithful := assemble_byteSeeds assembledHere
  rw [files] at faithful
  exact ⟨source, isFile, constantIs_of_constants constants, arrayOf_fund, program, assembled,
    of_decide_eq_true seeds, faithful⟩

/-- The text of a program with a constant that has two spaces in a row. -/
def spacedLines : List String :=
  ["const SEED: &[u8] = b\"my  seed\";",
    "fn derive() \x7b find_program_address(&[SEED], &ID); \x7d"]

/-- What is read from the text. -/
def spacedFile : ScannedFile where
  path := "src/lib.rs"
  declarations :=
    [.constant ⟨"SEED", ⟨"src/lib.rs", 1⟩, [], ⟨"&[u8]", "b\"my seed\""⟩⟩,
      .pdaCall ⟨"find_program_address", ⟨"src/lib.rs", 2⟩, [], ⟨["SEED"]⟩⟩]

/-- One of the two spaces does not reach the program. -/
theorem not_byteSeeds_spaces : ∃ source : Source, source.file = spacedFile ∧
    ConstantIs [source] "SEED" "b\"my  seed\"" ∧
      ByteLiteral "b\"my  seed\"".toList [109, 121, 32, 32, 115, 101, 101, 100] ∧
        ∃ program, (assemble .standard "seed" [spacedFile]).outcome = .ok program ∧
          ∃ pda ∈ program.pdas, pda.name = "seed" ∧
            pda.seeds.map Seed.bytes? ≠ [some [109, 121, 32, 32, 115, 101, 101, 100]] := by
  obtain ⟨source, isFile, constants⟩ : ∃ source : Source, source.file = spacedFile ∧
      Syntax.constants source.items = [("SEED", "b\"my  seed\"")] := by
    refine exists_source spacedLines ?_
    unfold spacedLines
    rw [itemsOf?_lines]
    simp only [List.map_cons, List.map_nil]
    repeat rw [String.toList_ofList]
    decide +kernel
  obtain ⟨program, assembled, differs⟩ : ∃ program,
      (assemble .standard "seed" [spacedFile]).outcome = .ok program ∧
        decide (∃ pda ∈ program.pdas, pda.name = "seed" ∧
          pda.seeds.map Seed.bytes? ≠ [some [109, 121, 32, 32, 115, 101, 101, 100]]) :=
    exists_ok_of_any (by decide +kernel)
  have plain : ∀ c ∈ ['m', 'y', ' ', ' ', 's', 'e', 'e', 'd'],
      c.toNat < 0x80 ∧ c ≠ '"' ∧ c ≠ '\\' ∧ c ≠ '\x0d' := forall_mem_of_all (by decide)
  exact ⟨source, isFile, constantIs_of_constants constants, .cooked (.of_plain plain), program,
    assembled, of_decide_eq_true differs⟩

end ProgramIdl
