import ProgramIdl.Proofs.Pda.LiteralSeeds
import ProgramIdl.Proofs.Program.SlotPdas

/-!
# Checks and the addresses that they define

A check that is passed an array of seeds defines a derived address, named after its first seed, and
names the account that it checks after the first element of the array.  The two names are one, if the
first element is a seed that no local binding changes (`nameOfSeeds?_of_extract`).
-/

set_option autoImplicit false

namespace ProgramIdl

open ProgramIdl.Text
open ProgramIdl.Syntax

/-! ## Arrays and their first element -/

/-- An array, perhaps behind references, whose first element as it is written is `first`.  If there
is no other element, the array ends the text. -/
def LedBy (text first : List Char) : Prop :=
  ∃ signs blanks behind, text = signs ++ blanks ++ '[' :: (first ++ behind) ∧
    (∀ c ∈ signs, c = '&') ∧ Blank blanks ∧ (behind = [']'] ∨ ∃ rest, behind = ',' :: rest)

theorem dropClosing_of_not_mem {text : List Char} (unclosed : ']' ∉ text) :
    Pda.dropClosing text = text := by
  rw [Pda.dropClosing, List.dropWhile_eq_self_iff.mpr, List.reverse_reverse]
  intro nonempty closing
  apply unclosed
  rw [← of_decide_eq_true closing]
  exact List.mem_reverse.mp (List.getElem_mem _)

section LedBy

variable {text : String} {first : List Char}

theorem LedBy.exists_dereference (led : LedBy text.toList first) (flush : Flush text.toList) :
    ∃ behind, dereference text.toList = '[' :: (first ++ behind) ∧
      (behind = [']'] ∨ ∃ rest, behind = ',' :: rest) := by
  obtain ⟨signs, blanks, behind, split, allSigns, blank, kind⟩ := led
  have noSigns : signs = [] → blanks = [] := by
    rintro rfl
    rw [split, List.nil_append] at flush
    exact flush.nil_of_blank blank
  have trimmed : trim text.toList = signs ++ blanks ++ '[' :: (first ++ trimEnd behind) := by
    have visible : ∃ c ∈ behind, isBlank c = false := by
      rcases kind with rfl | ⟨rest, rfl⟩
      · exact ⟨']', List.mem_cons_self, by decide⟩
      · exact ⟨',', List.mem_cons_self, by decide⟩
    rw [trim_of_flush flush, split, ← List.cons_append, ← List.append_assoc, trimEnd_append visible,
      List.append_assoc, List.cons_append]
  have opened : trimEnd behind ≠ [] ∧ Ended (trimEnd behind) ∧
      (trimEnd behind = [']'] ∨ ∃ rest, trimEnd behind = ',' :: rest) := by
    refine ⟨?_, getLast?_trimEnd behind, ?_⟩
    all_goals
      rcases kind with rfl | ⟨rest, rfl⟩
    · decide
    · obtain ⟨more, ended⟩ := exists_trimEnd_cons (c := ',') (by decide) rest
      simp [ended]
    · exact .inl (by decide)
    · exact .inr (exists_trimEnd_cons (by decide) rest)
  have ended : Ended ('[' :: (first ++ trimEnd behind)) := by
    intro c last
    rw [← List.cons_append, List.getLast?_append_of_ne_nil _ opened.1] at last
    exact opened.2.1 c last
  refine ⟨trimEnd behind, ?_, opened.2.2⟩
  rw [← dereference_trim, trimmed, dereference_append allSigns blank noSigns
    (flush_cons_iff.mpr (by decide)) ended (by simp) (by simp)]

theorem LedBy.firstElement? (led : LedBy text.toList first) (flush : Flush text.toList)
    (plain : ∀ c ∈ first, isPlain c = true ∨ c = '(' ∨ c = ')') :
    Pda.firstElement? text = some (.ofList first) := by
  obtain ⟨behind, found, kind⟩ := led.exists_dereference flush
  have absent (mark : Char) (special : isPlain mark = false ∧ mark ≠ '(' ∧ mark ≠ ')') :
      mark ∉ first := by
    intro member
    rcases plain mark member with here | here | here
    · rw [special.1] at here
      cases here
    · exact special.2.1 here
    · exact special.2.2 here
  have kept := dropClosing_of_not_mem (absent ']' (by decide))
  rw [Pda.firstElement?, found]
  rcases kind with rfl | ⟨rest, rfl⟩
  · have whole : ',' ∉ first ++ [']'] := by
      simpa using absent ',' (by decide)
    have closed : Pda.dropClosing (first ++ [']']) = Pda.dropClosing first := by
      simp [Pda.dropClosing]
    simp only [cutAt_of_not_mem whole, closed, kept]
  · simp only [cutAt_append (absent ',' (by decide)) rest, kept]

/-- An array is no call of a macro. -/
theorem LedBy.seedMacro? (led : LedBy text.toList first) (flush : Flush text.toList) :
    Pda.seedMacro? text = none := by
  obtain ⟨signs, blanks, behind, split, allSigns, blank, _⟩ := led
  have wordless {c : Char} {rest : List Char} (mark : isWordChar c = false) :
      Seed.afterWord? (c :: rest) = none := by
    simp [Seed.afterWord?, mark]
  have trimmed : trim text.toList = signs ++ blanks ++ trimEnd ('[' :: (first ++ behind)) := by
    have visible : ∃ c ∈ '[' :: (first ++ behind), isBlank c = false :=
      ⟨'[', List.mem_cons_self, by decide⟩
    rw [trim_of_flush flush, split, trimEnd_append visible]
  obtain ⟨more, opened⟩ := exists_trimEnd_cons (c := '[') (by decide) (first ++ behind)
  rw [Pda.seedMacro?, trimmed, opened]
  cases signs with
  | nil =>
      have noBlanks : blanks = [] := by
        rw [split, List.nil_append] at flush
        exact flush.nil_of_blank blank
      rw [noBlanks]
      simp [trimStart, wordless, show isBlank '[' = false by decide,
        show isWordChar '[' = false by decide]
  | cons sign signs =>
      rw [allSigns sign List.mem_cons_self]
      cases signs with
      | nil =>
          simp [trimStart_append blank, trimStart_of_flush (flush_cons_iff.mpr _), wordless,
            show isBlank '[' = false by decide, show isWordChar '[' = false by decide]
      | cons sign signs =>
          rw [allSigns sign (by simp)]
          simp [trimStart, wordless, show isBlank '&' = false by decide,
            show isWordChar '&' = false by decide]

end LedBy

/-! ## Checks -/

/-- The array that a call is passed has a first element that is a seed as it is written, and whose
meaning no local binding changes. -/
structure SeedLed (body : List Fragment) (start : Nat) (argument : String) (first : List Char) :
    Prop where
  led : LedBy (resolve (bindings body) start (compact argument)).toList first
  paired : Paired false first
  nonempty : trim first ≠ []
  seed : ¬ StartsArray (trim first)
  unbound : ∀ name ∈ frontName? (.ofList (trim first)), boundAt? (bindings body) name start = none

section SeedLed

variable {table : SeedTable} {body : List Fragment} {start : Nat} {argument : String}
  {first : List Char} {seeds : List String}

/-- The first of the seeds is the first element of the array. -/
theorem SeedLed.head_seeds (led : SeedLed body start argument first)
    (array : pdaSeeds? (bindings body) start argument = some seeds) :
    seeds.head? = some (.ofList (trim first)) := by
  have kept : resolve (bindings body) start (.ofList (trim first)) = .ofList (trim first) :=
    resolveSteps_of_unbound led.unbound maxBindingSteps
  obtain ⟨signs, blanks, behind, split, allSigns, blank, kind⟩ := led.led
  rw [pdaSeeds?] at array
  split at array
  · obtain ⟨elements, read, rfl⟩ := Option.map_eq_some_iff.mp array
    have outside : '[' ∉ signs ++ blanks := by
      intro member
      rcases List.mem_append.mp member with sign | inBlanks
      · exact absurd (allSigns '[' sign) (by decide)
      · exact absurd (blank '[' inBlanks) (by decide)
    rw [← String.ofList_toList (s := resolve (bindings body) start (compact argument)), split] at read
    have closed : (untilClosed 0 (first ++ behind)).isSome := by
      rw [seedElements?_append outside, Option.map_eq_some_iff] at read
      obtain ⟨inner, found, _⟩ := read
      exact Option.isSome_iff_exists.mpr ⟨inner, found⟩
    have ended : ∃ c more, behind = c :: more ∧ (c = ',' ∨ c = ']') := by
      rcases kind with rfl | ⟨rest, rfl⟩
      · exact ⟨']', [], rfl, .inr rfl⟩
      · exact ⟨',', rest, rfl, .inl rfl⟩
    obtain ⟨others, found⟩ := exists_seedElements outside led.paired.steady led.nonempty
      (by simpa [← opensArray_iff] using led.seed) ended closed
    rw [read] at found
    obtain rfl := Option.some.inj found
    rw [List.map_cons, List.head?_cons, kept]
  · cases array

/-- The two names of a check that is passed an array. -/
theorem SeedLed.nameOfSeeds? (led : SeedLed body start argument first)
    (array : pdaSeeds? (bindings body) start argument = some seeds) {constant : String}
    (leads : Pda.leadingConstant? table seeds = some constant) :
    Pda.nameOfSeeds? table (resolve (bindings body) start (compact argument)) =
      some (Pda.nameOfConstant constant) := by
  have flush : Flush (resolve (bindings body) start (compact argument)).toList :=
    resolve_flush (compact_flush argument)
  rw [Pda.leadingConstant?, led.head_seeds array, Option.bind_some,
    ← String.toList_ofList (l := first), table.byteConstant?_trim] at leads
  obtain ⟨⟨_, bytes⟩, named, rfl⟩ := Option.map_eq_some_iff.mp leads
  have plain := SeedTable.plain_of_byteConstant? named
  rw [String.toList_ofList] at plain
  rw [Pda.nameOfSeeds?, led.led.seedMacro? flush]
  dsimp only
  rw [led.led.firstElement? flush plain]
  simp [named]

end SeedLed

/-- The function bodies in which the accounts of an instruction are checked. -/
def checkBodies (items : List (Annotated Item)) : List (List Fragment) :=
  (leaves 0 items).flatMap fun leaf =>
    match leaf.2.value with
    | .implementation ofTrait _ bodies =>
        if typeName ofTrait = "ProcessAccountInfos" then bodies else []
    | _ => []

/-- An implementation that checks the accounts of an instruction is declared with all its checks. -/
theorem ScannedFile.ReadFrom.declares_processor {file : ScannedFile} {items : List (Annotated Item)}
    (read : file.ReadFrom items) {depth line : Nat} {annotations : Annotations}
    {ofTrait target : String} {bodies : List (List Fragment)}
    (leaf : (depth, ⟨annotations, line, .implementation ofTrait target bodies⟩) ∈ leaves 0 items)
    (processes : typeName ofTrait = "ProcessAccountInfos") :
    Declaration.processor ⟨typeName target, ⟨file.path, line⟩, [], ⟨bodies.flatMap assertions⟩⟩ ∈
      file.declarations := by
  refine read.mem_declarations_iff.mpr ⟨_, leaf, ?_⟩
  rw [annotatedFindings, itemFindings, implementationFindings, if_pos processes]
  exact List.mem_append_left _ (List.mem_singleton.mpr rfl)

/-- A check in a body is declared with its file, and so is the call that it is. -/
theorem ScannedFile.ReadFrom.declares_check {file : ScannedFile} {items : List (Annotated Item)}
    (read : file.ReadFrom items) {body : List Fragment} (inside : body ∈ checkBodies items) :
    (∃ processor, Declaration.processor processor ∈ file.declarations ∧
        ∀ check ∈ assertions body, check ∈ processor.content.assertions) ∧
      ∀ call ∈ pdaCalls file.path body, Declaration.pdaCall call ∈ file.declarations := by
  obtain ⟨⟨depth, annotations, line, item⟩, leaf, found⟩ := List.mem_flatMap.mp inside
  cases item with
  | implementation ofTrait target written =>
      dsimp only at found
      split at found
      · rename_i processes
        let processor : Declared Processor :=
          ⟨typeName target, ⟨file.path, line⟩, [], ⟨written.flatMap assertions⟩⟩
        constructor
        · refine ⟨processor, read.declares_processor leaf processes, fun check listed => ?_⟩
          exact List.mem_flatMap.mpr ⟨body, found, listed⟩
        · intro call derives
          refine read.mem_declarations_iff.mpr ⟨_, leaf, ?_⟩
          rw [annotatedFindings, itemFindings]
          refine List.mem_append_right _ (List.mem_flatMap.mpr ⟨body, found, ?_⟩)
          exact List.mem_append_right _ (List.mem_map.mpr ⟨call, derives, rfl⟩)
      · cases found
  | record _ _ => cases found
  | enumeration _ _ => cases found
  | constant _ _ _ => cases found
  | macroCall _ _ => cases found
  | macroRules _ _ => cases found
  | module _ => cases found
  | function _ _ => cases found
  | other => cases found

/-- What a check on a field of `self` is recorded as, with its arguments in resolved form. -/
def recordedCheck (body : List Fragment) (start : Nat) (field method : String)
    (arguments : List String) : Assertion :=
  ⟨field, method, arguments.map fun text => resolve (bindings body) start (compact text)⟩

/-- A check on a field of `self` that is passed an array of seeds is recorded as a check and as a
call, and if an address is extracted from the call, then the check asks for that address. -/
theorem nameOfSeeds?_of_extract {file : ScannedFile} {items : List (Annotated Item)}
    (read : file.ReadFrom items) {body : List Fragment} (inside : body ∈ checkBodies items)
    {receiver method argument : String} {others : List String} {start line : Nat}
    (written : .call (.method receiver method) (argument :: others) start line ∈ body)
    (checks : method ∈ pdaChecks) {field : String}
    (ofSelf : selfField? (resolve (bindings body) start (compact receiver)).toList = some field)
    {first : List Char} (led : SeedLed body start argument first) {seeds : List String}
    (array : pdaSeeds? (bindings body) start argument = some seeds) :
    (∃ processor, .processor processor ∈ file.declarations ∧
      recordedCheck body start field method (argument :: others) ∈ processor.content.assertions) ∧
    .pdaCall ⟨method, ⟨file.path, line⟩, [], ⟨seeds⟩⟩ ∈ file.declarations ∧
    ∀ table macroCalls pdas,
      (Pda.extract table [] macroCalls [⟨method, ⟨file.path, line⟩, [], ⟨seeds⟩⟩]).outcome =
        .ok pdas →
      ∀ pda ∈ pdas,
        (recordedCheck body start field method (argument :: others)).arguments.head?.bind
          (Pda.nameOfSeeds? table) = some pda.name := by
  obtain ⟨⟨processor, declared, recorded⟩, calls⟩ := read.declares_check inside
  have checked : recordedCheck body start field method (argument :: others) ∈ assertions body := by
    refine List.mem_filterMap.mpr ⟨_, written, ?_⟩
    have asserts : ∀ name ∈ pdaChecks, "assert_".toList.isPrefixOf name.toList = true := by decide
    dsimp only
    rw [if_pos (asserts method checks), ofSelf]
    rfl
  have derives : ⟨method, ⟨file.path, line⟩, [], ⟨seeds⟩⟩ ∈ pdaCalls file.path body := by
    refine List.mem_filterMap.mpr ⟨_, written, ?_⟩
    have listed : ∀ name ∈ pdaChecks, name ∈ pdaFunctions := by decide
    have called : calleeName (.method receiver method) ∈ pdaFunctions := listed method checks
    dsimp only
    rw [if_pos called, array]
    rfl
  refine ⟨⟨processor, declared, recorded _ checked⟩, calls _ derives, ?_⟩
  intro table macroCalls pdas extracted pda listed
  rcases (Pda.extract_extracts extracted).sources pda listed with ⟨_, none, _⟩ | ⟨_, one, found⟩
  · cases none
  · obtain rfl := List.mem_singleton.mp one
    obtain ⟨constant, leads, named⟩ := Option.map_eq_some_iff.mp found.name
    rw [recordedCheck, List.map_cons, List.head?_cons, Option.bind_some,
      led.nameOfSeeds? array leads, named]

/-- The text of two checks, one of which names its seed through a local. -/
def localSeedLines : List String :=
  ["const VAULT: T = b\"v\";",
    "impl ProcessAccountInfos for Slots \x7b fn f() \x7b",
    "let seed = VAULT;",
    "self.vault.assert_seeds(&[VAULT]);",
    "self.fund.assert_seeds(&[seed]) \x7d \x7d"]

def localSeedBody : List Fragment :=
  [.binding "seed" "VAULT" 86,
    .call (.method "self.vault" "assert_seeds") ["&[VAULT]"] 87 4,
    .call (.method "self.fund" "assert_seeds") ["&[seed]"] 122 5]

/-- What is read from the text. -/
def localSeedFile : ScannedFile where
  path := "src/lib.rs"
  declarations :=
    [.constant ⟨"VAULT", ⟨"src/lib.rs", 1⟩, [], ⟨"T", "b\"v\""⟩⟩,
    .processor ⟨"Slots", ⟨"src/lib.rs", 2⟩, [],
      ⟨[⟨"vault", "assert_seeds", ["&[VAULT]"]⟩, ⟨"fund", "assert_seeds", ["&[seed]"]⟩]⟩⟩,
    .pdaCall ⟨"assert_seeds", ⟨"src/lib.rs", 4⟩, [], ⟨["VAULT"]⟩⟩,
    .pdaCall ⟨"assert_seeds", ⟨"src/lib.rs", 5⟩, [], ⟨["VAULT"]⟩⟩]

theorem localSeedFile_readFrom :
    ∃ items, localSeedFile.ReadFrom items ∧ localSeedBody ∈ checkBodies items := by
  obtain ⟨items, parsed, checked⟩ : ∃ items,
      itemsOf? ("\n".intercalate localSeedLines) = some items ∧
        decide ((gather (findings "src/lib.rs" 0 items)).outcome = .ok localSeedFile.declarations ∧
          localSeedBody ∈ checkBodies items) := by
    refine (Option.any_eq_true _ _).mp ?_
    unfold localSeedLines
    rw [itemsOf?_lines]
    simp only [List.map_cons, List.map_nil]
    repeat rw [String.toList_ofList]
    decide +kernel
  obtain ⟨gathered, inside⟩ := of_decide_eq_true checked
  exact ⟨items, readFrom_of_gather parsed gathered, inside⟩

theorem nameOfSeeds?_of_extract_vault :
    Pda.nameOfSeeds? (Declarations.ofFiles [localSeedFile]).constantTable "&[VAULT]" =
      some "vault" := by
  obtain ⟨items, read, inside⟩ := localSeedFile_readFrom
  have kept : resolve (bindings localSeedBody) 87 (compact "&[VAULT]") = "&[VAULT]" := by
    decide +kernel
  have paired : Paired false ['V', 'A', 'U', 'L', 'T'] :=
    .plain (.inl rfl) (.plain (.inl rfl) (.plain (.inl rfl) (.plain (.inl rfl)
      (.plain (.inl rfl) .nil))))
  have led : SeedLed localSeedBody 87 "&[VAULT]" ['V', 'A', 'U', 'L', 'T'] := by
    refine ⟨?_, paired, by decide, by decide, by decide⟩
    rw [kept]
    exact ⟨['&'], [], [']'], rfl, by simp, by simp [Blank], .inl rfl⟩
  have array : pdaSeeds? (bindings localSeedBody) 87 "&[VAULT]" = some ["VAULT"] := by
    decide +kernel
  obtain ⟨_, _, named⟩ := nameOfSeeds?_of_extract read inside
    (by decide : .call (.method "self.vault" "assert_seeds") ["&[VAULT]"] 87 4 ∈ localSeedBody)
    (by decide) (by decide +kernel : _ = some "vault") led array
  obtain ⟨pdas, extracted, found⟩ : ∃ pdas,
      (Pda.extract (Declarations.ofFiles [localSeedFile]).constantTable [] []
        [⟨"assert_seeds", ⟨"src/lib.rs", 4⟩, [], ⟨["VAULT"]⟩⟩]).outcome = .ok pdas ∧
        decide (∃ pda ∈ pdas, pda.name = "vault") :=
    exists_ok_of_any (by decide +kernel)
  obtain ⟨pda, listed, name⟩ := of_decide_eq_true found
  have asked := named _ [] pdas extracted pda listed
  rw [name, recordedCheck, List.map_cons, List.head?_cons, kept] at asked
  exact asked

/-- The second check asks for no address, although one is extracted from the call that it is. -/
theorem not_nameOfSeeds?_local : ∃ items, localSeedFile.ReadFrom items ∧
    localSeedBody ∈ checkBodies items ∧
    .call (.method "self.fund" "assert_seeds") ["&[seed]"] 122 5 ∈ localSeedBody ∧
    recordedCheck localSeedBody 122 "fund" "assert_seeds" ["&[seed]"] ∈ assertions localSeedBody ∧
    ⟨"assert_seeds", ⟨"src/lib.rs", 5⟩, [], ⟨["VAULT"]⟩⟩ ∈ pdaCalls "src/lib.rs" localSeedBody ∧
    (∃ pdas, (Pda.extract (Declarations.ofFiles [localSeedFile]).constantTable [] []
      [⟨"assert_seeds", ⟨"src/lib.rs", 5⟩, [], ⟨["VAULT"]⟩⟩]).outcome = .ok pdas ∧
        ∃ pda ∈ pdas, pda.name = "vault") ∧
    (recordedCheck localSeedBody 122 "fund" "assert_seeds" ["&[seed]"]).arguments.head?.bind
      (Pda.nameOfSeeds? (Declarations.ofFiles [localSeedFile]).constantTable) = none := by
  obtain ⟨items, read, inside⟩ := localSeedFile_readFrom
  obtain ⟨pdas, extracted, found⟩ : ∃ pdas,
      (Pda.extract (Declarations.ofFiles [localSeedFile]).constantTable [] []
        [⟨"assert_seeds", ⟨"src/lib.rs", 5⟩, [], ⟨["VAULT"]⟩⟩]).outcome = .ok pdas ∧
        decide (∃ pda ∈ pdas, pda.name = "vault") :=
    exists_ok_of_any (by decide +kernel)
  exact ⟨items, read, inside, by decide, by decide +kernel, by decide +kernel,
    ⟨pdas, extracted, of_decide_eq_true found⟩, by decide +kernel⟩

end ProgramIdl
