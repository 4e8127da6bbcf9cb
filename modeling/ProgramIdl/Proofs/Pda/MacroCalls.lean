import ProgramIdl.Pda
import ProgramIdl.Proofs.Declaration.ArrayText
import ProgramIdl.Proofs.Pda.ConstantText

/-!
# Calls of seed macros and their brackets

The arguments of a macro call stand in round, square or curly brackets.  Round brackets are taken off
the arguments, so each of them is recorded; square and curly ones are not, and the whole call is
recorded as one argument.  An address whose seeds refer to no bound parameter does not depend on that
(`seedCalls_around`).
-/

set_option autoImplicit false

namespace ProgramIdl

open ProgramIdl.Text
open ProgramIdl.Syntax

/-! ## Blanks around segments -/

/-- Segments like others, up to blanks behind them. -/
abbrev Trails : List (List Char) → List (List Char) → Prop :=
  List.Forall₂ fun longer shorter => ∃ back, Blank back ∧ longer = shorter ++ back

theorem Trails.growFirst {longer shorter : List (List Char)} (trails : Trails longer shorter)
    (c : Char) : Trails (growFirst c longer) (growFirst c shorter) := by
  cases trails with
  | nil => exact .cons ⟨[], by simp [Blank], rfl⟩ .nil
  | cons here behind =>
      obtain ⟨back, blank, rfl⟩ := here
      exact .cons ⟨back, blank, rfl⟩ behind

theorem Trails.map_trim {longer shorter : List (List Char)} (trails : Trails longer shorter) :
    longer.map trim = shorter.map trim := by
  induction trails with
  | nil => rfl
  | @cons _ segment _ _ here _ inductionHypothesis =>
      obtain ⟨back, blank, rfl⟩ := here
      have same := trim_blanks (show Blank [] from nofun) blank segment
      rw [List.nil_append] at same
      rw [List.map_cons, List.map_cons, same, inductionHypothesis]

/-- Blanks behind a text stand behind its last segment. -/
theorem rawSegments_trails {back : List Char} (blank : Blank back) (state : Nesting)
    (text : List Char) :
    Trails (rawSegments [','] state (text ++ back)) (rawSegments [','] state text) := by
  induction text generalizing state with
  | nil =>
      have whole : ∀ state, rawSegments [','] state back = [back] := by
        induction back with
        | nil => exact fun _ => rfl
        | cons c back inductionHypothesis =>
            intro state
            have other : ',' ≠ c := by
              rintro rfl
              exact absurd (blank ',' List.mem_cons_self) (by decide)
            have passed : state.separates [','] c = false := by simp [Nesting.separates, other]
            rw [rawSegments_of_not_separates passed,
              inductionHypothesis fun c member => blank c (List.mem_cons_of_mem _ member)]
            rfl
      rw [List.nil_append, whole]
      exact .cons ⟨back, blank, rfl⟩ .nil
  | cons c text inductionHypothesis =>
      rw [List.cons_append, rawSegments, rawSegments]
      split
      · exact .cons ⟨[], by simp [Blank], rfl⟩ (inductionHypothesis state)
      · exact (inductionHypothesis (state.step c)).growFirst c

theorem exists_rawSegments (state : Nesting) (text : List Char) :
    ∃ segment segments, rawSegments [','] state text = segment :: segments := by
  cases text with
  | nil => exact ⟨[], [], rfl⟩
  | cons c text =>
      rw [rawSegments]
      split
      · exact ⟨_, _, rfl⟩
      · cases rawSegments [','] (state.step c) text with
        | nil => exact ⟨_, _, rfl⟩
        | cons segment segments => exact ⟨_, _, rfl⟩

/-- Blanks at the ends of a text make no difference to its segments. -/
theorem topLevelSegments_trim (text : List Char) :
    topLevelSegments [','] (trim text) = topLevelSegments [','] text := by
  obtain ⟨front, back, split, frontBlank, backBlank⟩ := exists_trim_split text
  have plain : ∀ c ∈ front, isPlain c = true := fun c member =>
    isPlain_of_isBlank (frontBlank c member)
  have trails := rawSegments_trails backBlank {} (front ++ trim text)
  have same : (rawSegments [','] {} (front ++ trim text)).map trim =
      (rawSegments [','] {} (trim text)).map trim := by
    obtain ⟨segment, segments, raw⟩ := exists_rawSegments {} (trim text)
    have first := trim_blanks frontBlank (show Blank [] from nofun) segment
    rw [List.append_nil] at first
    rw [(steady_of_plain plain).separates, raw, foldr_growFirst, List.map_cons, List.map_cons, first]
  rw [topLevelSegments, topLevelSegments, ← same, ← trails.map_trim, ← split]

/-! ## Brackets -/

/-- The brackets that the arguments of a macro call may stand in. -/
inductive Brackets where
  | round
  | square
  | curly
  deriving DecidableEq, Repr

namespace Brackets

def opening : Brackets → Char
  | .round => '('
  | .square => '['
  | .curly => '\x7b'

def closing : Brackets → Char
  | .round => ')'
  | .square => ']'
  | .curly => '\x7d'

/-- The arguments of a call as they are written: in brackets, with commas between them. -/
def around (brackets : Brackets) (arguments : List (List Char)) : String :=
  .ofList (brackets.opening :: ([','].intercalate arguments ++ [brackets.closing]))

variable {arguments : List (List Char)}

theorem visible (brackets : Brackets) : isBlank brackets.opening = false ∧
    isBlank brackets.closing = false ∧ (∀ mark ∈ closedMarks, brackets.opening ∉ mark) ∧
      (∀ mark ∈ closedMarks, brackets.closing ∉ mark) ∧
        (brackets.opening, brackets.closing) ∈ bracketPairs := by
  cases brackets <;> decide

/-- In compact form the brackets stand where they stood, and in them what is left of the
arguments. -/
theorem exists_compact_around (brackets : Brackets) (arguments : List (List Char)) :
    ∃ pieces, List.Forall₂ Remains arguments pieces ∧ compact (brackets.around arguments) =
      .ofList (brackets.opening :: ([','].intercalate pieces ++ [brackets.closing])) := by
  obtain ⟨opens, closes, apart, apart', _⟩ := brackets.visible
  obtain ⟨pieces, remain, squeezed⟩ := exists_remains closes apart' arguments []
  refine ⟨pieces, remain, ?_⟩
  have flush : Flush (brackets.opening :: ([','].intercalate arguments ++ [brackets.closing])) :=
    flush_cons_iff.mpr opens
  rw [compact, around, String.toList_ofList, compactChars_eq_squeeze, trimStart_of_flush flush,
    squeeze_cons opens apart, squeezed]
  rfl

theorem seedText_of_remains {argument piece : List Char} (remains : Remains argument piece)
    (paired : SeedText false (compactChars argument)) : SeedText false piece := by
  obtain ⟨gap, isGap, rfl⟩ := remains
  obtain ⟨front, isFront, split⟩ := squeeze_eq_compactChars argument
  have blankText {part : List Char} (blank : Blank part) : SeedText false part :=
    seedText_of_plain fun c member => isPlain_of_isBlank (blank c member)
  rw [split]
  exact ((blankText isFront.blank).append paired).append (blankText isGap.blank)

theorem trim_brackets (brackets : Brackets) (inside : List Char) :
    trim (brackets.opening :: (inside ++ [brackets.closing])) =
      brackets.opening :: (inside ++ [brackets.closing]) := by
  obtain ⟨opens, closes, _⟩ := brackets.visible
  rw [trim_of_flush (flush_cons_iff.mpr opens)]
  refine trimEnd_of_getLast? fun c last => ?_
  rw [← List.cons_append, List.getLast?_append, List.getLast?_singleton, Option.some_or] at last
  obtain rfl := Option.some.inj last
  exact closes

/-- The brackets around a text come off if they are round. -/
theorem stripDelimiters_brackets (brackets : Brackets) (inside : List Char) :
    (stripDelimiters (.ofList (brackets.opening :: (inside ++ [brackets.closing])))).toList =
      if brackets = .round then trim inside
      else brackets.opening :: (inside ++ [brackets.closing]) := by
  have plain (text : List Char) :
      (stripDelimiters (.ofList text)).toList = unwrap ['('] [')'] text := by
    simp only [stripDelimiters, String.toList_ofList]
    rfl
  rw [plain, unwrap, trim_brackets]
  cases brackets with
  | round =>
      have closed : [')'].isSuffixOf ('(' :: (inside ++ [')'])) = true :=
        List.isSuffixOf_iff_suffix.mpr ⟨'(' :: inside, rfl⟩
      simp [opening, closing, closed]
  | square => rfl
  | curly => rfl

/-- Round brackets are taken off, and each argument is a segment of what is left. -/
theorem segments_round (paired : ∀ argument ∈ arguments, SeedText false (compactChars argument)) :
    splitTopLevel (stripDelimiters (compact (round.around arguments))) =
      ((arguments.map compactChars).filter fun argument => !argument.isEmpty).map .ofList := by
  obtain ⟨pieces, remain, compacted⟩ := round.exists_compact_around arguments
  have unseparated : ∀ piece ∈ pieces, Unseparated piece := by
    intro piece member
    obtain ⟨argument, listed, remains⟩ := exists_left_of_forall₂ remain member
    exact (seedText_of_remains remains (paired argument listed)).unseparated
  have inside : topLevelSegments [','] (trim ([','].intercalate pieces)) =
      (arguments.map compactChars).filter fun argument => !argument.isEmpty := by
    rw [topLevelSegments_trim, topLevelSegments_intercalate unseparated,
      map_trim_of_remains remain]
  rw [splitTopLevel, compacted, stripDelimiters_brackets, if_pos rfl, ← inside]
  rfl

/-- Square and curly brackets stay, and commas in them separate nothing. -/
theorem segments_of_ne_round {brackets : Brackets} (other : brackets ≠ .round)
    (paired : ∀ argument ∈ arguments, SeedText false (compactChars argument)) :
    splitTopLevel (stripDelimiters (compact (brackets.around arguments))) =
      [compact (brackets.around arguments)] := by
  obtain ⟨pieces, remain, compacted⟩ := brackets.exists_compact_around arguments
  obtain ⟨_, _, _, _, pair⟩ := brackets.visible
  have inside : SeedText true ([','].intercalate pieces) := by
    refine SeedText.intercalate fun piece member => ?_
    obtain ⟨argument, listed, remains⟩ := exists_left_of_forall₂ remain member
    exact seedText_of_remains remains (paired argument listed)
  have whole : SeedText false
      (brackets.opening :: ([','].intercalate pieces ++ [brackets.closing])) :=
    .group pair inside .nil
  have segments := @topLevelSegments_intercalate
    [brackets.opening :: ([','].intercalate pieces ++ [brackets.closing])]
    fun piece member => List.mem_singleton.mp member ▸ whole.unseparated
  rw [List.intercalate_singleton, List.map_singleton, trim_brackets] at segments
  have separator : ",".toList = [','] := rfl
  rw [splitTopLevel, compacted, stripDelimiters_brackets, if_neg other, separator, segments]
  rfl

/-- A bracket in front of a text is in front of its first segment. -/
theorem exists_segments_cons {c : Char} (visible : isBlank c = false) (mark : isNestingMark c = true)
    (rest : List Char) : ∃ more segments,
      topLevelSegments [','] (c :: rest) = (c :: more) :: segments := by
  obtain ⟨segment, segments, raw⟩ := exists_rawSegments (Nesting.step {} c) rest
  obtain ⟨more, first⟩ := exists_trimEnd_cons visible segment
  have passed : Nesting.separates {} [','] c = false :=
    Nesting.separates_of_isNestingMark mark {} _
  have trimmed : trim (c :: segment) = c :: more := by
    rw [trim_of_flush (flush_cons_iff.mpr visible), first]
  rw [topLevelSegments, rawSegments_of_not_separates passed, raw, growFirst, List.map_cons, trimmed]
  exact ⟨more, (segments.map trim).filter fun segment => !segment.isEmpty,
    List.filter_cons_of_pos rfl⟩

end Brackets

/-! ## Recorded arguments -/

/-- The arguments that are recorded of a call. -/
def callArguments (locals : List Binding) (place : Nat) (text : String) : List String :=
  (splitTopLevel (stripDelimiters (compact text))).map (resolve locals place)

theorem resolve_compact_around {brackets : Brackets} (other : brackets ≠ .round)
    (locals : List Binding) (place : Nat) (arguments : List (List Char)) :
    resolve locals place (compact (brackets.around arguments)) =
      compact (brackets.around arguments) := by
  obtain ⟨pieces, _, compacted⟩ := brackets.exists_compact_around arguments
  rw [compacted]
  refine resolve_of_head? (by rw [String.toList_ofList]; rfl) ?_ ?_ <;> cases brackets <;> decide

/-- Square and curly brackets are part of the first argument that is recorded. -/
theorem exists_callArguments_of_ne_round {brackets : Brackets} (other : brackets ≠ .round)
    (locals : List Binding) (place : Nat) (arguments : List (List Char)) :
    ∃ first rest, callArguments locals place (brackets.around arguments) = first :: rest ∧
      first.toList.head? = some brackets.opening := by
  obtain ⟨pieces, _, compacted⟩ := brackets.exists_compact_around arguments
  obtain ⟨opens, _, _, _, pair⟩ := brackets.visible
  have mark : isNestingMark brackets.opening = true := by cases brackets <;> rfl
  obtain ⟨more, segments, split⟩ := Brackets.exists_segments_cons opens mark
    ([','].intercalate pieces ++ [brackets.closing])
  have head : (String.ofList (brackets.opening :: more)).toList.head? = some brackets.opening := by
    rw [String.toList_ofList]
    rfl
  have kept : resolve locals place (.ofList (brackets.opening :: more)) =
      .ofList (brackets.opening :: more) :=
    resolve_of_head? head (by cases brackets <;> decide) (by cases brackets <;> decide)
  have separator : ",".toList = [','] := rfl
  refine ⟨_, segments.map fun segment => resolve locals place (.ofList segment), ?_, head⟩
  rw [callArguments, splitTopLevel, compacted, Brackets.stripDelimiters_brackets, if_neg other,
    separator, split, List.map_cons, List.map_cons, kept, List.map_map]
  rfl

/-- No call has the same arguments recorded in square and in curly brackets. -/
theorem callArguments_square_ne_curly (locals : List Binding) (place : Nat)
    (arguments : List (List Char)) :
    callArguments locals place (Brackets.around .square arguments) ≠
      callArguments locals place (Brackets.around .curly arguments) := by
  obtain ⟨_, _, square, bracket⟩ := exists_callArguments_of_ne_round
    (show Brackets.square ≠ .round by decide) locals place arguments
  obtain ⟨_, _, curly, brace⟩ := exists_callArguments_of_ne_round
    (show Brackets.curly ≠ .round by decide) locals place arguments
  intro same
  rw [square, curly] at same
  obtain ⟨rfl, _⟩ := List.cons.inj same
  rw [bracket] at brace
  exact absurd brace (by decide)

/-- What is recorded of a fragment of a body with some locals, if it is a call of a seed macro. -/
def recordedCall? (path : String) (locals : List Binding) : Fragment → Option (Declared SeedCall)
  | .macroCall macroPath text start line =>
      if occursIn "seeds".toList (lastSegment macroPath).toList then
        some ⟨lastSegment macroPath, ⟨path, line⟩, [], ⟨callArguments locals start text⟩⟩
      else none
  | _ => none

theorem seedCalls_eq (path : String) (body : List Fragment) :
    seedCalls path body = body.filterMap (recordedCall? path (bindings body)) := rfl

theorem bindings_macroCall (front back : List Fragment) (macroPath text : String) (start line : Nat) :
    bindings (front ++ .macroCall macroPath text start line :: back) = bindings (front ++ back) := by
  simp [bindings, List.filterMap_append]

theorem seedCalls_macroCall {macroPath : String}
    (named : occursIn "seeds".toList (lastSegment macroPath).toList = true) (path : String)
    (front back : List Fragment) (text : String) (start line : Nat) :
    seedCalls path (front ++ .macroCall macroPath text start line :: back) =
      front.filterMap (recordedCall? path (bindings (front ++ back))) ++
        ⟨lastSegment macroPath, ⟨path, line⟩, [],
          ⟨callArguments (bindings (front ++ back)) start text⟩⟩ ::
          back.filterMap (recordedCall? path (bindings (front ++ back))) := by
  have here : recordedCall? path (bindings (front ++ back))
      (.macroCall macroPath text start line) = some ⟨lastSegment macroPath, ⟨path, line⟩, [],
        ⟨callArguments (bindings (front ++ back)) start text⟩⟩ := by
    rw [recordedCall?, if_pos named]
  rw [seedCalls_eq, bindings_macroCall, List.filterMap_append, List.filterMap_cons_some here]

/-! ## Addresses -/

theorem mapM_congr {α β : Type} {values : List α} {step other : α → Reporting β}
    (same : ∀ value ∈ values, step value = other value) : values.mapM step = values.mapM other := by
  induction values with
  | nil => rfl
  | cons value values inductionHypothesis =>
      rw [List.mapM_cons, List.mapM_cons, same value List.mem_cons_self,
        inductionHypothesis fun value member => same value (List.mem_cons_of_mem _ member)]

theorem foldlM_congr {α β : Type} {values : List α} {step other : β → α → Reporting β}
    (same : ∀ value ∈ values, ∀ state, step state value = other state value) (state : β) :
    values.foldlM step state = values.foldlM other state := by
  induction values generalizing state with
  | nil => rfl
  | cons value values inductionHypothesis =>
      rw [List.foldlM_cons, List.foldlM_cons, same value List.mem_cons_self]
      congr 1
      funext next
      exact inductionHypothesis (fun value member => same value (List.mem_cons_of_mem _ member)) next

/-- The arguments of a call behind some calls make no difference to a macro: one of those binds its
parameters, or no seed of it refers to a parameter. -/
def Unaffected (earlier : List (Declared SeedCall)) (definition : Declared SeedMacro) : Prop :=
  (∃ call ∈ earlier, call.name = definition.name) ∨
    ∀ seed ∈ definition.content.seeds, ∀ param ∈ definition.content.params,
      Seed.param? (Seed.subject seed.toList) ≠ some param

namespace Pda

variable {table : SeedTable}

theorem bindingsOf_of_not_mem {params : List String} {param : String} (unbound : param ∉ params)
    (arguments : List String) : bindingsOf params arguments param = none := by
  rw [bindingsOf, Option.map_eq_none_iff, List.findRev?_eq_find?_reverse, List.find?_eq_none]
  intro binding member
  have inside := (List.of_mem_zip (List.mem_reverse.mp member)).1
  simpa using fun same : binding.1 = param => unbound (same ▸ inside)

/-- The arguments of a call count only where a seed refers to a parameter. -/
theorem classify_bindingsOf {params : List String} {seed : String}
    (free : ∀ param ∈ params, Seed.param? (Seed.subject seed.toList) ≠ some param)
    (arguments other : List String) :
    table.classify (bindingsOf params arguments) seed = table.classify (bindingsOf params other) seed := by
  have unbound (arguments : List String) :
      (Seed.param? (Seed.subject seed.toList)).bind (bindingsOf params arguments) = none := by
    cases isParam : Seed.param? (Seed.subject seed.toList) with
    | none => rfl
    | some param =>
        exact bindingsOf_of_not_mem (fun listed => free param listed isParam) arguments
  rw [SeedTable.classify, SeedTable.classify, unbound, unbound]

/-- An unaffected macro yields the same address, whatever is recorded of a call. -/
theorem addMacro_congr {calls later : List (Declared SeedCall)} {call other : Declared SeedCall}
    (sameName : call.name = other.name) {definition : Declared SeedMacro}
    (unaffected : definition.name = call.name → Unaffected calls definition) (pdas : List Pda) :
    addMacro table (calls ++ call :: later) pdas definition =
      addMacro table (calls ++ other :: later) pdas definition := by
  have found : (calls ++ call :: later).find? (fun call => call.name = definition.name) =
        (calls ++ other :: later).find? (fun call => call.name = definition.name) ∨
      ∀ seed ∈ definition.content.seeds, ∀ param ∈ definition.content.params,
        Seed.param? (Seed.subject seed.toList) ≠ some param := by
    by_cases named : definition.name = call.name
    · refine (unaffected named).imp_left fun ⟨first, listed, firstNamed⟩ => ?_
      have present : (calls.find? fun call => call.name = definition.name).isSome := by
        rw [List.find?_isSome]
        exact ⟨first, listed, by simpa using firstNamed⟩
      rw [List.find?_append, List.find?_append, Option.or_of_isSome present,
        Option.or_of_isSome present]
    · left
      have skipped : ¬ call.name = definition.name := fun same => named same.symm
      rw [List.find?_append, List.find?_append, List.find?_cons_of_neg (by simpa using skipped),
        List.find?_cons_of_neg (by simpa using sameName ▸ skipped)]
  rw [addMacro, addMacro]
  rcases found with same | free
  · rw [same]
  · have seeds (arguments other : List String) :
        definition.content.seeds.mapM
            (table.classify (bindingsOf definition.content.params arguments)) =
          definition.content.seeds.mapM
            (table.classify (bindingsOf definition.content.params other)) :=
      mapM_congr fun seed listed => classify_bindingsOf (free seed listed) arguments other
    dsimp only
    rw [seeds]

theorem extract_congr {macros : List (Declared SeedMacro)} {calls later : List (Declared SeedCall)}
    {call other : Declared SeedCall} (sameName : call.name = other.name)
    (unaffected : ∀ definition ∈ macros, definition.name = call.name → Unaffected calls definition)
    (pdaCalls : List (Declared PdaCall)) :
    extract table macros (calls ++ call :: later) pdaCalls =
      extract table macros (calls ++ other :: later) pdaCalls := by
  have folded : macros.foldlM (addMacro table (calls ++ call :: later)) [] =
      macros.foldlM (addMacro table (calls ++ other :: later)) [] :=
    foldlM_congr (fun definition listed pdas =>
      addMacro_congr sameName (unaffected definition listed) pdas) []
  rw [extract, extract, folded]

end Pda

/-- Round brackets are taken off the arguments of a seed macro call, and each argument is recorded;
square and curly ones are recorded with all that stands in them, as one argument.  So no call is
recorded alike in the three cases.  The addresses are the same in the three cases, if the arguments
of the call make no difference to the macros of its name. -/
theorem seedCalls_around {macroPath : String}
    (named : occursIn "seeds".toList (lastSegment macroPath).toList = true) (path : String)
    (front back : List Fragment) (start line : Nat) (arguments : List (List Char)) :
    ∃ (before after : List (Declared SeedCall)) (recorded : Brackets → List String),
      (∀ brackets, seedCalls path
          (front ++ .macroCall macroPath (brackets.around arguments) start line :: back) =
        before ++ ⟨lastSegment macroPath, ⟨path, line⟩, [], ⟨recorded brackets⟩⟩ :: after) ∧
      ((∀ argument ∈ arguments, SeedText false (compactChars argument)) →
        recorded .round = ((arguments.map compactChars).filter fun argument =>
          !argument.isEmpty).map (fun argument =>
            resolve (bindings (front ++ back)) start (.ofList argument)) ∧
        ∀ brackets : Brackets, brackets ≠ .round →
          recorded brackets = [compact (brackets.around arguments)]) ∧
      recorded .square ≠ recorded .curly ∧
      ∀ (table : SeedTable) (macros : List (Declared SeedMacro))
        (earlier later : List (Declared SeedCall)) (calls : List (Declared PdaCall)),
        (∀ definition ∈ macros, definition.name = lastSegment macroPath →
          Unaffected (earlier ++ before) definition) →
        ∀ brackets : Brackets, Pda.extract table macros (earlier ++ seedCalls path (front ++
              .macroCall macroPath (brackets.around arguments) start line :: back) ++ later) calls =
            Pda.extract table macros (earlier ++ seedCalls path (front ++
              .macroCall macroPath (Brackets.around .round arguments) start line :: back) ++ later)
              calls := by
  have recorded := fun brackets : Brackets => seedCalls_macroCall named path front back
    (brackets.around arguments) start line
  refine ⟨_, _, fun brackets : Brackets => callArguments (bindings (front ++ back)) start
    (brackets.around arguments), recorded, fun paired => ⟨?_, fun brackets other => ?_⟩,
    callArguments_square_ne_curly _ _ _, fun table macros earlier later calls unaffected brackets => ?_⟩
  · dsimp only
    rw [callArguments, Brackets.segments_round paired, List.map_map]
    rfl
  · dsimp only
    rw [callArguments, Brackets.segments_of_ne_round other paired, List.map_singleton,
      resolve_compact_around other]
  · have split (before after : List (Declared SeedCall)) (call : Declared SeedCall) :
        earlier ++ (before ++ call :: after) ++ later =
          earlier ++ before ++ call :: (after ++ later) := by simp
    rw [recorded, recorded, split, split]
    refine Pda.extract_congr ?_ ?_ calls
    · rfl
    · exact unaffected

/-- The argument `self.owner`. -/
def ownerArguments : List (List Char) :=
  [['s', 'e', 'l', 'f', '.', 'o', 'w', 'n', 'e', 'r']]

theorem seedCalls_around_owner :
    occursIn "seeds".toList (lastSegment "vault_seeds").toList = true ∧
      ∃ (before after : List (Declared SeedCall)) (recorded : Brackets → List String),
        (∀ brackets, seedCalls "src/lib.rs"
            ([] ++ .macroCall "vault_seeds" (brackets.around ownerArguments) 0 1 :: []) =
          before ++ ⟨lastSegment "vault_seeds", ⟨"src/lib.rs", 1⟩, [], ⟨recorded brackets⟩⟩ ::
            after) ∧
        recorded .round = ["self.owner"] ∧ recorded .square = ["[self.owner]"] ∧
          recorded .curly = ["\x7bself.owner\x7d"] := by
  have named : occursIn "seeds".toList (lastSegment "vault_seeds").toList = true := by
    decide +kernel
  obtain ⟨before, after, recorded, calls, given, _⟩ :=
    seedCalls_around named "src/lib.rs" [] [] 0 1 ownerArguments
  have plain : ∀ argument ∈ ownerArguments, SeedText false (compactChars argument) := by
    intro argument listed
    rw [List.mem_singleton.mp listed]
    exact seedText_of_plain (forall_mem_of_all (by decide))
  obtain ⟨round, others⟩ := given plain
  refine ⟨named, before, after, recorded, calls, round, ?_, ?_⟩
  · exact others .square (by decide)
  · exact others .curly (by decide)

/-- In square brackets the argument is not what the parameter of the macro is bound to. -/
theorem not_seedCalls_square :
    seedCalls "src/lib.rs" [.macroCall "vault_seeds" (Brackets.around .round ownerArguments) 0 1] =
        [⟨"vault_seeds", ⟨"src/lib.rs", 1⟩, [], ⟨["self.owner"]⟩⟩] ∧
      seedCalls "src/lib.rs" [.macroCall "vault_seeds" (Brackets.around .square ownerArguments) 0 1] =
        [⟨"vault_seeds", ⟨"src/lib.rs", 1⟩, [], ⟨["[self.owner]"]⟩⟩] ∧
      (Pda.extract {} [⟨"vault_seeds", ⟨"src/lib.rs", 1⟩, [], ⟨["key"], ["$key"]⟩⟩]
          [⟨"vault_seeds", ⟨"src/lib.rs", 1⟩, [], ⟨["self.owner"]⟩⟩] []).outcome =
        .ok [⟨"vault", [.account "owner" (some .plainAddress)], []⟩] ∧
      (Pda.extract {} [⟨"vault_seeds", ⟨"src/lib.rs", 1⟩, [], ⟨["key"], ["$key"]⟩⟩]
          [⟨"vault_seeds", ⟨"src/lib.rs", 1⟩, [], ⟨["[self.owner]"]⟩⟩] []).outcome =
        .ok [⟨"vault", [.unrecognized "[self.owner]"], []⟩] :=
  ⟨by decide +kernel, by decide +kernel, rfl, rfl⟩

end ProgramIdl
