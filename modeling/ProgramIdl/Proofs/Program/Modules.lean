import ProgramIdl.Proofs.Declaration.Leaves
import ProgramIdl.Proofs.Program.Sources
import ProgramIdl.Proofs.Syntax.Wrapping

/-!
# Modules around items

Items declare the same inside modules as outside of them, in the same order.  Only the address of a
program keeps how many modules stand around it, and the program is the same if none does.
-/

set_option autoImplicit false

namespace ProgramIdl

open ProgramIdl.Syntax

/-! ## Declarations in modules -/

/-- A declaration inside some more modules. -/
def Declaration.deepened (more : Nat) : Declaration → Declaration
  | .programId declared =>
      .programId { declared with
        content := { declared.content with depth := declared.content.depth + more } }
  | other => other

/-- What is found inside some more modules. -/
def Finding.deepened (more : Nat) : Finding → Finding
  | .declaration declared => .declaration (declared.deepened more)
  | other => other

/-- The address of a program is found. -/
def Finding.isProgramId : Finding → Bool
  | .declaration (.programId _) => true
  | _ => false

theorem Finding.deepened_zero (finding : Finding) : finding.deepened 0 = finding := by
  rcases finding with declared | _ | _
  · cases declared <;> rfl
  · rfl
  · rfl

theorem Finding.deepened_of_other {finding : Finding} (other : finding.isProgramId = false)
    (more : Nat) : finding.deepened more = finding := by
  rcases finding with declared | _ | _
  · cases declared with
    | programId _ => cases other
    | _ => rfl
  · rfl
  · rfl

theorem map_deepened_of_other {found : List Finding}
    (other : ∀ finding ∈ found, finding.isProgramId = false) (more : Nat) :
    found.map (Finding.deepened more) = found := by
  conv_rhs => rw [← List.map_id found]
  exact List.map_congr_left fun finding listed => Finding.deepened_of_other (other finding listed) more

/-- Only a macro call declares the address of a program. -/
theorem not_isProgramId {path : String} {depth line : Nat} {annotations : Annotations} {item : Item}
    (single : ∀ items, item ≠ .module items)
    (noCall : ∀ called arguments, item ≠ .macroCall called arguments) :
    ∀ finding ∈ itemFindings path depth annotations line item, finding.isProgramId = false := by
  intro finding found
  have comes := itemFindings_comeFrom path depth annotations line item single finding found
  rcases finding with declared | _ | _
  · cases declared with
    | programId declared =>
        cases item with
        | macroCall called arguments => exact absurd rfl (noCall called arguments)
        | _ => cases comes
    | _ => rfl
  · rfl
  · rfl

mutual

theorem itemFindings_deepened (path : String) (depth more : Nat) (annotations : Annotations)
    (line : Nat) : (item : Item) → itemFindings path (depth + more) annotations line item =
      (itemFindings path depth annotations line item).map (Finding.deepened more)
  | .module items => by
      rw [itemFindings, itemFindings, Nat.add_right_comm, findings_deepened]
  | .macroCall called arguments => by
      rw [itemFindings, itemFindings, macroCallFindings, macroCallFindings]
      split <;> rfl
  | .record .. | .enumeration .. | .constant .. | .macroRules .. | .function .. | .implementation ..
  | .other => by
      rw [map_deepened_of_other (not_isProgramId (by simp) (by simp))]
      rfl

theorem annotatedFindings_deepened (path : String) (depth more : Nat) :
    (item : Annotated Item) → annotatedFindings path (depth + more) item =
      (annotatedFindings path depth item).map (Finding.deepened more)
  | ⟨annotations, line, item⟩ => itemFindings_deepened path depth more annotations line item

/-- Inside more modules items declare the same, but for the number of modules around the address of a
program. -/
theorem findings_deepened (path : String) (depth more : Nat) :
    (items : List (Annotated Item)) → findings path (depth + more) items =
      (findings path depth items).map (Finding.deepened more)
  | [] => rfl
  | item :: rest => by
      rw [findings, findings, List.map_append, annotatedFindings_deepened, findings_deepened]

end

/-! ## Items in their modules -/

/-- What the text of an item declares on its own. -/
def Syntax.ItemText.findings (text : ItemText) (path : String) : List Finding :=
  annotatedFindings path 0 text.item

/-- What wrapped items declare: each declares the same as on its own, and how many modules stand around
an address is counted from outside. -/
def Syntax.Wrapping.findings (wrapping : Wrapping) (path : String) : List Finding :=
  (wrapping.items 0).flatMap fun entry => (entry.2.findings path).map (Finding.deepened entry.1)

/-- What a file declares that is read as wrapped items. -/
theorem findings_lineless_of_readAs {wrapping : Wrapping} {items : List (Annotated Item)} (path : String)
    (depth : Nat) (readAs : wrapping.ReadAs items) :
    (findings path depth items).map Finding.lineless =
      ((wrapping.items depth).flatMap fun entry =>
        (entry.2.findings path).map (Finding.deepened entry.1)).map Finding.lineless := by
  induction readAs generalizing depth with
  | nil => rfl
  | @item text rest places item items alike _ inductionHypothesis =>
      have here := findings_lineless path depth alike
      have deeper := annotatedFindings_deepened path 0 depth text.item
      rw [Nat.zero_add] at deeper
      simp only [findings, List.append_nil] at here
      rw [findings, Wrapping.items, List.flatMap_cons, List.map_append, List.map_append,
        inductionHypothesis, ← here, deeper, ItemText.findings]
  | module _ _ inside later =>
      simp only [findings, annotatedFindings, itemFindings, Wrapping.items, List.flatMap_append,
        List.map_append, inside, later]

/-- The address of a program stands in as many modules as are wrapped around its item. -/
theorem depth_of_single {text : ItemText} {path : String} {depth : Nat}
    (single : ∀ inner, text.item.value ≠ .module inner) {declared : Declared ProgramId}
    (found : .declaration (.programId declared) ∈
      (text.findings path).map (Finding.deepened depth)) : declared.content.depth = depth := by
  rw [ItemText.findings] at found
  generalize text.item = noted at single found
  obtain ⟨annotations, line, item⟩ := noted
  have deeper := annotatedFindings_deepened path 0 depth ⟨annotations, line, item⟩
  rw [← deeper, Nat.zero_add, annotatedFindings] at found
  cases item with
  | macroCall called arguments =>
      rw [itemFindings, macroCallFindings] at found
      split at found
      · obtain same := Finding.declaration.inj (List.mem_singleton.mp found)
        rw [Declaration.programId.inj same]
      · cases found
  | _ => exact absurd (not_isProgramId single (by simp) _ found) (by simp [Finding.isProgramId])

/-- A declaration on no line in particular, around which no modules are counted. -/
def Declaration.unnested : Declaration → Declaration
  | .programId declared =>
      .programId { declared.lineless with content := { declared.content with depth := 0 } }
  | other => other.lineless

theorem unnested_lineless (declaration : Declaration) :
    declaration.lineless.unnested = declaration.unnested := by
  cases declaration <;> rfl

theorem unnested_deepened (more : Nat) (declaration : Declaration) :
    (declaration.deepened more).unnested = declaration.unnested := by
  cases declaration <;> rfl

theorem forgetting_lineless (finding : Finding) :
    finding.lineless.forgetting Declaration.unnested = finding.forgetting Declaration.unnested := by
  rcases finding with declared | _ | failure
  · exact congrArg Finding.declaration (unnested_lineless declared)
  · rfl
  · cases failure <;> rfl

theorem forgetting_deepened (more : Nat) (finding : Finding) :
    (finding.deepened more).forgetting Declaration.unnested =
      finding.forgetting Declaration.unnested := by
  rcases finding with declared | _ | _
  · exact congrArg Finding.declaration (unnested_deepened more declared)
  · rfl
  · rfl

/-! ## Files with and without modules -/

theorem items_ofItems (depth : Nat) (texts : List ItemText) :
    (Wrapping.ofItems texts).items depth = texts.map (depth, ·) := by
  induction texts with
  | nil => rfl
  | cons text rest inductionHypothesis =>
      rw [List.map_cons, ← inductionHypothesis]
      rfl

/-- Without the modules the same is found, and no modules are counted. -/
theorem findings_unwrapped (wrapping : Wrapping) (path : String) :
    wrapping.unwrapped.findings path =
      (wrapping.items 0).flatMap fun entry => entry.2.findings path := by
  have none : Finding.deepened 0 = id := funext Finding.deepened_zero
  simp only [Wrapping.findings, Wrapping.unwrapped, items_ofItems, List.map_map, List.flatMap_map,
    Function.comp_apply, none, List.map_id]

/-- Files whose declarations are the same apart from lines and from the modules around addresses. -/
def ScannedFile.SameButNesting (file file' : ScannedFile) : Prop :=
  file.path = file'.path ∧
    file.declarations.map Declaration.unnested = file'.declarations.map Declaration.unnested

/-- No address of a program has been wrapped in a module. -/
def Syntax.Wrapping.NoneWrapped (wrapping : Wrapping) (path : String) : Prop :=
  ∀ entry ∈ wrapping.items 0, 0 < entry.1 →
    ∀ finding ∈ entry.2.findings path, finding.isProgramId = false

theorem Syntax.Wrapping.NoneWrapped.findings_eq {wrapping : Wrapping} {path : String}
    (none : wrapping.NoneWrapped path) :
    wrapping.findings path = wrapping.unwrapped.findings path := by
  rw [findings_unwrapped, Wrapping.findings]
  refine List.flatMap_congr fun entry listed => ?_
  cases deep : entry.1 with
  | zero =>
      have same : Finding.deepened 0 = id := funext Finding.deepened_zero
      rw [same, List.map_id]
  | succ depth =>
      exact map_deepened_of_other (none entry listed (deep ▸ Nat.succ_pos depth)) _

theorem findings_unnested (wrapping : Wrapping) (path : String) :
    (wrapping.findings path).map (Finding.forgetting Declaration.unnested) =
      (wrapping.unwrapped.findings path).map (Finding.forgetting Declaration.unnested) := by
  rw [findings_unwrapped, Wrapping.findings, List.map_flatMap, List.map_flatMap]
  refine List.flatMap_congr fun entry _ => ?_
  rw [List.map_map]
  exact List.map_congr_left fun finding _ => forgetting_deepened entry.1 finding

/-- Modules around items make no difference to what the items declare, nor to the order of it: each
declares what it does on its own, so nothing in front of a module, in it or behind it belongs to an item
on the other side.  The address of a program keeps how many modules stand around it, and if none does
then the program is the same. -/
theorem scan_wrapped {wrapping : Wrapping} {path wrapped text : String}
    (spells : wrapping.Spells wrapped) (plain : wrapping.unwrapped.Spells text) :
    (∃ items, itemsOf? wrapped = some items ∧ (findings path 0 items).map Finding.lineless =
      (wrapping.findings path).map Finding.lineless) ∧
    (∃ items, itemsOf? text = some items ∧ (findings path 0 items).map Finding.lineless =
      ((wrapping.items 0).flatMap fun entry => entry.2.findings path).map Finding.lineless) ∧
    (∀ entry ∈ wrapping.items 0, (∀ inner, entry.2.item.value ≠ .module inner) →
      ∀ declared, .declaration (.programId declared) ∈
        (entry.2.findings path).map (Finding.deepened entry.1) → declared.content.depth = entry.1) ∧
    RunsAlike ScannedFile.SameButNesting (scan path wrapped) (scan path text) ∧
    (wrapping.NoneWrapped path → ∀ known name front back,
      (assembleSources known name (front ++ (path, wrapped) :: back)).Alike
        (assembleSources known name (front ++ (path, text) :: back))) := by
  obtain ⟨items, read, readAs⟩ := spells.exists_items
  obtain ⟨items', read', readAs'⟩ := plain.exists_items
  have found := findings_lineless_of_readAs path 0 readAs
  have found' := findings_lineless_of_readAs path 0 readAs'
  change _ = (wrapping.findings path).map Finding.lineless at found
  change _ = (wrapping.unwrapped.findings path).map Finding.lineless at found'
  refine ⟨⟨items, read, found⟩, ⟨items', read', findings_unwrapped wrapping path ▸ found'⟩,
    fun entry _ single declared found => depth_of_single single found, ?_, fun none known name front back => ?_⟩
  · refine scan_forgetting read read' ?_
    have forget (found : List Finding) : found.map (Finding.forgetting Declaration.unnested) =
        (found.map Finding.lineless).map (Finding.forgetting Declaration.unnested) := by
      rw [List.map_map]
      exact List.map_congr_left fun finding _ => (forgetting_lineless finding).symm
    rw [forget, found, ← forget, forget (findings path 0 items'), found', ← forget]
    exact findings_unnested wrapping path
  · apply assembleSources_alike
    have same (sources : List (String × String)) : List.Forall₂ (fun source source' =>
        RunsAlike ScannedFile.SameButLines (scan source.1 source.2) (scan source'.1 source'.2))
        sources sources :=
      List.forall₂_same.mpr fun source _ => (RunsAlike.of_alike (.refl _)).imp fun _ _ same => same ▸ rfl
    refine List.rel_append (same front) (.cons ?_ (same back))
    exact scan_lineless read read' (found.trans (none.findings_eq ▸ found'.symm))

/-! ### A constant in a module -/

def seedText : String :=
  "\n".intercalate ["/// Kept off-chain.", "const SEED: u8 = 6;"]

def lateText : String :=
  "\n".intercalate ["#[error] enum Fault \x7b Late = 6 \x7d"]

def openText : String :=
  "\n".intercalate
    ["/// Kept off-chain.", "const SEED: u8 = 6;", "#[error] enum Fault \x7b Late = 6 \x7d"]

/-- The same items, of which the first one stands in a module between comments that belong to neither. -/
def moduleText : String :=
  "\n".intercalate ["/// Not of the constant.", "mod seeds \x7b", "/// Kept off-chain.",
    "const SEED: u8 = 6;", "/// Not of the enum.", "\x7d", "#[error] enum Fault \x7b Late = 6 \x7d"]

/-- The tokens of a text, none if it has no tokens. -/
def tokensOf (text : String) : List Token :=
  (tokens? text).getD []

theorem tokens?_eq_tokensOf {text : String} (some_ : (tokens? text).isSome = true) :
    tokens? text = some (tokensOf text) := by
  obtain ⟨tokens, read⟩ := Option.isSome_iff_exists.mp some_
  rw [tokensOf, read, Option.getD_some]

def seedItem : ItemText where
  text := seedText
  tokens := tokensOf seedText
  spelled := tokens?_eq_tokensOf (by
    rw [seedText, tokens?_lines]
    simp only [List.map_cons, List.map_nil]
    repeat rw [String.toList_ofList]
    decide +kernel)
  isItem := by
    rw [tokensOf, seedText, tokens?_lines]
    simp only [List.map_cons, List.map_nil]
    repeat rw [String.toList_ofList]
    decide +kernel

def lateItem : ItemText where
  text := lateText
  tokens := tokensOf lateText
  spelled := tokens?_eq_tokensOf (by
    rw [lateText, tokens?_lines]
    simp only [List.map_cons, List.map_nil]
    repeat rw [String.toList_ofList]
    decide +kernel)
  isItem := by
    rw [tokensOf, lateText, tokens?_lines]
    simp only [List.map_cons, List.map_nil]
    repeat rw [String.toList_ofList]
    decide +kernel

theorem length_tokensOf_moduleText : (tokensOf moduleText).length = 22 := by
  rw [tokensOf, moduleText, tokens?_lines]
  simp only [List.map_cons, List.map_nil]
  repeat rw [String.toList_ofList]
  decide +kernel

theorem kind_get {tokens : List Token} {place : Nat} (inside : place < tokens.length)
    {kind : LexemeKind} (found : (tokens[place]?).map Token.kind = some kind) :
    (tokens.get ⟨place, inside⟩).kind = kind := by
  rw [List.getElem?_eq_getElem inside] at found
  exact Option.some.inj found

theorem split_at_pair {tokens : List Token} {first second : Nat} (order : first < second)
    (inside : second < tokens.length) :
    tokens = tokens.take first ++ tokens.get ⟨first, order.trans inside⟩ ::
      ((tokens.drop (first + 1)).take (second - first - 1) ++
        tokens.get ⟨second, inside⟩ :: tokens.drop (second + 1)) := by
  have behind : (tokens.drop (first + 1)).drop (second - first - 1) = tokens.drop second := by
    rw [List.drop_drop]
    congr 1
    omega
  conv_lhs => rw [← List.take_append_drop first tokens, List.drop_eq_getElem_cons (order.trans inside),
    ← List.take_append_drop (second - first - 1) (tokens.drop (first + 1)), behind,
    List.drop_eq_getElem_cons inside]
  rfl

theorem two_lt_length : 2 < (tokensOf moduleText).length := by
  rw [length_tokensOf_moduleText]
  decide

theorem ten_lt_length : 10 < (tokensOf moduleText).length := by
  rw [length_tokensOf_moduleText]
  decide

/-- The module of the text, with a comment at its end. -/
def seedsFrame : ModuleFrame where
  head := (tokensOf moduleText).take 2
  opening := (tokensOf moduleText).get ⟨2, two_lt_length⟩
  trailing := []
  closing := (tokensOf moduleText).get ⟨10, ten_lt_length⟩
  isHead := by
    rw [tokensOf, moduleText, tokens?_lines]
    simp only [List.map_cons, List.map_nil]
    repeat rw [String.toList_ofList]
    decide +kernel
  opens := kind_get _ (by
    rw [tokensOf, moduleText, tokens?_lines]
    simp only [List.map_cons, List.map_nil]
    repeat rw [String.toList_ofList]
    decide +kernel)
  areAttributes := rfl
  closes := kind_get _ (by
    rw [tokensOf, moduleText, tokens?_lines]
    simp only [List.map_cons, List.map_nil]
    repeat rw [String.toList_ofList]
    decide +kernel)

def seedsWrapping : Wrapping :=
  .module seedsFrame (.item seedItem .nil) (.item lateItem .nil)

theorem spells_moduleText : seedsWrapping.Spells moduleText := by
  have moved : TokensMoved false (tokensOf seedText) (((tokensOf moduleText).drop 3).take 7) ∧
      TokensMoved false (tokensOf lateText) ((tokensOf moduleText).drop 11) ∧
      (tokens? moduleText).isSome = true := by
    rw [tokensOf, tokensOf, tokensOf, seedText, lateText, moduleText, tokens?_lines, tokens?_lines,
      tokens?_lines]
    simp only [List.map_cons, List.map_nil]
    repeat rw [String.toList_ofList]
    decide +kernel
  obtain ⟨seed, late, some_⟩ := moved
  refine ⟨tokensOf moduleText, [], ?_, ?_, rfl⟩
  · rw [List.append_nil, tokens?_eq_tokensOf some_]
  · have whole : tokensOf moduleText = seedsFrame.head ++ seedsFrame.opening ::
        (((tokensOf moduleText).drop 3).take 7 ++ seedsFrame.trailing ++
          seedsFrame.closing :: (tokensOf moduleText).drop 11) := by
      have split := split_at_pair (by decide : 2 < 10) ten_lt_length
      simp only [Nat.reduceAdd, Nat.reduceSub] at split
      simp only [seedsFrame, List.append_nil]
      exact split
    have inside := @Wrapping.SpelledBy.item seedItem .nil _ _ seed .nil
    have later := @Wrapping.SpelledBy.item lateItem .nil _ _ late .nil
    have spelled := @Wrapping.SpelledBy.module seedsFrame _ _ _ _ inside later
    rw [List.append_nil, List.append_nil, ← whole] at spelled
    exact spelled

theorem spells_openText : seedsWrapping.unwrapped.Spells openText := by
  have moved : TokensMoved false (tokensOf seedText) ((tokensOf openText).take 7) ∧
      TokensMoved false (tokensOf lateText) ((tokensOf openText).drop 7) ∧
      (tokens? openText).isSome = true := by
    rw [tokensOf, tokensOf, tokensOf, seedText, lateText, openText, tokens?_lines, tokens?_lines,
      tokens?_lines]
    simp only [List.map_cons, List.map_nil]
    repeat rw [String.toList_ofList]
    decide +kernel
  obtain ⟨seed, late, some_⟩ := moved
  refine ⟨tokensOf openText, [], ?_, ?_, rfl⟩
  · rw [List.append_nil, tokens?_eq_tokensOf some_]
  · have later := @Wrapping.SpelledBy.item lateItem .nil _ _ late .nil
    have spelled := @Wrapping.SpelledBy.item seedItem _ _ _ seed later
    rw [List.append_nil, List.take_append_drop] at spelled
    exact spelled

theorem noneWrapped_seedsWrapping : seedsWrapping.NoneWrapped "src/lib.rs" := by
  have noCall : ∀ item ∈ itemOf? seedItem.tokens,
      item.value.declares (.constant ⟨"", ⟨"", 0⟩, [], ⟨"", ""⟩⟩) = true := by
    rw [show seedItem.tokens = tokensOf seedText from rfl, tokensOf, seedText, tokens?_lines]
    simp only [List.map_cons, List.map_nil]
    repeat rw [String.toList_ofList]
    decide +kernel
  intro entry listed nested
  rcases List.mem_cons.mp listed with rfl | listed
  · have constant := noCall seedItem.item (Option.some_get seedItem.isItem).symm
    rw [ItemText.findings]
    generalize seedItem.item = noted at constant
    obtain ⟨annotations, line, item⟩ := noted
    cases item with
    | constant name type value => exact not_isProgramId (by simp) (by simp)
    | _ => cases constant
  · obtain rfl := List.mem_singleton.mp listed
    exact absurd nested (Nat.lt_irrefl 0)

theorem scan_wrapped_seeds :
    seedsWrapping.Spells moduleText ∧ seedsWrapping.unwrapped.Spells openText ∧
      seedsWrapping.NoneWrapped "src/lib.rs" ∧
      RunsAlike ScannedFile.SameButNesting (scan "src/lib.rs" moduleText)
        (scan "src/lib.rs" openText) ∧
      (assembleSources .standard "seeds" [("src/lib.rs", moduleText)]).Alike
        (assembleSources .standard "seeds" [("src/lib.rs", openText)]) := by
  obtain ⟨_, _, _, scanned, assembled⟩ :=
    @scan_wrapped seedsWrapping "src/lib.rs" _ _ spells_moduleText spells_openText
  exact ⟨spells_moduleText, spells_openText, noneWrapped_seedsWrapping, scanned,
    assembled noneWrapped_seedsWrapping .standard "seeds" [] []⟩

end ProgramIdl
