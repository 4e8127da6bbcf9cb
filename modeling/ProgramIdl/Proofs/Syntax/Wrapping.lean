import ProgramIdl.Proofs.Syntax.Moved
import ProgramIdl.Proofs.Syntax.Neighbours
import ProgramIdl.Proofs.Syntax.Nesting

/-!
# Items wrapped in modules

A file is put together from items, each with the comments and attributes in front of it, some of which
are wrapped in modules.  However they are wrapped, the file is read as these items in their modules:
what stands in front of a module, or inside it behind its last item, belongs to none of them.
-/

set_option autoImplicit false

namespace ProgramIdl.Syntax

open ProgramIdl.Syntax.Parser ProgramIdl.Syntax.Grammar

/-! ## Repetitions -/

/-- Some values read one after the other. -/
inductive Reads {α : Type} (parser : Parser α) : List Tree → List α → List Tree → Prop where
  | nil {trees : List Tree} : Reads parser trees [] trees
  | cons {trees between left : List Tree} {value : α} {values : List α}
      (read : parser trees = some (value, between)) (shorter : between.length < trees.length)
      (later : Reads parser between values left) : Reads parser trees (value :: values) left

section Reads

variable {α : Type} {parser : Parser α} {trees between left : List Tree} {values more : List α}

theorem Reads.append (first : Reads parser trees values between) (second : Reads parser between more left) :
    Reads parser trees (values ++ more) left := by
  induction first with
  | nil => exact second
  | cons read shorter _ inductionHypothesis => exact .cons read shorter (inductionHypothesis second)

theorem Reads.upTo_eq (reads : Reads parser trees values left) (stops : parser left = none)
    {count : Nat} (enough : trees.length ≤ count) : upTo parser count trees = some (values, left) := by
  induction reads generalizing count with
  | nil => exact upTo_of_failed stops count
  | cons read shorter _ inductionHypothesis =>
      obtain ⟨count, rfl⟩ : ∃ less, count = less + 1 := ⟨count - 1, by omega⟩
      rw [upTo_of_read read]
      change (upTo parser count _).bind _ = _
      rw [inductionHypothesis stops (by omega)]
      rfl

/-- What cannot be continued is all that is read. -/
theorem Reads.many_eq (reads : Reads parser trees values left) (stops : parser left = none) :
    many parser trees = some (values, left) :=
  reads.upTo_eq stops (Nat.le_refl _)

/-- The items in front of some attributes that nothing follows. -/
theorem itemsRule_of_reads {g : Grammar} {items : List (Annotated ParsedItem)} {notes : Annotations}
    (reads : Reads (annotated g [] (itemRule g)) trees items left)
    (trailing : attributes g left = some (notes, [])) : all (itemsRule g) trees = some items := by
  have stops : annotated g [] (itemRule g) left = none := by
    rw [annotated_eq]
    change (attributes g left).bind _ = none
    rw [trailing]
    rfl
  have read : itemsRule g trees = some (items, []) := by
    change (many (annotated g [] (itemRule g)) trees).bind _ = _
    rw [reads.many_eq stops]
    change (attributes g left).bind _ = _
    rw [trailing]
    rfl
  rw [all, read]

end Reads

/-! ## Items -/

/-- The item that some tokens spell, all of them; a semicolon alone is none. -/
def itemOf? (tokens : List Token) : Option (Annotated Item) :=
  (gather [] [] tokens).bind fun trees =>
    if headIs (Tree.isMark ';') trees then none
    else
      (all (annotated (ofDepth tokens.length) [] (itemRule (ofDepth tokens.length))) trees).map
        fun item => ⟨item.annotations, item.line, item.value.item⟩

/-- A text that spells an item with what stands in front of it. -/
structure ItemText where
  text : String
  tokens : List Token
  spelled : tokens? text = some tokens
  isItem : (itemOf? tokens).isSome = true

/-- The item of the text. -/
def ItemText.item (text : ItemText) : Annotated Item :=
  (itemOf? text.tokens).get text.isItem

/-- The grammar of a token list reads the whole of a list. -/
def readsAll {α : Type} (rule : Grammar → Parser α) (tokens : List Token) : Bool :=
  ((gather [] [] tokens).bind (all (rule (ofDepth tokens.length)))).isSome

/-- What a module has around its items: the tokens in front of its block, and attributes at the end of
the block, which belong to no item. -/
structure ModuleFrame where
  head : List Token
  opening : Token
  trailing : List Token
  closing : Token
  isHead : readsAll moduleHead head = true
  opens : opening.kind = .opening .brace
  areAttributes : readsAll attributes trailing = true
  closes : closing.kind = .closing .brace

/-- Items in modules, nested to any depth. -/
inductive Wrapping where
  | nil
  | item (text : ItemText) (rest : Wrapping)
  | module (frame : ModuleFrame) (inner rest : Wrapping)

namespace Wrapping

/-- The items in order, each with the number of modules around it. -/
def items (depth : Nat) : Wrapping → List (Nat × ItemText)
  | .nil => []
  | .item text rest => (depth, text) :: items depth rest
  | .module _ inner rest => items (depth + 1) inner ++ items depth rest

/-- Items that are wrapped in nothing. -/
def ofItems (texts : List ItemText) : Wrapping :=
  texts.foldr .item .nil

/-- The same items without the modules. -/
def unwrapped (wrapping : Wrapping) : Wrapping :=
  .ofItems ((wrapping.items 0).map Prod.snd)

/-- The tokens of a wrapping; those of an item may stand elsewhere in the item's own text. -/
inductive SpelledBy : Wrapping → List Token → Prop where
  | nil : SpelledBy .nil []
  | item {text : ItemText} {rest : Wrapping} {tokens more : List Token}
      (moved : TokensMoved false text.tokens tokens) (later : SpelledBy rest more) :
      SpelledBy (.item text rest) (tokens ++ more)
  | module {frame : ModuleFrame} {inner rest : Wrapping} {tokens more : List Token}
      (inside : SpelledBy inner tokens) (later : SpelledBy rest more) :
      SpelledBy (.module frame inner rest)
        (frame.head ++ frame.opening :: (tokens ++ frame.trailing ++ frame.closing :: more))

/-- A text that spells a wrapping; attributes at its end belong to no item. -/
def Spells (wrapping : Wrapping) (text : String) : Prop :=
  ∃ tokens trailing, tokens? text = some (tokens ++ trailing) ∧ wrapping.SpelledBy tokens ∧
    readsAll attributes trailing = true

/-- The items that a file with these wrapped items is read as. -/
inductive ReadAs : Wrapping → List (Annotated Item) → Prop where
  | nil : ReadAs .nil []
  | item {text : ItemText} {rest : Wrapping} {places : Places} {item : Annotated Item}
      {items : List (Annotated Item)} (alike : ItemsAlike places.reading [text.item] [item])
      (later : ReadAs rest items) : ReadAs (.item text rest) (item :: items)
  | module {frame : ModuleFrame} {inner rest : Wrapping} {notes : Annotations} {line : Nat}
      {items others : List (Annotated Item)} (inside : ReadAs inner items) (later : ReadAs rest others) :
      ReadAs (.module frame inner rest) (⟨notes, line, .module items⟩ :: others)

end Wrapping

/-! ## Runs elsewhere -/

theorem eq_some_of_all {α : Type} {parser : Parser α} {trees : List Tree} {value : α}
    (read : all parser trees = some value) : parser trees = some (value, []) := by
  rw [all] at read
  split at read
  · rename_i found
    obtain rfl := Option.some.inj read
    exact found
  · cases read

section Elsewhere

variable {tokens tokens' : List Token} {start start' depth : Nat}

theorem TokensMoved.counterparts (moved : TokensMoved false tokens tokens') (placed : Placed start tokens)
    (placed' : Placed start' tokens') : Counterparts (tokens.zip tokens') :=
  moved.relaid.counterparts placed placed'

/-- The trees of a run are alike in two places. -/
theorem TokensMoved.gather (moved : TokensMoved false tokens tokens')
    (counterparts : Counterparts (tokens.zip tokens')) {trees : List Tree}
    (read : gather [] [] tokens = some trees) :
    ∃ pairs, AllAlike counterparts.movedLike false pairs ∧ trees = pairs.map Prod.fst ∧
      Syntax.gather [] [] tokens' = some (pairs.map Prod.snd) := by
  have alike := moved.alike counterparts fun _ listed => listed
  have gathered :=
    @gather_alike _ _ _ _ alike [] [] .nil [] [] ⟨[], .nil, rfl, rfl⟩ rfl nofun
  rw [read] at gathered
  generalize Syntax.gather [] [] tokens' = result at gathered ⊢
  cases gathered with
  | some related =>
      obtain ⟨pairs, alike, same, rfl⟩ := related
      exact ⟨pairs, alike, same, rfl⟩

/-- A rule that takes all of a list does so in deeper grammars. -/
theorem exists_of_readsAll {α : Type} {rule : Grammar → Parser α} {least : Nat}
    {related : Likeness → α → α → Prop}
    (agrees : ∀ {like bound g h}, Agree like bound g h →
      Agrees like false least (bound + 1) (related like) (rule g) (rule h))
    (reads : readsAll rule tokens = true) (placed : Placed start tokens) (enough : tokens.length ≤ depth) :
    ∃ trees value, gather [] [] tokens = some trees ∧ rule (ofDepth depth) trees = some (value, []) := by
  obtain ⟨value, found⟩ := Option.isSome_iff_exists.mp reads
  obtain ⟨trees, gathered, readAll⟩ := Option.bind_eq_some_iff.mp found
  have moved := TokensMoved.refl false tokens
  obtain ⟨pairs, alike, rfl, gathered'⟩ :=
    moved.gather (moved.counterparts placed placed) gathered
  have size : weight pairs = tokens.length := congrArg List.length (allTokens_of_gather gathered)
  obtain ⟨value', _, read⟩ := exists_of_first alike (Nat.lt_succ_self _)
    (agrees (ofDepth_agree (Nat.le_of_eq size) (size ▸ enough))) (eq_some_of_all readAll)
  exact ⟨_, value', gathered', read⟩

/-- An item is read the same among others. -/
theorem ItemText.reads (text : ItemText) (moved : TokensMoved false text.tokens tokens)
    (placed : Placed start tokens) (enough : tokens.length ≤ depth) :
    ∃ trees, gather [] [] tokens = some trees ∧ Follows trees ∧ ∀ rest, Follows rest →
      ∃ places item, rest.length < (trees ++ rest).length ∧
        annotated (ofDepth depth) [] (itemRule (ofDepth depth)) (trees ++ rest) = some (item, rest) ∧
        ItemsAlike (Places.reading places) [text.item] (plainItems [item]) := by
  obtain ⟨trees, gathered, found⟩ := Option.bind_eq_some_iff.mp (Option.some_get text.isItem).symm
  have counterparts := moved.counterparts (placed_of_tokens? text.spelled) placed
  obtain ⟨pairs, alike, rfl, gathered'⟩ := moved.gather counterparts gathered
  have size : weight pairs = text.tokens.length := congrArg List.length (allTokens_of_gather gathered)
  have length := moved.length_eq
  split at found
  · cases found
  · rename_i plain
    obtain ⟨item, readAll, same⟩ := Option.map_eq_some_iff.mp found
    have elsewhere (rest : List Tree) (follows : Follows rest) := annotated_itemRule alike
      (Nat.le_of_eq size) (by omega : weight pairs ≤ depth) (eq_some_of_all readAll) follows
    have plain' : headIs (Tree.isMark ';') (pairs.map Prod.snd) = false := by
      cases alike with
      | nil => rfl
      | cons first _ _ =>
          have marks := (@respects_isMark counterparts.movedLike false ';' nofun).same first
          exact marks.symm.trans (Bool.not_eq_true _ ▸ plain)
    have follows : Follows (pairs.map Prod.snd) := by
      obtain ⟨_, _, read⟩ := elsewhere [] .nil
      rw [List.append_nil] at read
      exact follows_annotated read plain'
    refine ⟨_, gathered', follows, fun rest followed => ?_⟩
    obtain ⟨item', related, read⟩ := elsewhere rest followed
    have some_ : pairs ≠ [] := by
      rintro rfl
      have none := eq_some_of_all readAll
      cases none
    refine ⟨counterparts.places, item', ?_, read, ?_⟩
    · have length := List.length_pos_iff.mpr some_
      simpa using length
    · apply ItemsAlike.moved
      rw [ItemText.item, ← same]
      exact .cons related.notes related.values.items .nil

end Elsewhere

/-! ## Files -/

theorem plainItems_cons (item : Annotated ParsedItem) (items : List (Annotated ParsedItem)) :
    plainItems (item :: items) = ⟨item.annotations, item.line, item.value.item⟩ :: plainItems items :=
  rfl

/-- Items are read in their modules, whatever follows them. -/
theorem Wrapping.SpelledBy.reads {wrapping : Wrapping} {tokens : List Token}
    (spelled : wrapping.SpelledBy tokens) {start depth : Nat} (placed : Placed start tokens)
    (enough : tokens.length ≤ depth) :
    ∃ trees, gather [] [] tokens = some trees ∧ Follows trees ∧ ∀ rest, Follows rest →
      ∃ items, Reads (annotated (ofDepth depth) [] (itemRule (ofDepth depth))) (trees ++ rest) items rest ∧
        wrapping.ReadAs (plainItems items) := by
  induction spelled generalizing depth with
  | nil => exact ⟨[], rfl, .nil, fun rest _ => ⟨[], .nil, .nil⟩⟩
  | @item text rest tokens more moved _ inductionHypothesis =>
      rw [List.length_append] at enough
      obtain ⟨trees, gathered, follows, read⟩ :=
        text.reads moved (placed.sublist (List.sublist_append_left _ _)) (by omega : _ ≤ depth)
      obtain ⟨others, gatheredOthers, followsOthers, readOthers⟩ := @inductionHypothesis depth
        (placed.sublist (List.sublist_append_right _ _)) (by omega)
      refine ⟨trees ++ others, gather_joined gathered gatheredOthers, follows.append followsOthers,
        fun left followsLeft => ?_⟩
      obtain ⟨places, item, shorter, readItem, alike⟩ :=
        read (others ++ left) (followsOthers.append followsLeft)
      obtain ⟨items, readItems, readAs⟩ := readOthers left followsLeft
      rw [List.append_assoc]
      exact ⟨item :: items, .cons readItem shorter readItems, .item alike readAs⟩
  | @module frame inner rest tokens more _ _ readInside readLater =>
      simp only [List.length_append, List.length_cons] at enough
      -- the block is read by the grammar of one depth less
      obtain ⟨depth, rfl⟩ : ∃ less, depth = less + 1 := ⟨depth - 1, by omega⟩
      have behindHead := placed.sublist (List.sublist_append_right frame.head _)
      have block := behindHead.sublist (List.sublist_cons_self _ _)
      have content := block.sublist (List.sublist_append_left _ _)
      obtain ⟨head, _, gatheredHead, readHead⟩ := exists_of_readsAll (fun grammars =>
        moduleHead_agrees grammars) frame.isHead (placed.sublist (List.sublist_append_left _ _))
        (by omega : _ ≤ depth + 1)
      obtain ⟨trailing, notes, gatheredTrailing, readTrailing⟩ := exists_of_readsAll (fun grammars =>
        attributes_agrees grammars) frame.areAttributes
        (content.sublist (List.sublist_append_right _ _)) (by omega : _ ≤ depth)
      obtain ⟨trees, gathered, _, read⟩ := @readInside depth
        (content.sublist (List.sublist_append_left _ _)) (by omega)
      obtain ⟨others, gatheredOthers, followsOthers, readOthers⟩ := @readLater (depth + 1)
        ((block.sublist (List.sublist_append_right _ _)).sublist (List.sublist_cons_self _ _)) (by omega)
      obtain ⟨items, readItems, readAs⟩ := read trailing (follows_of_attributes readTrailing .nil)
      refine ⟨head ++ .group .brace frame.opening (trees ++ trailing) frame.closing :: others, ?_,
        follows_moduleHead readHead, fun left followsLeft => ?_⟩
      · rw [gather_append gatheredHead, gather_group (gather_joined gathered gatheredTrailing) frame.opens
          frame.closes, gather_behind gatheredOthers]
        simp
      obtain ⟨more, readMore, readAsMore⟩ := readOthers left followsLeft
      obtain ⟨moduleNotes, line, readModule⟩ := annotated_module readHead
        (itemsRule_of_reads readItems readTrailing) (others ++ left)
      rw [List.append_assoc, List.cons_append]
      exact ⟨_ :: more, .cons readModule (by simp; omega) readMore, .module readAs readAsMore⟩

/-- A text that spells a wrapping is read as its items in their modules. -/
theorem Wrapping.Spells.exists_items {wrapping : Wrapping} {text : String}
    (spells : wrapping.Spells text) :
    ∃ items, itemsOf? text = some items ∧ wrapping.ReadAs items := by
  obtain ⟨tokens, rest, read, spelled, areAttributes⟩ := spells
  have placed := placed_of_tokens? read
  have first := placed.sublist (List.sublist_append_left tokens rest)
  have last := placed.sublist (List.sublist_append_right tokens rest)
  have within : tokens.length ≤ (tokens ++ rest).length ∧ rest.length ≤ (tokens ++ rest).length := by
    rw [List.length_append]
    omega
  obtain ⟨trees, gathered, _, readItems⟩ := spelled.reads first within.1
  obtain ⟨trailing, notes, gatheredTrailing, readTrailing⟩ :=
    exists_of_readsAll (fun grammars => attributes_agrees grammars) areAttributes last within.2
  obtain ⟨items, reads, readAs⟩ := readItems trailing (follows_of_attributes readTrailing .nil)
  have whole := gather_joined gathered gatheredTrailing
  refine ⟨plainItems items, ?_, readAs⟩
  rw [itemsOf?, trees?_eq, read, Option.bind_some, whole, Option.bind_some, itemsOfTrees,
    allTokens_of_gather whole]
  change (all (itemsRule (ofDepth (tokens ++ rest).length)) (trees ++ trailing)).map plainItems = _
  rw [itemsRule_of_reads reads readTrailing, Option.map_some]

end ProgramIdl.Syntax
