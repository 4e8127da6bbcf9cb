import ProgramIdl.Proofs.Annotations.Docs
import ProgramIdl.Proofs.Declaration.SeedText
import ProgramIdl.Proofs.Text.Compact
import ProgramIdl.Proofs.Text.Identifier

/-!
# Attributes as they are printed

An attribute with arguments is printed with blanks and line breaks wherever they may stand, and with
or without a comma behind the last argument.  It is read as what was printed
(`Attribute.parse?_printed`).
-/

set_option autoImplicit false

namespace ProgramIdl

open ProgramIdl.Text

namespace Text

/-! ## Texts between commas -/

/-- What a normal text keeps of a text between its commas. -/
def Kept (element piece : List Char) : Prop :=
  ∃ front back, Gap front ∧ Gap back ∧ piece = front ++ normalizeBlanks element ++ back

theorem normalizeBlanks_trimStart (text : List Char) :
    normalizeBlanks (trimStart text) = normalizeBlanks text := by
  rw [normalizeBlanks, trimStart_of_flush (trimStart_flush text), normalizeBlanks]

theorem normalizeBlanks_flush (text : List Char) : Flush (normalizeBlanks text) :=
  collapseBlanks_flush (trimStart_flush text)

theorem normalizeBlanks_ended (text : List Char) : Ended (normalizeBlanks text) :=
  collapseBlanks_ended false (trimStart text)

theorem Kept.trim_eq {element piece : List Char} (kept : Kept element piece) :
    trim piece = normalizeBlanks element := by
  obtain ⟨front, back, isFront, isBack, rfl⟩ := kept
  exact trim_append isFront.blank isBack.blank (normalizeBlanks_flush element)
    (normalizeBlanks_ended element)

theorem map_trim_of_kept {elements pieces : List (List Char)}
    (kept : List.Forall₂ Kept elements pieces) : pieces.map trim = elements.map normalizeBlanks := by
  induction kept with
  | nil => rfl
  | cons here _ inductionHypothesis =>
      rw [List.map_cons, List.map_cons, here.trim_eq, inductionHypothesis]

theorem exists_kept_collapseBlanks {elements : List (List Char)} (nonempty : elements ≠ [])
    (waiting : Bool) : ∃ pieces, List.Forall₂ Kept elements pieces ∧
      collapseBlanks waiting ([','].intercalate elements) = [','].intercalate pieces := by
  induction elements generalizing waiting with
  | nil => exact absurd rfl nonempty
  | cons element elements inductionHypothesis =>
      obtain ⟨front, isFront, collapsed⟩ := collapseBlanks_eq_normalizeBlanks waiting element
      cases elements with
      | nil =>
          refine ⟨[front ++ normalizeBlanks element], .cons ⟨front, [], isFront, .inl rfl, ?_⟩ .nil, ?_⟩
          · rw [List.append_nil]
          · rw [List.intercalate_singleton, List.intercalate_singleton, collapsed]
      | cons next elements =>
          obtain ⟨back, isBack, split⟩ := collapseBlanks_append_cons (c := ',') (by decide) waiting
            element ([','].intercalate (next :: elements))
          obtain ⟨pieces, kept, later⟩ := inductionHypothesis (List.cons_ne_nil _ _) false
          refine ⟨(front ++ normalizeBlanks element ++ back) :: pieces,
            .cons ⟨front, back, isFront, isBack, rfl⟩ kept, ?_⟩
          cases kept with
          | cons _ _ =>
              rw [List.intercalate_cons_cons, List.append_assoc, List.singleton_append, split,
                collapsed, later, List.intercalate_cons_cons]
              simp

/-- The text in front of each comma, and the last one, is normalized on its own, save for a space
beside the comma. -/
theorem exists_kept_normalizeBlanks {elements : List (List Char)} (nonempty : elements ≠ []) :
    ∃ pieces, List.Forall₂ Kept elements pieces ∧
      normalizeBlanks ([','].intercalate elements) = [','].intercalate pieces := by
  cases elements with
  | nil => exact absurd rfl nonempty
  | cons element elements =>
      have front : trimStart ([','].intercalate (element :: elements)) =
          [','].intercalate (trimStart element :: elements) := by
        cases elements with
        | nil => rw [List.intercalate_singleton, List.intercalate_singleton]
        | cons next elements =>
            rw [List.intercalate_cons_cons, List.intercalate_cons_cons, List.append_assoc,
              List.append_assoc, List.singleton_append, trimStart_append_cons (by decide)]
      obtain ⟨pieces, kept, collapsed⟩ :=
        exists_kept_collapseBlanks (List.cons_ne_nil (trimStart element) elements) false
      refine ⟨pieces, ?_, by rw [normalizeBlanks, front, collapsed]⟩
      cases kept with
      | cons here later =>
          rw [Kept, normalizeBlanks_trimStart] at here
          exact .cons here later

end Text

theorem Text.Kept.unseparated {element piece : List Char} (kept : Kept element piece)
    (text : SeedText false (normalizeBlanks element)) : Unseparated piece := by
  obtain ⟨front, back, isFront, isBack, rfl⟩ := kept
  have plain {gap : List Char} (isGap : Gap gap) : SeedText false gap :=
    seedText_of_plain fun c listed => isPlain_of_isBlank (isGap.blank c listed)
  exact (((plain isFront).append text).append (plain isBack)).unseparated

/-- Balanced texts between commas are found again, whatever blanks stand beside the commas. -/
theorem topLevelSegments_normalizeBlanks {elements : List (List Char)}
    (texts : ∀ element ∈ elements, SeedText false (normalizeBlanks element)) :
    topLevelSegments [','] (normalizeBlanks ([','].intercalate elements)) =
      (elements.map normalizeBlanks).filter fun segment => !segment.isEmpty := by
  cases elements with
  | nil => rfl
  | cons element elements =>
      obtain ⟨pieces, kept, normal⟩ := exists_kept_normalizeBlanks (List.cons_ne_nil element elements)
      have unseparated : ∀ piece ∈ pieces, Unseparated piece := by
        intro piece listed
        obtain ⟨element, member, here⟩ := exists_left_of_forall₂ kept listed
        exact here.unseparated (texts element member)
      rw [normal, topLevelSegments_intercalate unseparated, map_trim_of_kept kept]

namespace Attribute

/-! ## The parts of an attribute -/

/-- Blanks, as they may stand between the parts of an attribute. -/
abbrev Blanks := { text : List Char // Blank text }

/-- The blanks around the parts of an attribute. -/
structure Frame where
  front : Blanks
  behindSign : Blanks
  behindBracket : Blanks
  behindPath : Blanks
  behindList : Blanks
  back : Blanks

/-- An attribute with a list of arguments. -/
def Frame.attribute (frame : Frame) (path list : List Char) : List Char :=
  frame.front ++ ('#' :: (frame.behindSign ++ '[' :: (frame.behindBracket ++ (path ++
    (frame.behindPath ++ '(' :: (list ++ ')' :: (frame.behindList ++ [']']))))))) ++ frame.back

/-- A text between two visible characters is trimmed. -/
theorem trim_around {opening closing : Char} (opens : isBlank opening = false)
    (closes : isBlank closing = false) (inner : List Char) :
    trim (opening :: (inner ++ [closing])) = opening :: (inner ++ [closing]) := by
  have single : trim [closing] = [closing] := by
    rw [trim_of_flush (flush_cons_iff.mpr closes)]
    exact trimEnd_of_getLast? fun d last => Option.some.inj last ▸ closes
  exact Annotations.trim_append_of_visible opens (List.cons_ne_nil _ _) single

theorem isPathChar_of_isBlank {c : Char} (blank : isBlank c = true) : isPathChar c = false := by
  have colon : c ≠ ':' := by
    rintro rfl
    exact absurd blank (by decide)
  simp [isPathChar, isWordChar_of_isBlank blank, colon]

section Sections

variable {path : List Char} (frame : Frame) (list : List Char)

theorem isBlank_head_of_path (pathChars : path.all isPathChar = true) (nonempty : path ≠ [])
    (rest : List Char) : Flush (path ++ rest) := by
  intro c head
  rw [List.head?_append_of_ne_nil _ nonempty] at head
  have letter := List.all_eq_true.mp pathChars c (List.mem_of_head? head)
  by_contra blank
  rw [Bool.not_eq_false] at blank
  rw [isPathChar_of_isBlank blank] at letter
  cases letter

/-- Neither a blank nor a parenthesis belongs to a path. -/
theorem any_isPathChar_head (blanks : Blanks) (rest : List Char) :
    (blanks.val ++ '(' :: rest).head?.any isPathChar = false := by
  obtain ⟨text, blank⟩ := blanks
  cases text with
  | nil => exact (by decide : isPathChar '(' = false)
  | cons c text => exact isPathChar_of_isBlank (blank c List.mem_cons_self)

theorem sections?_attribute (nonempty : path ≠ []) (pathChars : path.all isPathChar = true) :
    sections? (.ofList (frame.attribute path list)) =
      some (.ofList path, '(' :: (list ++ [')'])) := by
  -- The text behind the path, without its closing bracket.
  generalize held : '(' :: (list ++ ')' :: frame.behindList.val) = body
  have inner : '#' :: (frame.behindSign.val ++ '[' :: (frame.behindBracket.val ++ (path ++
      (frame.behindPath.val ++ '(' :: (list ++ ')' :: (frame.behindList.val ++ [']'])))))) =
      '#' :: (frame.behindSign.val ++ '[' :: (frame.behindBracket.val ++ (path ++
        (frame.behindPath.val ++ body))) ++ [']']) := by
    rw [← held]
    simp
  have text : trim (frame.attribute path list) = '#' :: (frame.behindSign.val ++
      '[' :: (frame.behindBracket.val ++ (path ++ (frame.behindPath.val ++ body ++ [']'])))) := by
    rw [Frame.attribute, inner, trim_blanks frame.front.property frame.back.property,
      trim_around (by decide) (by decide)]
    simp
  have bracket : trimStart (frame.behindSign.val ++ '[' :: (frame.behindBracket.val ++ (path ++
      (frame.behindPath.val ++ body ++ [']'])))) = '[' :: (frame.behindBracket.val ++ (path ++
        (frame.behindPath.val ++ body ++ [']']))) := by
    rw [trimStart_append frame.behindSign.property, trimStart_of_flush (flush_cons_iff.mpr (by decide))]
  have start : trimStart (frame.behindBracket.val ++ (path ++ (frame.behindPath.val ++ body ++
      [']']))) = path ++ (frame.behindPath.val ++ body ++ [']']) := by
    rw [trimStart_append frame.behindBracket.property,
      trimStart_of_flush (isBlank_head_of_path pathChars nonempty _)]
  have stops : (frame.behindPath.val ++ body ++ [']']).head?.any isPathChar = false := by
    rw [← held, List.append_assoc, List.cons_append]
    exact any_isPathChar_head frame.behindPath _
  have behind : trimStart (frame.behindPath.val ++ body ++ [']']) = body ++ [']'] := by
    rw [← held, List.append_assoc, trimStart_append frame.behindPath.property,
      List.cons_append, trimStart_of_flush (flush_cons_iff.mpr (by decide))]
  have closing : (body ++ [']']).reverse = ']' :: body.reverse := by simp
  have trimmed : trim body = '(' :: (list ++ [')']) := by
    have whole := trim_blanks Annotations.blank_nil frame.behindList.property ('(' :: (list ++ [')']))
    rw [trim_around (by decide) (by decide)] at whole
    rw [← whole, ← held]
    simp
  have some_ : path.isEmpty = false := by simp [nonempty]
  rw [sections?, String.toList_ofList, text]
  simp only [bracket, start, takeWhile_front pathChars stops, dropWhile_front pathChars stops, behind,
    closing, List.reverse_reverse, some_, trimmed]
  rfl

theorem unwrap_parentheses (list : List Char) : unwrap ['('] [')'] ('(' :: (list ++ [')'])) = trim list := by
  have opens : ['('].isPrefixOf ('(' :: (list ++ [')'])) = true := by simp
  have closes : [')'].isSuffixOf ('(' :: (list ++ [')'])) = true := by
    rw [List.isSuffixOf_iff_suffix, ← List.cons_append]
    exact List.suffix_append _ _
  rw [unwrap, trim_around (by decide) (by decide)]
  simp only [opens, closes, Bool.and_self, if_true]
  rw [← List.cons_append, List.length_append, Nat.add_sub_cancel, List.take_left]
  rfl

theorem normalizeBlanks_of_blank {text : List Char} (blank : Blank text) :
    normalizeBlanks text = [] := by
  have whole := normalizeBlanks_append blank Annotations.blank_nil []
  rwa [List.append_nil, List.append_nil] at whole

theorem normalizeBlanks_trim (text : List Char) : normalizeBlanks (trim text) = normalizeBlanks text := by
  obtain ⟨front, back, split, frontBlank, backBlank⟩ := exists_trim_split text
  conv_rhs => rw [split, normalizeBlanks_append frontBlank backBlank]

/-- The arguments of an attribute are the texts between its commas that are not empty. -/
theorem parse?_attribute {elements : List (List Char)} (nonempty : path ≠ [])
    (pathChars : path.all isPathChar = true)
    (texts : ∀ element ∈ elements, SeedText false (normalizeBlanks element)) :
    parse? (.ofList (frame.attribute path ([','].intercalate elements))) =
      some ((((elements.map normalizeBlanks).filter fun text => !text.isEmpty).map
        fun text => Argument.ofText (.ofList text)).foldl add
          { path := .ofList path
            arguments := .ofList (normalizeBlanks ([','].intercalate elements)) }) := by
  have arguments : splitTopLevel (.ofList (normalizeBlanks ([','].intercalate elements))) =
      ((elements.map normalizeBlanks).filter fun text => !text.isEmpty).map .ofList := by
    rw [splitTopLevel, String.toList_ofList, String.toList_ofList,
      ← topLevelSegments_normalizeBlanks texts]
  rw [parse?, sections?_attribute frame _ nonempty pathChars, Option.map_some]
  simp only [unwrap_parentheses, normalizeBlanks_trim, arguments, List.map_map]
  rfl

end Sections

/-! ## Printed arguments -/

/-- A text that an argument is made of: it is not empty, its blanks are single spaces inside of it,
and its brackets and strings close, with no comma outside of them. -/
structure Word (text : List Char) : Prop where
  nonempty : text ≠ []
  normal : normalizeBlanks text = text
  balanced : SeedText false text

/-- An argument that reads as what it is. -/
inductive Argument.Printable : Argument → Prop where
  | flag {text : String} (word : Word text.toList) (unsigned : '=' ∉ text.toList) :
      Printable (.flag text)
  | pair {key value : String} (keyWord : Word key.toList) (unsigned : '=' ∉ key.toList)
      (valueWord : Word value.toList) (single : value.toList.head? ≠ some '=') :
      Printable (.pair key value)

/-- The blanks around an argument and around its equals sign. -/
structure Spacing where
  front : Blanks
  beforeSign : Blanks
  behindSign : Blanks
  back : Blanks

/-- The text of an argument. -/
def Argument.printed (spacing : Spacing) : Argument → List Char
  | .flag text => spacing.front ++ text.toList ++ spacing.back
  | .pair key value => spacing.front ++ (key.toList ++ spacing.beforeSign ++
      '=' :: (spacing.behindSign ++ value.toList)) ++ spacing.back

def Argument.pair? : Argument → Option (String × String)
  | .pair key value => some (key, value)
  | .flag _ => none

def Argument.flag? : Argument → Option String
  | .pair _ _ => none
  | .flag text => some text

section Words

variable {text : List Char}

theorem Word.flush (word : Word text) : Flush text := by
  rw [← word.normal]
  exact normalizeBlanks_flush text

theorem Word.ended (word : Word text) : Ended text := by
  rw [← word.normal]
  exact normalizeBlanks_ended text

theorem Word.trim_gap (word : Word text) {front back : List Char} (isFront : Gap front)
    (isBack : Gap back) : trim (front ++ text ++ back) = text :=
  trim_append isFront.blank isBack.blank word.flush word.ended

end Words

/-- Normalizing leaves at most a space on either side of an equals sign. -/
theorem normalizeBlanks_pair {key value : List Char} (keyWord : Word key) (valueWord : Word value)
    (before behind : Blanks) : ∃ left right, Gap left ∧ Gap right ∧
      normalizeBlanks (key ++ before ++ '=' :: (behind ++ value)) =
        key ++ left ++ '=' :: (right ++ value) := by
  obtain ⟨left, isLeft, split⟩ := collapseBlanks_append_cons (c := '=') (by decide) false
    (key ++ before.val) (behind.val ++ value)
  obtain ⟨right, isRight, later⟩ := collapseBlanks_eq_normalizeBlanks false (behind.val ++ value)
  have front : collapseBlanks false (key ++ before.val) = key := by
    have normal := keyWord.normal
    rw [normalizeBlanks, trimStart_of_flush keyWord.flush] at normal
    rw [collapseBlanks_append_blank before.property, normal]
  have back : normalizeBlanks (behind.val ++ value) = value := by
    have whole := normalizeBlanks_append behind.property Annotations.blank_nil value
    rwa [List.append_nil, valueWord.normal] at whole
  have flush : Flush (key ++ before.val ++ '=' :: (behind.val ++ value)) := by
    intro c head
    rw [List.append_assoc, List.head?_append_of_ne_nil _ keyWord.nonempty] at head
    exact keyWord.flush c head
  refine ⟨left, right, isLeft, isRight, ?_⟩
  rw [normalizeBlanks, trimStart_of_flush flush, split, front, later, back, List.append_assoc]

namespace Argument.Printable

variable {argument : Argument}

/-- A printed argument is read as what it is, and its brackets and strings close. -/
theorem ofText_printed (printable : argument.Printable) (spacing : Spacing) :
    Argument.ofText (.ofList (normalizeBlanks (argument.printed spacing))) = argument ∧
      SeedText false (normalizeBlanks (argument.printed spacing)) ∧
        normalizeBlanks (argument.printed spacing) ≠ [] := by
  cases printable with
  | @flag text word unsigned =>
      rw [printed, normalizeBlanks_append spacing.front.property spacing.back.property, word.normal]
      refine ⟨?_, word.balanced, word.nonempty⟩
      rw [ofText, String.toList_ofList, cutAt_of_not_mem unsigned, String.ofList_toList]
  | @pair key value keyWord unsigned valueWord single =>
      obtain ⟨left, right, isLeft, isRight, normal⟩ :=
        normalizeBlanks_pair keyWord valueWord spacing.beforeSign spacing.behindSign
      rw [printed, normalizeBlanks_append spacing.front.property spacing.back.property, normal]
      have plain {gap : List Char} (isGap : Gap gap) : SeedText false gap :=
        seedText_of_plain fun c listed => isPlain_of_isBlank (isGap.blank c listed)
      refine ⟨?_, ?_, by simp⟩
      · have absent : '=' ∉ key.toList ++ left := by
          rw [List.mem_append, not_or]
          refine ⟨unsigned, fun listed => ?_⟩
          exact absurd (isLeft.blank '=' listed) (by decide)
        have other : (right ++ value.toList).head? ≠ some '=' := by
          rcases isRight with rfl | rfl
          · exact single
          · exact fun same => absurd (Option.some.inj same) (by decide)
        have front := keyWord.trim_gap (.inl rfl) isLeft
        have back := valueWord.trim_gap isRight (.inl rfl)
        rw [List.nil_append] at front
        rw [List.append_nil] at back
        rw [ofText, String.toList_ofList, cutAt_append absent]
        simp only [other, if_false, front, back, String.ofList_toList]
      · exact (keyWord.balanced.append (plain isLeft)).append
          (.plain (.inl (by decide)) ((plain isRight).append valueWord.balanced))

end Argument.Printable

/-! ## Reading what is printed -/

theorem setPair_of_not_mem {key : String} {pairs : List (String × String)}
    (fresh : key ∉ pairs.map Prod.fst) (value : String) :
    setPair key value pairs = pairs ++ [(key, value)] := by
  induction pairs with
  | nil => rfl
  | cons pair pairs inductionHypothesis =>
      rw [List.map_cons, List.mem_cons, not_or] at fresh
      rw [setPair, if_neg (Ne.symm fresh.1), inductionHypothesis fresh.2, List.cons_append]

/-- Arguments with keys of their own are listed one by one. -/
theorem foldl_add {arguments : List Argument} {attr : Attribute}
    (distinct : ((attr.pairs ++ arguments.filterMap Argument.pair?).map Prod.fst).Nodup) :
    arguments.foldl add attr =
      { attr with
        pairs := attr.pairs ++ arguments.filterMap Argument.pair?
        flags := attr.flags ++ arguments.filterMap Argument.flag? } := by
  induction arguments generalizing attr with
  | nil => simp
  | cons argument arguments inductionHypothesis =>
      cases argument with
      | pair key value =>
          have listed : (Argument.pair key value :: arguments).filterMap Argument.pair? =
              (key, value) :: arguments.filterMap Argument.pair? := rfl
          have fresh : key ∉ attr.pairs.map Prod.fst := by
            rw [listed, List.map_append, List.map_cons, List.nodup_middle, List.nodup_cons] at distinct
            exact fun member => distinct.1 (List.mem_append_left _ member)
          have added : attr.add (.pair key value) =
              { attr with pairs := attr.pairs ++ [(key, value)] } := by
            rw [add, setPair_of_not_mem fresh]
          rw [listed, List.append_cons] at distinct
          rw [List.foldl_cons, added, inductionHypothesis distinct, listed, ← List.append_cons]
          rfl
      | flag text =>
          have later := @inductionHypothesis (attr.add (.flag text)) distinct
          rw [List.foldl_cons, later, add, List.append_assoc]
          rfl

/-- The text of some arguments, with a comma behind the last one or without. -/
def printedList (arguments : List (Argument × Spacing)) (ending : Option Blanks) : List Char :=
  [','].intercalate (arguments.map (fun (argument, spacing) => argument.printed spacing) ++
    ending.toList.map Subtype.val)

/-- Reading an attribute undoes printing it, wherever blanks stand, and with or without a comma
behind the last argument. -/
theorem parse?_printed {path : String} (nonempty : path ≠ "")
    (pathChars : path.toList.all isPathChar = true) {arguments : List (Argument × Spacing)}
    (printable : ∀ entry ∈ arguments, entry.1.Printable)
    (distinct : ((arguments.filterMap (·.1.pair?)).map Prod.fst).Nodup)
    (frame : Frame) (ending : Option Blanks) :
    parse? (.ofList (frame.attribute path.toList (printedList arguments ending))) = some
      { path := path
        arguments := .ofList (normalizeBlanks (printedList arguments ending))
        pairs := arguments.filterMap (·.1.pair?)
        flags := arguments.filterMap (·.1.flag?) } := by
  obtain ⟨elements, written⟩ : ∃ elements, elements =
      arguments.map (fun (argument, spacing) => argument.printed spacing) ++
        ending.toList.map Subtype.val := ⟨_, rfl⟩
  have texts : ∀ element ∈ elements, SeedText false (normalizeBlanks element) := by
    rw [written, List.forall_mem_append, List.forall_mem_map, List.forall_mem_map]
    refine ⟨fun entry listed => ((printable entry listed).ofText_printed entry.2).2.1, ?_⟩
    intro blanks _
    rw [normalizeBlanks_of_blank blanks.property]
    exact .nil
  have read : ((elements.map normalizeBlanks).filter fun text => !text.isEmpty).map
      (fun text => Argument.ofText (.ofList text)) = arguments.map Prod.fst := by
    have kept : ∀ text ∈ (arguments.map fun (argument, spacing) =>
        argument.printed spacing).map normalizeBlanks, (!text.isEmpty) = true := by
      rw [List.forall_mem_map, List.forall_mem_map]
      intro entry listed
      simpa using ((printable entry listed).ofText_printed entry.2).2.2
    have dropped : ∀ text ∈ (ending.toList.map Subtype.val).map normalizeBlanks,
        ¬ (!text.isEmpty) = true := by
      rw [List.forall_mem_map, List.forall_mem_map]
      intro blanks _
      rw [normalizeBlanks_of_blank blanks.property]
      decide
    rw [written, List.map_append, List.filter_append, List.filter_eq_self.mpr kept,
      List.filter_eq_nil_iff.mpr dropped, List.append_nil, List.map_map, List.map_map]
    exact List.map_congr_left fun entry listed =>
      ((printable entry listed).ofText_printed entry.2).1
  have parsed := parse?_attribute frame (by simpa using nonempty) pathChars texts
  rw [read, String.ofList_toList, foldl_add (by simpa [List.filterMap_map] using distinct)] at parsed
  rw [printedList, ← written, parsed]
  simp [List.filterMap_map]

/-! ### An attribute in four lines -/

def noBlanks : Blanks := ⟨[], Annotations.blank_nil⟩

def space : Blanks := ⟨[' '], forall_mem_of_all (by decide)⟩

def indent : Blanks := ⟨['\n', '\t'], forall_mem_of_all (by decide)⟩

/-- Two pairs and a flag; a comma and a parenthesis stand in the value of one pair. -/
def seededArguments : List (Argument × Spacing) :=
  [(.pair "discriminator" "Kind", ⟨indent, space, space, noBlanks⟩),
    (.pair "seeds" "[a, \",)\"]", ⟨indent, noBlanks, noBlanks, space⟩),
    (.flag "final", ⟨indent, noBlanks, noBlanks, noBlanks⟩)]

theorem printable_seededArguments : ∀ entry ∈ seededArguments, entry.1.Printable := by
  have word {text : List Char} (nonempty : text ≠ []) (normal : normalizeBlanks text = text)
      (plain : ∀ c ∈ text, isPlain c = true) : Word text :=
    ⟨nonempty, normal, seedText_of_plain plain⟩
  have seeds : SeedText false "[a, \",)\"]".toList := by
    have string : SeedText true "\",)\"".toList :=
      @SeedText.string true [',', ')'] [] (.plain (by decide) (.plain (by decide) .nil)) .nil
    have inside : SeedText true "a, \",)\"".toList :=
      .plain (.inl (by decide)) (.plain (.inr ⟨rfl, rfl⟩) (.plain (.inl (by decide)) string))
    exact @SeedText.group false '[' ']' "a, \",)\"".toList [] (by decide) inside .nil
  intro entry listed
  simp only [seededArguments, List.mem_cons, List.not_mem_nil, or_false] at listed
  rcases listed with rfl | rfl | rfl
  · exact .pair (word (by decide) (by decide +kernel) (forall_mem_of_all (by decide))) (by decide)
      (word (by decide) (by decide +kernel) (forall_mem_of_all (by decide))) (by decide)
  · exact .pair (word (by decide) (by decide +kernel) (forall_mem_of_all (by decide))) (by decide)
      ⟨by decide, by decide +kernel, seeds⟩ (by decide)
  · exact .flag (word (by decide) (by decide +kernel) (forall_mem_of_all (by decide))) (by decide)

theorem parse?_printed_seeded :
    parse? "#[ account(\n\tdiscriminator = Kind,\n\tseeds=[a, \",)\"] ,\n\tfinal,\n\t)]\n\t" = some
      { path := "account"
        arguments := "discriminator = Kind, seeds=[a, \",)\"] , final,"
        pairs := [("discriminator", "Kind"), ("seeds", "[a, \",)\"]")]
        flags := ["final"] } := by
  have text : String.ofList ((Frame.mk noBlanks noBlanks space noBlanks noBlanks indent).attribute
      "account".toList (printedList seededArguments (some indent))) =
        "#[ account(\n\tdiscriminator = Kind,\n\tseeds=[a, \",)\"] ,\n\tfinal,\n\t)]\n\t" := by
    decide +kernel
  rw [← text, parse?_printed (by decide) (by decide +kernel) printable_seededArguments
    (by decide)]
  decide +kernel

end Attribute

end ProgramIdl
