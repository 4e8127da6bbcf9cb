import Mathlib.Data.List.Forall2
import ProgramIdl.Proofs.Json.Scalars

/-!
# Reading what has been written

A value whose numbers are whole and not too long has a text in either style, and reading the text
gives the value back (`Plain.read?_render?`).
-/

set_option autoImplicit false

namespace ProgramIdl.Json

/-! ## Values -/

/-- A value that can be written and read: its numbers are whole, and none of them is too long. -/
inductive Plain : Value → Prop where
  | null : Plain .null
  | boolean (value : Bool) : Plain (.boolean value)
  | integer {value : Int} (short : exceedsLimit value = false) : Plain (.integer value)
  | text (value : String) : Plain (.text value)
  | array {items : List Value} (all : ∀ item ∈ items, Plain item) : Plain (.array items)
  | object {fields : List (String × Value)} (all : ∀ field ∈ fields, Plain field.2) :
      Plain (.object fields)

/-- A text that does not look like the end of an array or an object. -/
def Opens (text : List Char) : Prop :=
  ∃ c rest, text = c :: rest ∧ isBlank c = false ∧ c ≠ ']' ∧ c ≠ '\x7d'

/-- The text of a value at a level, from which the value is read back. -/
structure WrittenAs (style : Style) (level : Nat) (value : Value) (text : List Char) : Prop where
  rendered : renderAt style level value = some text
  opens : Opens text
  read : ∀ rest limit, Stops rest → 2 * text.length ≤ limit →
    valueAt limit (text ++ rest) = .ok (value, rest)

theorem Opens.append {text : List Char} (opens : Opens text) (rest : List Char) :
    Opens (text ++ rest) := by
  obtain ⟨c, more, rfl, other⟩ := opens
  exact ⟨c, more ++ rest, rfl, other⟩

theorem opens_intercalate (separator : List Char) {text : List Char} (opens : Opens text)
    (texts : List (List Char)) : Opens (separator.intercalate (text :: texts)) := by
  cases texts with
  | nil => rwa [List.intercalate_singleton]
  | cons next texts =>
      rw [List.intercalate_cons_cons, List.append_assoc]
      exact opens.append _

theorem opens_quotedText (text : String) : Opens (quotedText text) :=
  ⟨'"', text.toList.flatMap escapedChar ++ ['"'], rfl, by decide⟩

theorem skipBlanks_append {blanks : List Char} (blank : ∀ c ∈ blanks, isBlank c = true)
    (rest : List Char) : skipBlanks (blanks ++ rest) = skipBlanks rest := by
  rw [skipBlanks, List.dropWhile_append_of_pos blank, skipBlanks]

theorem skipBlanks_cons {c : Char} (visible : isBlank c = false) (rest : List Char) :
    skipBlanks (c :: rest) = c :: rest := by
  rw [skipBlanks, List.dropWhile_cons_of_neg (by simp [visible])]

theorem Opens.skipBlanks_append {text : List Char} (opens : Opens text) (rest : List Char) :
    skipBlanks (text ++ rest) = text ++ rest := by
  obtain ⟨c, more, rfl, visible, _⟩ := opens
  exact skipBlanks_cons visible (more ++ rest)

theorem stops_mark {mark : Char} (stops : mark.isDigit = false ∧ mark ∉ ['.', 'e', 'E'])
    (rest : List Char) : Stops (mark :: rest) := by
  intro c head
  obtain rfl := Option.some.inj head
  exact stops

theorem stops_blank {blanks : List Char} (blank : ∀ c ∈ blanks, isBlank c = true) :
    Stops blanks := by
  intro c head
  have isBlankChar := blank c (List.mem_of_head? head)
  simp only [isBlank, Bool.or_eq_true, decide_eq_true_eq] at isBlankChar
  rcases isBlankChar with ((rfl | rfl) | rfl) | rfl <;> decide

/-- Blanks and marks stop a number. -/
theorem stops_blanks {blanks : List Char} (blank : ∀ c ∈ blanks, isBlank c = true) {mark : Char}
    (stops : mark.isDigit = false ∧ mark ∉ ['.', 'e', 'E']) (rest : List Char) :
    Stops (blanks ++ mark :: rest) := by
  cases blanks with
  | nil => exact stops_mark stops rest
  | cons first blanks =>
      intro c head
      exact stops_blank blank c head

theorem lineBreak_blank (style : Style) (level : Nat) :
    ∀ c ∈ lineBreak style level, isBlank c = true := by
  intro c member
  cases style with
  | compact => cases member
  | pretty =>
      rcases List.mem_cons.mp member with rfl | space
      · rfl
      · rw [List.eq_of_mem_replicate space]
        rfl

theorem valueAt_scalar {limit : Nat} {c : Char} (other : c ≠ '[' ∧ c ≠ '\x7b')
    (rest : List Char) : valueAt (limit + 1) (c :: rest) = scalar (c :: rest) := by
  rw [valueAt]
  · rintro rest same
    exact other.1 (List.cons.inj same).1
  · rintro rest same
    exact other.2 (List.cons.inj same).1

theorem writtenAs_scalar {value : Value} {text : List Char} {c : Char} {more : List Char}
    (split : text = c :: more) (first : c ∉ ['[', ']', '\x7b', '\x7d'] ∧ isBlank c = false)
    {style : Style} {level : Nat} (rendered : renderAt style level value = some text)
    (read : ∀ rest, Stops rest → scalar? (text ++ rest) = some (value, rest))
    (short : ∀ number, value = .integer number → exceedsLimit number = false) :
    WrittenAs style level value text := by
  obtain ⟨other, visible⟩ := first
  simp only [List.mem_cons, List.not_mem_nil, or_false, not_or] at other
  refine ⟨rendered, ⟨c, more, split, visible, other.2.1, other.2.2.2⟩, ?_⟩
  intro rest limit stops enough
  cases limit with
  | zero =>
      rw [split, List.length_cons] at enough
      omega
  | succ limit =>
      have scalar := scalar_eq_ok (read rest stops) short
      rw [split, List.cons_append] at scalar ⊢
      rw [valueAt_scalar ⟨other.1, other.2.2.1⟩, scalar]

/-! ## Items and fields -/

theorem itemsAt_last {limit : Nat} {text rest behind : List Char} {item : Value}
    (read : valueAt limit text = .ok (item, rest)) (closes : skipBlanks rest = ']' :: behind) :
    itemsAt (limit + 1) text = .ok ([item], behind) := by
  rw [itemsAt, read, ok_bind]
  simp [closes]

theorem itemsAt_more {limit : Nat} {text rest behind last : List Char} {item : Value}
    {items : List Value} (read : valueAt limit text = .ok (item, rest))
    (goesOn : skipBlanks rest = ',' :: behind)
    (later : itemsAt limit (skipBlanks behind) = .ok (items, last)) :
    itemsAt (limit + 1) text = .ok (item :: items, last) := by
  rw [itemsAt, read, ok_bind]
  simp [goesOn, later]

/-- The text of a field, up to its value. -/
theorem valueAt_of_colon {style : Style} {level limit : Nat} {value : Value} {text : List Char}
    (written : WrittenAs style level value text) {rest : List Char} (stops : Stops rest)
    (enough : 2 * text.length ≤ limit) : ∃ behind,
      skipBlanks (colon style ++ (text ++ rest)) = ':' :: behind ∧
        valueAt limit (skipBlanks behind) = .ok (value, rest) := by
  have read := written.read rest limit stops enough
  cases style with
  | compact =>
      refine ⟨text ++ rest, skipBlanks_cons (by decide) _, ?_⟩
      rw [written.opens.skipBlanks_append, read]
  | pretty =>
      refine ⟨' ' :: (text ++ rest), skipBlanks_cons (by decide) _, ?_⟩
      have blank : ∀ c ∈ [' '], isBlank c = true := List.forall_mem_singleton.mpr (by decide)
      rw [← List.singleton_append, skipBlanks_append blank, written.opens.skipBlanks_append, read]

theorem fieldsAt_last {limit : Nat} {name : String} {value : Value}
    {text middle rest behind : List Char} (colon : skipBlanks text = ':' :: middle)
    (read : valueAt limit (skipBlanks middle) = .ok (value, rest))
    (closes : skipBlanks rest = '\x7d' :: behind) :
    fieldsAt (limit + 1) (quotedText name ++ text) = .ok ([(name, value)], behind) := by
  rw [fieldsAt, fieldName_quotedText, ok_bind]
  simp [colon, read, closes]

theorem fieldsAt_more {limit : Nat} {name : String} {value : Value}
    {text middle rest behind last : List Char} {fields : List (String × Value)}
    (colon : skipBlanks text = ':' :: middle)
    (read : valueAt limit (skipBlanks middle) = .ok (value, rest))
    (goesOn : skipBlanks rest = ',' :: behind)
    (later : fieldsAt limit (skipBlanks behind) = .ok (fields, last)) :
    fieldsAt (limit + 1) (quotedText name ++ text) = .ok ((name, value) :: fields, last) := by
  rw [fieldsAt, fieldName_quotedText, ok_bind]
  simp [colon, read, goesOn, later]

/-- The text of a field. -/
def FieldWrittenAs (style : Style) (level : Nat) (field : String × Value) (text : List Char) :
    Prop :=
  ∃ value, WrittenAs style level field.2 value ∧ text = quotedText field.1 ++ (colon style ++ value)

/-- A reader of entries takes one entry, and then either finds the mark that closes them or goes on
behind a comma. -/
structure ReadsEntries {α : Type} (reader : Nat → List Char → Except ReadFault (List α × List Char))
    (writes : α → List Char → Prop) (closing : Char) : Prop where
  visible : isBlank closing = false
  ends : closing.isDigit = false ∧ closing ∉ ['.', 'e', 'E']
  opens : ∀ {entry text}, writes entry text → Opens text
  last : ∀ {entry text rest behind limit}, writes entry text → Stops rest →
    2 * text.length ≤ limit → skipBlanks rest = closing :: behind →
      reader (limit + 1) (text ++ rest) = .ok ([entry], behind)
  more : ∀ {entry text rest behind others last limit}, writes entry text → Stops rest →
    2 * text.length ≤ limit → skipBlanks rest = ',' :: behind →
      reader limit (skipBlanks behind) = .ok (others, last) →
        reader (limit + 1) (text ++ rest) = .ok (entry :: others, last)

theorem readsItems (style : Style) (level : Nat) :
    ReadsEntries itemsAt (WrittenAs style level) ']' where
  visible := by decide
  ends := by decide
  opens := fun written => written.opens
  last := fun written stops enough closes => itemsAt_last (written.read _ _ stops enough) closes
  more := fun written stops enough goesOn later =>
    itemsAt_more (written.read _ _ stops enough) goesOn later

theorem readsFields (style : Style) (level : Nat) :
    ReadsEntries fieldsAt (FieldWrittenAs style level) '\x7d' where
  visible := by decide
  ends := by decide
  opens := by
    rintro field _ ⟨value, _, rfl⟩
    exact (opens_quotedText field.1).append _
  last := by
    rintro field _ rest behind limit ⟨value, written, rfl⟩ stops enough closes
    simp only [List.length_append] at enough
    obtain ⟨middle, afterName, read⟩ :=
      valueAt_of_colon written stops (show 2 * value.length ≤ limit by omega)
    rw [List.append_assoc, List.append_assoc]
    exact fieldsAt_last afterName read closes
  more := by
    rintro field _ rest behind others last limit ⟨value, written, rfl⟩ stops enough goesOn later
    simp only [List.length_append] at enough
    obtain ⟨middle, afterName, read⟩ :=
      valueAt_of_colon written stops (show 2 * value.length ≤ limit by omega)
    rw [List.append_assoc, List.append_assoc]
    exact fieldsAt_more afterName read goesOn later

section Entries

variable {α : Type} {reader : Nat → List Char → Except ReadFault (List α × List Char)}
  {writes : α → List Char → Prop} {closing : Char} {entries : List α} {texts : List (List Char)}

/-- Entries with commas and blanks between them are read up to the mark that closes them. -/
theorem ReadsEntries.read_intercalate (reads : ReadsEntries reader writes closing)
    (written : List.Forall₂ writes entries texts) (nonempty : entries ≠ []) {gap close : List Char}
    (gapBlank : ∀ c ∈ gap, isBlank c = true) (closeBlank : ∀ c ∈ close, isBlank c = true)
    (rest : List Char) (limit : Nat)
    (enough : 2 * ((',' :: gap).intercalate texts).length + 1 ≤ limit) :
    reader limit ((',' :: gap).intercalate texts ++ (close ++ closing :: rest)) =
      .ok (entries, rest) := by
  -- Each entry takes one step of the limit, which the comma in front of the next one pays for.
  induction written generalizing limit with
  | nil => exact absurd rfl nonempty
  | @cons entry text entries texts here later inductionHypothesis =>
      cases limit with
      | zero => omega
      | succ limit =>
          cases later with
          | nil =>
              rw [List.intercalate_singleton] at enough ⊢
              refine reads.last here (stops_blanks closeBlank reads.ends rest) (by omega) ?_
              rw [skipBlanks_append closeBlank, skipBlanks_cons reads.visible]
          | @cons next nextText entries texts nextHere later =>
              have opens := opens_intercalate (',' :: gap) (reads.opens nextHere) texts
              rw [List.intercalate_cons_cons] at enough ⊢
              simp only [List.length_append, List.length_cons] at enough
              generalize joined : (',' :: gap).intercalate (nextText :: texts) = others at *
              have split : text ++ (',' :: gap) ++ others ++ (close ++ closing :: rest) =
                  text ++ ',' :: (gap ++ (others ++ (close ++ closing :: rest))) := by simp
              rw [split]
              refine reads.more here (stops_mark (by decide) _) (by omega)
                (skipBlanks_cons (by decide) _) ?_
              rw [skipBlanks_append gapBlank, opens.skipBlanks_append]
              exact inductionHypothesis (by simp) limit (by omega)

theorem bracketed_cons (style : Style) (level : Nat) (opening closing : Char) (text : List Char)
    (texts : List (List Char)) : bracketed style level opening closing (text :: texts) =
      opening :: (lineBreak style (level + 1) ++
        ((',' :: lineBreak style (level + 1)).intercalate (text :: texts) ++
          (lineBreak style level ++ [closing]))) := by
  simp [bracketed]

/-- Entries between brackets write a value if a reader of the entries finds the value behind the
opening bracket. -/
theorem ReadsEntries.writtenAs (reads : ReadsEntries reader writes closing)
    (written : List.Forall₂ writes entries texts) {style : Style} {level : Nat} {value : Value}
    {opening : Char}
    (rendered : renderAt style level value = some (bracketed style level opening closing texts))
    (opens : isBlank opening = false ∧ opening ≠ ']' ∧ opening ≠ '\x7d')
    (empty : ∀ {limit rest}, entries = [] →
      valueAt (limit + 1) (opening :: closing :: rest) = .ok (value, rest))
    (filled : ∀ {limit text rest}, Opens (skipBlanks text) →
      reader limit (skipBlanks text) = .ok (entries, rest) →
        valueAt (limit + 1) (opening :: text) = .ok (value, rest)) :
    WrittenAs style level value (bracketed style level opening closing texts) := by
  refine ⟨rendered, ?_, ?_⟩
  · cases texts <;> exact ⟨opening, _, rfl, opens⟩
  · intro rest limit stops enough
    cases limit with
    | zero => cases texts <;> simp [bracketed] at enough
    | succ limit =>
        cases written with
        | nil => exact empty rfl
        | @cons entry text entries texts here later =>
            have whole := opens_intercalate (',' :: lineBreak style (level + 1)) (reads.opens here)
              texts
            have read := reads.read_intercalate (.cons here later) (by simp)
              (lineBreak_blank style (level + 1)) (lineBreak_blank style level) rest
            rw [bracketed_cons] at enough ⊢
            simp only [List.length_append, List.length_cons] at enough
            generalize joined : (',' :: lineBreak style (level + 1)).intercalate (text :: texts) =
              inside at *
            have split : opening :: (lineBreak style (level + 1) ++
                (inside ++ (lineBreak style level ++ [closing]))) ++ rest =
                  opening :: (lineBreak style (level + 1) ++
                    (inside ++ (lineBreak style level ++ closing :: rest))) := by simp
            have skipped : skipBlanks (lineBreak style (level + 1) ++
                (inside ++ (lineBreak style level ++ closing :: rest))) =
                  inside ++ (lineBreak style level ++ closing :: rest) := by
              rw [skipBlanks_append (lineBreak_blank style (level + 1)), whole.skipBlanks_append]
            rw [split]
            refine filled ?_ ?_
            · rw [skipped]
              exact whole.append _
            · rw [skipped]
              exact read limit (by omega)

end Entries

/-! ## Whole values -/

theorem exists_renderItems {style : Style} {level : Nat} {items : List Value}
    (each : ∀ item ∈ items, ∃ text, WrittenAs style level item text) :
    ∃ texts, renderItems style level items = some texts ∧
      List.Forall₂ (WrittenAs style level) items texts := by
  induction items with
  | nil => exact ⟨[], rfl, .nil⟩
  | cons item items inductionHypothesis =>
      rw [List.forall_mem_cons] at each
      obtain ⟨text, here⟩ := each.1
      obtain ⟨texts, rendered, later⟩ := inductionHypothesis each.2
      refine ⟨text :: texts, ?_, .cons here later⟩
      rw [renderItems, here.rendered, rendered]
      rfl

theorem exists_renderFields {style : Style} {level : Nat} {fields : List (String × Value)}
    (each : ∀ field ∈ fields, ∃ text, WrittenAs style level field.2 text) :
    ∃ texts, renderFields style level fields = some texts ∧
      List.Forall₂ (FieldWrittenAs style level) fields texts := by
  induction fields with
  | nil => exact ⟨[], rfl, .nil⟩
  | cons field fields inductionHypothesis =>
      rw [List.forall_mem_cons] at each
      obtain ⟨text, here⟩ := each.1
      obtain ⟨texts, rendered, later⟩ := inductionHypothesis each.2
      refine ⟨(quotedText field.1 ++ (colon style ++ text)) :: texts, ?_,
        .cons ⟨text, here, rfl⟩ later⟩
      rw [renderFields, renderField, here.rendered, rendered]
      simp

theorem valueAt_array {limit : Nat} {text rest : List Char} {items : List Value}
    (opens : Opens (skipBlanks text)) (read : itemsAt limit (skipBlanks text) = .ok (items, rest)) :
    valueAt (limit + 1) ('[' :: text) = .ok (.array items, rest) := by
  obtain ⟨c, more, split, _, other, _⟩ := opens
  rw [split] at read
  rw [valueAt, split]
  simp [other, read]

theorem valueAt_object {limit : Nat} {text rest : List Char} {fields : List (String × Value)}
    (opens : Opens (skipBlanks text))
    (read : fieldsAt limit (skipBlanks text) = .ok (fields, rest)) :
    valueAt (limit + 1) ('\x7b' :: text) = .ok (.object fields, rest) := by
  obtain ⟨c, more, split, _, _, other⟩ := opens
  rw [split] at read
  rw [valueAt, split]
  simp [other, read]

theorem writtenAs_array {style : Style} {level : Nat} {items : List Value}
    (each : ∀ item ∈ items, ∃ text, WrittenAs style (level + 1) item text) :
    ∃ text, WrittenAs style level (.array items) text := by
  obtain ⟨texts, rendered, written⟩ := exists_renderItems each
  refine ⟨_, (readsItems style (level + 1)).writtenAs written ?_ (by decide) ?_ valueAt_array⟩
  · rw [renderAt, rendered]
    rfl
  · rintro limit rest rfl
    rfl

theorem writtenAs_object {style : Style} {level : Nat} {fields : List (String × Value)}
    (each : ∀ field ∈ fields, ∃ text, WrittenAs style (level + 1) field.2 text) :
    ∃ text, WrittenAs style level (.object fields) text := by
  obtain ⟨texts, rendered, written⟩ := exists_renderFields each
  refine ⟨_, (readsFields style (level + 1)).writtenAs written ?_ (by decide) ?_ valueAt_object⟩
  · rw [renderAt, rendered]
    rfl
  · rintro limit rest rfl
    rfl

/-- A whole number starts with its sign or with a digit. -/
theorem exists_integerText_cons (value : Int) : ∃ c more, integerText value = c :: more ∧
    c ∉ ['[', ']', '\x7b', '\x7d'] ∧ isBlank c = false := by
  have nonempty : Nat.toDigits 10 value.natAbs ≠ [] := Nat.toDigits_ne_nil
  obtain ⟨c, more, written⟩ := List.exists_cons_of_ne_nil nonempty
  by_cases negative : value < 0
  · exact ⟨'-', Nat.toDigits 10 value.natAbs, by rw [integerText, if_pos negative], by decide⟩
  · have digit := isDigit_of_toDigits written
    refine ⟨c, more, by rw [integerText, if_neg negative, written], ?_⟩
    simp only [List.mem_cons, List.not_mem_nil, or_false, not_or, isBlank, Bool.or_eq_false_iff,
      decide_eq_false_iff_not]
    exact ⟨⟨ne_of_isDigit digit (by decide), ne_of_isDigit digit (by decide),
      ne_of_isDigit digit (by decide), ne_of_isDigit digit (by decide)⟩,
      ⟨⟨ne_of_isDigit digit (by decide), ne_of_isDigit digit (by decide)⟩,
        ne_of_isDigit digit (by decide)⟩, ne_of_isDigit digit (by decide)⟩

theorem writtenAs_integer {style : Style} {level : Nat} {value : Int}
    (short : exceedsLimit value = false) :
    WrittenAs style level (.integer value) (integerText value) := by
  obtain ⟨c, more, split, first⟩ := exists_integerText_cons value
  have rendered : renderAt style level (.integer value) = some (integerText value) := by
    rw [renderAt, short]
    rfl
  have only : ∀ number, Value.integer value = .integer number → exceedsLimit number = false := by
    rintro number same
    rwa [← Value.integer.inj same]
  exact writtenAs_scalar split first rendered (fun rest => scalar?_integer value) only

/-- A whole number of too many digits is not read back. -/
theorem read_integerText_of_exceedsLimit {value : Int} (long : exceedsLimit value = true) :
    read (.ofList (integerText value)) =
      .error (.tooManyDigits (Nat.toDigits 10 value.natAbs).length) := by
  obtain ⟨c, more, split, other, visible⟩ := exists_integerText_cons value
  simp only [List.mem_cons, List.not_mem_nil, or_false, not_or] at other
  have found := scalar?_integer value (show Stops [] by nofun)
  rw [List.append_nil, split] at found
  rw [read, String.toList_ofList, split, skipBlanks_cons visible,
    valueAt_scalar ⟨other.1, other.2.2.1⟩, scalar, found]
  dsimp only
  rw [if_pos long]
  rfl

theorem Plain.exists_writtenAs {value : Value} (plain : Plain value) (style : Style)
    (level : Nat) : ∃ text, WrittenAs style level value text := by
  induction plain generalizing level with
  | null => exact ⟨_, writtenAs_scalar rfl (by decide) rfl (fun rest _ => rfl) nofun⟩
  | boolean value =>
      cases value with
      | true => exact ⟨_, writtenAs_scalar rfl (by decide) rfl (fun rest _ => rfl) nofun⟩
      | false => exact ⟨_, writtenAs_scalar rfl (by decide) rfl (fun rest _ => rfl) nofun⟩
  | integer short => exact ⟨_, writtenAs_integer short⟩
  | text value =>
      exact ⟨_, writtenAs_scalar rfl (by decide) rfl (fun rest _ => scalar?_text value rest) nofun⟩
  | array _ inductionHypothesis =>
      exact writtenAs_array fun item member => inductionHypothesis item member (level + 1)
  | object _ inductionHypothesis =>
      exact writtenAs_object fun field member => inductionHypothesis field member (level + 1)

/-- A plain value is written in either style, and read back from its text, whatever blanks stand
behind it. -/
theorem Plain.read?_render? {value : Value} (plain : Plain value) (style : Style) :
    ∃ text, render? style value = some text ∧
      ∀ blanks : String, (∀ c ∈ blanks.toList, isBlank c = true) →
        read? (text ++ blanks) = some value := by
  obtain ⟨text, written⟩ := plain.exists_writtenAs style 0
  refine ⟨.ofList text, ?_, ?_⟩
  · rw [render?, written.rendered]
    rfl
  · intro blanks blank
    have read := written.read blanks.toList (2 * (String.ofList text ++ blanks).length + 2)
      (stops_blank blank) (by simp [← String.length_toList]; omega)
    have start : skipBlanks (String.ofList text ++ blanks).toList = text ++ blanks.toList := by
      rw [String.toList_append, String.toList_ofList, written.opens.skipBlanks_append]
    have ended : skipBlanks blanks.toList = [] := by
      have skipped := skipBlanks_append blank []
      rwa [List.append_nil] at skipped
    rw [read?, Json.read, start, read, ok_bind]
    simp [ended, Except.toOption]

end ProgramIdl.Json
