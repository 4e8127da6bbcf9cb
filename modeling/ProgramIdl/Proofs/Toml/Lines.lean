import Mathlib.Tactic
import ProgramIdl.Toml.Read

/-!
# Documents of plain lines

A line of a document may be empty, open a table by a single name, or add an entry behind a single name.
A document of such lines is read line by line (`read?_of_writes`).
-/

set_option autoImplicit false

namespace ProgramIdl.Toml

open Reader

/-! ## What readers take -/

section Readers

variable {mark rest : List Char}

theorem run_peek? (text : List Char) : peek?.run text = some (text.head?, text) :=
  rfl

theorem isPrefixOf?_append : mark.isPrefixOf? (mark ++ rest) = some rest := by
  induction mark with
  | nil => rfl
  | cons c mark inductionHypothesis => simp [List.isPrefixOf?, inductionHypothesis]

theorem run_take? (text : List Char) : (take? mark).run text =
    match mark.isPrefixOf? text with
    | some rest => some (true, rest)
    | none => some (false, text) :=
  rfl

theorem run_take?_cons (c : Char) : (take? [c]).run (c :: rest) = some (true, rest) := by
  simp [run_take?, List.isPrefixOf?]

theorem run_take?_of_head? {c : Char} (other : rest.head? ≠ some c) (more : List Char) :
    (take? (c :: more)).run rest = some (false, rest) := by
  cases rest with
  | nil => rfl
  | cons d rest =>
      have differ : (c == d) = false := by
        rw [beq_eq_false_iff_ne]
        rintro rfl
        exact other rfl
      simp [run_take?, List.isPrefixOf?, differ]

theorem run_expect_cons (c : Char) : (expect [c]).run (c :: rest) = some ((), rest) := by
  change ([c].isPrefixOf? ([c] ++ rest)).map (fun rest => ((), rest)) = _
  rw [isPrefixOf?_append]
  rfl

/-- What stands behind some blanks and is none itself. -/
theorem run_skipBlanks (blanks : List Char) (blank : ∀ c ∈ blanks, isBlank c = true)
    (visible : rest.head?.all (!isBlank ·) = true) :
    skipBlanks.run (blanks ++ rest) = some ((), rest) := by
  change some ((), (blanks ++ rest).dropWhile isBlank) = _
  rw [List.dropWhile_append_of_pos blank]
  cases rest with
  | nil => rfl
  | cons c rest =>
      have first : isBlank c = false := by simpa using visible
      simp [first]

theorem run_skipBlanks_of_visible (visible : rest.head?.all (!isBlank ·) = true) :
    skipBlanks.run rest = some ((), rest) :=
  run_skipBlanks [] nofun visible

end Readers

/-! ## Keys -/

/-- A name that may stand without quotes. -/
structure IsPlainName (name : List Char) : Prop where
  nonempty : name ≠ []
  plain : ∀ c ∈ name, isKeyChar c = true

theorem ne_of_isKeyChar {c mark : Char} (letter : isKeyChar c = true)
    (other : isKeyChar mark = false) : c ≠ mark := by
  rintro rfl
  rw [letter] at other
  cases other

namespace IsPlainName

variable {name rest : List Char}

theorem exists_head (isName : IsPlainName name) (rest : List Char) :
    ∃ c, (name ++ rest).head? = some c ∧ isKeyChar c = true := by
  obtain ⟨c, more, rfl⟩ := List.exists_cons_of_ne_nil isName.nonempty
  exact ⟨c, rfl, isName.plain c List.mem_cons_self⟩

theorem visible (isName : IsPlainName name) (rest : List Char) :
    (name ++ rest).head?.all (!isBlank ·) = true := by
  obtain ⟨c, first, letter⟩ := isName.exists_head rest
  have space : c ≠ ' ' := ne_of_isKeyChar letter rfl
  have tab : c ≠ '\t' := ne_of_isKeyChar letter rfl
  simp [first, isBlank, space, tab]

theorem run_keyPart (isName : IsPlainName name) (stop : rest.head?.all (!isKeyChar ·) = true) :
    keyPart.run (name ++ rest) = some (.ofList name, rest) := by
  obtain ⟨c, first, letter⟩ := isName.exists_head rest
  have ended : rest.takeWhile isKeyChar = [] ∧ rest.dropWhile isKeyChar = rest := by
    cases rest with
    | nil => exact ⟨rfl, rfl⟩
    | cons d rest =>
        have other : isKeyChar d = false := by simpa using stop
        simp [other]
  have taken : (Reader.takeWhile isKeyChar).run (name ++ rest) = some (name, rest) := by
    change some ((name ++ rest).takeWhile isKeyChar, (name ++ rest).dropWhile isKeyChar) = _
    rw [List.takeWhile_append_of_pos isName.plain, List.dropWhile_append_of_pos isName.plain, ended.1,
      ended.2, List.append_nil]
  rw [keyPart, StateT.run_bind, run_peek?, first]
  simp only [Option.bind_eq_bind, Option.bind_some]
  split
  · rename_i same
    exact absurd (Option.some.inj same) (ne_of_isKeyChar letter rfl)
  · rename_i same
    exact absurd (Option.some.inj same) (ne_of_isKeyChar letter rfl)
  · rw [StateT.run_bind, taken]
    simp [isName.nonempty]

theorem run_key (isName : IsPlainName name) (blanks : List Char)
    (blank : ∀ c ∈ blanks, isBlank c = true) (visible : rest.head?.all (!isBlank ·) = true)
    (noDot : rest.head? ≠ some '.') (stop : (blanks ++ rest).head?.all (!isKeyChar ·) = true) :
    key.run (name ++ (blanks ++ rest)) = some ((.ofList name, []), rest) := by
  rw [key, StateT.run_bind, isName.run_keyPart stop]
  simp [keyRest, run_skipBlanks blanks blank visible, run_take?_of_head? noDot]

theorem run_assignedKey (isName : IsPlainName name) (visible : rest.head?.all (!isBlank ·) = true) :
    assignedKey.run (name ++ (' ' :: '=' :: ' ' :: rest)) = some ((.ofList name, []), rest) := by
  have read : key.run (name ++ ' ' :: '=' :: ' ' :: rest) =
      some ((.ofList name, []), '=' :: ' ' :: rest) :=
    isName.run_key [' '] (by simp [isBlank]) rfl nofun rfl
  have skipped : skipBlanks.run (' ' :: rest) = some ((), rest) :=
    run_skipBlanks [' '] (by simp [isBlank]) visible
  rw [assignedKey, StateT.run_bind, read]
  simp [run_expect_cons, skipped]

end IsPlainName

/-! ## Headers -/

theorem run_statement_header {name : List Char} (isName : IsPlainName name) (document : Document)
    (rest : List Char) : (statement document).run ('[' :: (name ++ ']' :: rest)) =
      (document.settle.openTable [.ofList name]).map fun document => (document, rest) := by
  obtain ⟨c, more, split⟩ := List.exists_cons_of_ne_nil isName.nonempty
  have single : (take? ['[', '[']).run ('[' :: (name ++ ']' :: rest)) =
      some (false, '[' :: (name ++ ']' :: rest)) := by
    have letter := isName.plain c (by rw [split]; exact List.mem_cons_self)
    have bracket : ('[' == c) = false := beq_eq_false_iff_ne.mpr (ne_of_isKeyChar letter rfl).symm
    rw [run_take?, split]
    simp [List.isPrefixOf?, bracket]
  have read : key.run (name ++ ']' :: rest) = some ((.ofList name, []), ']' :: rest) :=
    isName.run_key [] nofun rfl nofun rfl
  have skipped := run_skipBlanks_of_visible (isName.visible (']' :: rest))
  rw [statement, StateT.run_bind, run_peek?]
  cases next : document.settle.openTable [.ofList name] <;>
    simp [single, run_expect_cons, skipped, read, names, next]

/-! ## Values -/

/-- A text that may stand between quotes as it is. -/
def IsPlainText (text : List Char) : Prop :=
  ∀ c ∈ text, c ≠ '"' ∧ c ≠ '\\' ∧ isControl c = false

instance (text : List Char) : Decidable (IsPlainText text) :=
  List.decidableBAll _ text

theorem run_textBody {body : List Char} (plain : IsPlainText body) (rest : List Char) {limit : Nat}
    (enough : body.length < limit) :
    (textBody '"' true false limit).run (body ++ '"' :: rest) = some (body, rest) := by
  induction body generalizing limit with
  | nil =>
      obtain ⟨limit, rfl⟩ := Nat.exists_eq_add_of_lt enough
      simp [textBody, closing, run_take?_cons]
  | cons c body inductionHypothesis =>
      obtain ⟨⟨quote, backslash, allowed⟩, later⟩ := List.forall_mem_cons.mp plain
      cases limit with
      | zero => cases enough
      | succ limit =>
          have read := inductionHypothesis later (Nat.lt_of_succ_lt_succ enough)
          have inside : (take? ['"']).run (c :: (body ++ '"' :: rest)) =
              some (false, c :: (body ++ '"' :: rest)) :=
            run_take?_of_head? (by simpa using quote) []
          rw [List.cons_append, textBody, StateT.run_bind]
          simp [closing, inside, run_peek?, run_take?_cons, backslash, allowed, read]

theorem run_lineText {body : List Char} (plain : IsPlainText body) (rest : List Char) :
    (lineText '"' true).run ('"' :: (body ++ '"' :: rest)) = some (.ofList body, rest) := by
  have enough : body.length < (body ++ '"' :: rest).length + 1 := by
    rw [List.length_append]
    omega
  have read := run_textBody plain rest enough
  rw [lineText, StateT.run_bind, run_expect_cons, Option.bind_eq_bind, Option.bind_some,
    StateT.run_bind, StateT.run_get]
  simp only [Option.pure_def, Option.bind_eq_bind, Option.bind_some, StateT.run_bind, read,
    StateT.run_pure]

/-- A text is read as what stands between its quotes. -/
theorem run_value_text {body : List Char} (plain : IsPlainText body) (nonempty : body ≠ [])
    (limit : Nat) (rest : List Char) :
    (value (limit + 1)).run ('"' :: (body ++ '"' :: rest)) = some (.text (.ofList body), rest) := by
  obtain ⟨c, more, split⟩ := List.exists_cons_of_ne_nil nonempty
  have array : (take? ['[']).run ('"' :: (body ++ '"' :: rest)) =
      some (false, '"' :: (body ++ '"' :: rest)) := run_take?_of_head? (by simp) []
  have table : (take? ['\x7b']).run ('"' :: (body ++ '"' :: rest)) =
      some (false, '"' :: (body ++ '"' :: rest)) := run_take?_of_head? (by simp) []
  have single : (take? ['"', '"', '"']).run ('"' :: (body ++ '"' :: rest)) =
      some (false, '"' :: (body ++ '"' :: rest)) := by
    have first : ('"' == c) = false := by
      rw [beq_eq_false_iff_ne]
      exact (plain c (by rw [split]; exact List.mem_cons_self)).1.symm
    rw [run_take?, split]
    simp [List.isPrefixOf?, first]
  rw [value, StateT.run_bind, array]
  simp [table, plainValue, run_peek?, text, single, run_lineText plain rest]

theorem run_skipAllSpace (blanks : List Char) {rest : List Char}
    (blank : ∀ c ∈ blanks, (isBlank c || c = '\n') = true)
    (visible : rest.head?.all (fun c => !(isBlank c || c = '\n') && c ≠ '#') = true) :
    skipAllSpace.run (blanks ++ rest) = some ((), rest) := by
  have taken : (Reader.takeWhile fun c => isBlank c || c = '\n').run (blanks ++ rest) =
      some (blanks, rest) := by
    change some ((blanks ++ rest).takeWhile _, (blanks ++ rest).dropWhile _) = _
    rw [List.takeWhile_append_of_pos blank, List.dropWhile_append_of_pos blank]
    cases rest with
    | nil => simp
    | cons c rest =>
        have first : (isBlank c || c = '\n') = false := by
          rw [List.head?_cons, Option.all_some, Bool.and_eq_true] at visible
          simpa using visible.1
        rw [List.takeWhile_cons_of_neg (by simp [first]), List.dropWhile_cons_of_neg (by simp [first]),
          List.append_nil]
  have noComment : ¬ rest.head? = some '#' := by
    intro first
    rw [first] at visible
    cases visible
  rw [skipAllSpace, StateT.run_bind, StateT.run_get]
  simp [skipSpace, taken, run_peek?, noComment]

/-- How some texts are written in an array on one line. -/
def writtenItems : List (List Char) → List Char
  | [] => []
  | [text] => '"' :: (text ++ ['"'])
  | text :: next :: more => '"' :: (text ++ '"' :: ',' :: ' ' :: writtenItems (next :: more))

theorem run_items {texts : List (List Char)} (plain : ∀ text ∈ texts, IsPlainText text ∧ text ≠ [])
    (limit : Nat) (rest : List Char) :
    (items (limit + texts.length + 1)).run (writtenItems texts ++ ']' :: rest) =
      some (texts.map fun text => .text (.ofList text), rest) := by
  have noBlank (text : List Char) (visible : text.head?.all (fun c =>
      !(isBlank c || c = '\n') && c ≠ '#') = true) : skipAllSpace.run text = some ((), text) :=
    run_skipAllSpace [] nofun visible
  induction texts with
  | nil => simp [items, writtenItems, run_take?_cons]
  | cons text texts inductionHypothesis =>
      obtain ⟨⟨plainHere, nonempty⟩, plainLater⟩ := List.forall_mem_cons.mp plain
      have opens (back : List Char) : (take? [']']).run ('"' :: back) = some (false, '"' :: back) :=
        run_take?_of_head? (by simp) []
      cases texts with
      | nil =>
          have ends : (take? [',']).run (']' :: rest) = some (false, ']' :: rest) :=
            run_take?_of_head? (by simp) []
          have read := run_value_text plainHere nonempty limit (']' :: rest)
          simp [items, writtenItems, opens, read, noBlank, isBlank, ends, run_expect_cons]
      | cons next more =>
          have read := run_value_text plainHere nonempty (limit + more.length + 1)
            (',' :: ' ' :: (writtenItems (next :: more) ++ ']' :: rest))
          have continues : skipAllSpace.run (' ' :: (writtenItems (next :: more) ++ ']' :: rest)) =
              some ((), writtenItems (next :: more) ++ ']' :: rest) := by
            refine run_skipAllSpace [' '] (by simp [isBlank]) ?_
            cases more <;> rfl
          have later := inductionHypothesis plainLater
          rw [List.length_cons, ← Nat.add_assoc] at later
          rw [List.length_cons, List.length_cons, ← Nat.add_assoc, ← Nat.add_assoc, items,
            StateT.run_bind]
          simp [writtenItems, opens, read, noBlank, isBlank, run_take?_cons, continues, later]

/-- An array of texts is read as the texts in it. -/
theorem run_value_texts {texts : List (List Char)}
    (plain : ∀ text ∈ texts, IsPlainText text ∧ text ≠ []) (limit : Nat) (rest : List Char) :
    (value (limit + texts.length + 2)).run ('[' :: (writtenItems texts ++ ']' :: rest)) =
      some (.array (texts.map fun text => .text (.ofList text)), rest) := by
  have skipped : skipAllSpace.run (writtenItems texts ++ ']' :: rest) =
      some ((), writtenItems texts ++ ']' :: rest) := by
    refine run_skipAllSpace [] nofun ?_
    match texts with
    | [] | [_] | _ :: _ :: _ => rfl
  rw [value, StateT.run_bind]
  simp [run_take?_cons, skipped, run_items plain]

/-! ## Lines -/

/-- A line of a plain document. -/
inductive Line where
  | blank
  /-- A table is opened. -/
  | header (name : String)
  /-- An entry is added. -/
  | entry (name : String) (value : Value)

/-- A document with one more line. -/
def Document.addLine (document : Document) : Line → Option Document
  | .blank => some document
  | .header name => document.settle.openTable [name]
  | .entry name value => document.addEntry (name, []) value

/-- A value that is read wherever it ends a line. -/
def WritesValue (written : List Char) (value : Value) : Prop :=
  written.head?.any (!isBlank ·) = true ∧ ∀ rest,
    (Toml.value (2 * (written ++ '\n' :: rest).length + 2)).run (written ++ '\n' :: rest) =
      some (value, '\n' :: rest)

theorem writesValue_text {body : List Char} (plain : IsPlainText body) (nonempty : body ≠ []) :
    WritesValue ('"' :: (body ++ ['"'])) (.text (.ofList body)) := by
  refine ⟨rfl, fun rest => ?_⟩
  have read := run_value_text plain nonempty
    (2 * ('"' :: (body ++ ['"']) ++ '\n' :: rest).length + 1) ('\n' :: rest)
  simpa using read

theorem length_le_writtenItems (texts : List (List Char)) :
    texts.length ≤ (writtenItems texts).length := by
  fun_induction writtenItems texts with
  | case1 => exact Nat.le_refl 0
  | case2 text => simp
  | case3 text next more inductionHypothesis =>
      simp only [List.length_cons, List.length_append] at inductionHypothesis ⊢
      omega

theorem writesValue_texts {texts : List (List Char)}
    (plain : ∀ text ∈ texts, IsPlainText text ∧ text ≠ []) :
    WritesValue ('[' :: (writtenItems texts ++ [']']))
      (.array (texts.map fun text => .text (.ofList text))) := by
  refine ⟨rfl, fun rest => ?_⟩
  have few := length_le_writtenItems texts
  obtain ⟨limit, enough⟩ : ∃ limit,
      2 * ('[' :: (writtenItems texts ++ [']']) ++ '\n' :: rest).length + 2 =
        limit + texts.length + 2 := by
    refine ⟨2 * ('[' :: (writtenItems texts ++ [']']) ++ '\n' :: rest).length - texts.length, ?_⟩
    simp only [List.cons_append, List.length_cons, List.length_append]
    omega
  rw [enough]
  simpa using run_value_texts plain limit ('\n' :: rest)

theorem writesValue_false : WritesValue ['f', 'a', 'l', 's', 'e'] .scalar :=
  ⟨rfl, fun _ => rfl⟩

/-- The text of a line, without the line break at its end. -/
inductive Line.Writes : List Char → Line → Prop where
  | blank : Writes [] .blank
  | header {name : List Char} (isName : IsPlainName name) :
      Writes ('[' :: (name ++ [']'])) (.header (.ofList name))
  | entry {name written : List Char} {value : Value} (isName : IsPlainName name)
      (writes : WritesValue written value) :
      Writes (name ++ (' ' :: '=' :: ' ' :: written)) (.entry (.ofList name) value)

theorem run_statement_entry {name written : List Char} {value : Value} (isName : IsPlainName name)
    (writes : WritesValue written value) (document : Document) (rest : List Char) :
    (statement document).run (name ++ (' ' :: '=' :: ' ' :: (written ++ '\n' :: rest))) =
      (document.addEntry (.ofList name, []) value).map fun document => (document, '\n' :: rest) := by
  obtain ⟨c, first, letter⟩ := isName.exists_head (' ' :: '=' :: ' ' :: (written ++ '\n' :: rest))
  obtain ⟨visible, reads⟩ := writes
  have visible : (written ++ '\n' :: rest).head?.all (!isBlank ·) = true := by
    cases written with
    | nil => cases visible
    | cons => exact visible
  have assigned := isName.run_assignedKey visible
  rw [statement, StateT.run_bind, run_peek?, first]
  simp only [Option.bind_eq_bind, Option.bind_some]
  split
  · rename_i same
    cases same
  · rename_i same
    exact absurd (Option.some.inj same) (ne_of_isKeyChar letter rfl)
  · rename_i same
    exact absurd (Option.some.inj same) (ne_of_isKeyChar letter rfl)
  · rename_i same
    exact absurd (Option.some.inj same) (ne_of_isKeyChar letter rfl)
  · rw [StateT.run_bind, assigned]
    simp only [Option.bind_eq_bind, Option.bind_some, StateT.run_bind, StateT.run_get,
      Option.pure_def, reads rest]
    cases document.addEntry (.ofList name, []) value <;> rfl

/-- A line is read, and then the lines behind it. -/
theorem Line.Writes.run_statements {text : List Char} {line : Line} (writes : Writes text line)
    (limit : Nat) (document : Document) (rest : List Char) :
    (statements (limit + 1) document).run (text ++ '\n' :: rest) =
      (document.addLine line).bind fun document => (statements limit document).run rest := by
  have ends : skipBlanks.run ('\n' :: rest) = some ((), '\n' :: rest) :=
    run_skipBlanks_of_visible rfl
  have noComment : skipComment.run ('\n' :: rest) = some ((), '\n' :: rest) := rfl
  cases writes with
  | blank => rfl
  | @header name isName =>
      have skipped : skipBlanks.run ('[' :: (name ++ ']' :: '\n' :: rest)) =
          some ((), '[' :: (name ++ ']' :: '\n' :: rest)) := run_skipBlanks_of_visible rfl
      have read := run_statement_header isName document ('\n' :: rest)
      rw [statements, StateT.run_bind, Document.addLine]
      cases next : document.settle.openTable [.ofList name] <;> rw [next] at read <;>
        simp [skipped, read, ends, noComment, run_take?_cons]
  | @entry name written value isName writes =>
      have skipped :=
        run_skipBlanks_of_visible (isName.visible (' ' :: '=' :: ' ' :: (written ++ '\n' :: rest)))
      have read := run_statement_entry isName writes document rest
      rw [statements, StateT.run_bind, Document.addLine]
      cases next : document.addEntry (.ofList name, []) value <;> rw [next] at read <;>
        simp [skipped, read, ends, noComment, run_take?_cons]

/-- A document of plain lines is read line by line. -/
theorem run_statements {texts : List (List Char)} {lines : List Line}
    (written : List.Forall₂ Line.Writes texts lines) {limit : Nat} (enough : texts.length < limit)
    (document : Document) :
    (statements limit document).run (texts.flatMap (· ++ ['\n'])) =
      (lines.foldlM Document.addLine document).map fun document => (document, []) := by
  induction written generalizing limit document with
  | nil =>
      obtain ⟨limit, rfl⟩ := Nat.exists_eq_add_of_lt enough
      rfl
  | @cons text line texts lines writes _ inductionHypothesis =>
      cases limit with
      | zero => cases enough
      | succ limit =>
          rw [List.flatMap_cons, List.append_assoc, List.cons_append, List.nil_append,
            writes.run_statements, List.foldlM_cons]
          cases document.addLine line with
          | none => rfl
          | some next => exact inductionHypothesis (Nat.lt_of_succ_lt_succ enough) next

theorem read?_of_writes {texts : List (List Char)} {lines : List Line}
    (written : List.Forall₂ Line.Writes texts lines) {text : String}
    (whole : text.toList = texts.flatMap (· ++ ['\n'])) :
    read? text = (lines.foldlM Document.addLine {}).map (·.root) := by
  have enough : texts.length < text.length + 1 := by
    rw [← String.length_toList, whole, List.length_flatMap]
    have each : ∀ count ∈ texts.map fun text => (text ++ ['\n']).length, 1 ≤ count := by simp
    have bound := List.length_le_sum_of_one_le _ each
    rw [List.length_map] at bound
    exact Nat.lt_succ_of_le bound
  rw [read?, whole, run_statements written enough, Option.map_map]
  rfl

end ProgramIdl.Toml
