import Mathlib.Algebra.Order.Ring.Int
import ProgramIdl.Layout.Resolve
import ProgramIdl.Proofs.Text.QualifiedName

/-!
# The typing of tokens

`TypeTable.HasType` says which layout a type token has, by rules that mention neither a reader of
tokens nor the order in which structs are laid out.  The rules give a token at most one layout
(`TypeTable.HasType.unique`), and what `TypeTable.read` says of a token decides which rule applies
(`TypeTable.hasType_iff_read`).
-/

set_option autoImplicit false

namespace ProgramIdl

open ProgramIdl.Text

/-! ## Array tokens -/

/-- A token spells an array type: brackets around an element and a length, with a semicolon between
them.  Blanks may stand around either, and one line break behind the token. -/
def SpellsArray (token element length : List Char) : Prop :=
  ∃ before behind closing, token = '[' :: before ++ ';' :: behind ++ ']' :: closing ∧
    closing ∈ [[], ['\n']] ∧ ';' ∉ before ∧ '\n' ∉ length ∧
    trim before = element ∧ trim behind = length

theorem cutAt_eq_some_iff {mark : Char} {text before behind : List Char} :
    cutAt mark text = some (before, behind) ↔ text = before ++ mark :: behind ∧ mark ∉ before := by
  induction text generalizing before with
  | nil => simp [cutAt]
  | cons c rest inductionHypothesis =>
      rw [cutAt]
      split
      · rename_i same
        subst same
        cases before with
        | nil => simp [eq_comm]
        | cons first later =>
            simp only [List.cons_append, List.cons.injEq, List.mem_cons, not_or]
            constructor
            · rintro ⟨⟩
            · rintro ⟨⟨rfl, _⟩, distinct, _⟩
              exact absurd rfl distinct
      · rename_i distinct
        cases before with
        | nil => simp [distinct]
        | cons first later =>
            simp only [Option.map_eq_some_iff, Prod.exists, Prod.mk.injEq, List.cons.injEq,
              List.cons_append, List.mem_cons, not_or]
            constructor
            · rintro ⟨_, _, found, ⟨rfl, rfl⟩, rfl⟩
              obtain ⟨rfl, absent⟩ := inductionHypothesis.mp found
              exact ⟨⟨rfl, rfl⟩, Ne.symm distinct, absent⟩
            · rintro ⟨⟨rfl, rfl⟩, _, absent⟩
              exact ⟨later, behind, inductionHypothesis.mpr ⟨rfl, absent⟩, ⟨rfl, rfl⟩, rfl⟩

theorem dropFinalBreak_eq_append_iff {text inner : List Char} :
    dropFinalBreak text = inner ++ [']'] ↔
      ∃ closing ∈ [[], ['\n']], text = inner ++ ']' :: closing := by
  rw [dropFinalBreak]
  split
  · rename_i broken
    obtain ⟨body, rfl⟩ := List.getLast?_eq_some_iff.mp broken
    rw [List.dropLast_concat]
    constructor
    · rintro rfl
      exact ⟨['\n'], by simp, by simp⟩
    · rintro ⟨closing, member, same⟩
      rcases List.mem_cons.mp member with rfl | member
      · have last := congrArg List.getLast? same
        simp at last
      · obtain rfl := List.mem_singleton.mp member
        rw [show inner ++ [']', '\n'] = (inner ++ [']']) ++ ['\n'] by simp] at same
        exact List.append_cancel_right same
  · rename_i unbroken
    constructor
    · rintro rfl
      exact ⟨[], by simp, rfl⟩
    · rintro ⟨closing, member, rfl⟩
      rcases List.mem_cons.mp member with rfl | member
      · rfl
      · obtain rfl := List.mem_singleton.mp member
        simp at unbroken

/-- The reader of array types finds the element and the length of exactly the tokens that spell an
array type. -/
theorem arrayParts?_eq_some_iff {token element length : List Char} :
    arrayParts? token = some (element, length) ↔ SpellsArray token element length := by
  constructor
  · intro read
    rw [arrayParts?.eq_def] at read
    split at read
    · rename_i rest
      split at read
      · rename_i inner reversed
        split at read
        · rename_i before behind cut
          split at read
          · cases read
          · rename_i unbroken
            obtain ⟨rfl, rfl⟩ := Prod.mk.inj (Option.some.inj read)
            obtain ⟨halves, absent⟩ := cutAt_eq_some_iff.mp cut
            have closed : dropFinalBreak rest = inner.reverse ++ [']'] := by
              rw [← List.reverse_cons, ← reversed, List.reverse_reverse]
            obtain ⟨closing, final, rfl⟩ := dropFinalBreak_eq_append_iff.mp closed
            rw [halves]
            exact ⟨before, behind, closing, by simp, final, absent, unbroken, rfl, rfl⟩
        · cases read
      · cases read
    · cases read
  · rintro ⟨before, behind, closing, rfl, final, absent, unbroken, rfl, rfl⟩
    have closed : dropFinalBreak (before ++ ';' :: (behind ++ ']' :: closing)) =
        before ++ ';' :: behind ++ [']'] :=
      dropFinalBreak_eq_append_iff.mpr ⟨closing, final, by simp⟩
    have cut : cutAt ';' (before ++ ';' :: behind) = some (before, behind) :=
      cutAt_eq_some_iff.mpr ⟨rfl, absent⟩
    have reversed : (before ++ ';' :: behind ++ [']']).reverse =
        ']' :: (before ++ ';' :: behind).reverse := by simp
    simp only [List.cons_append, List.append_assoc, arrayParts?]
    rw [closed, reversed]
    simp only [List.reverse_reverse, cut]
    rw [if_neg unbroken]

theorem head?_trim_cons {c : Char} (visible : isBlank c = false) (rest : List Char) :
    (trim (c :: rest)).head? = some c := by
  have start : trimStart (c :: rest) = c :: rest := by
    simp [trimStart, visible]
  rw [trim, start, trimEnd, List.head?_reverse, List.reverse_cons, List.dropWhile_append]
  split
  · simp [visible]
  · simp

/-- What spells an array type is no qualified name. -/
theorem SpellsArray.not_qualified {token element length segment : List Char}
    (spelled : SpellsArray token element length) : ¬ Qualified (trim token) segment := by
  intro qualified
  obtain ⟨before, behind, closing, rfl, _⟩ := spelled
  obtain ⟨c, first, letter⟩ := qualified.head?
  rw [List.cons_append, List.cons_append, head?_trim_cons (by decide)] at first
  obtain rfl := Option.some.inj first
  exact absurd letter (by decide)

/-! ## The typing rules -/

/-- The field that a member was written as. -/
def Member.written (member : Member Layout) : Field :=
  ⟨member.name, member.token, member.docs⟩

mutual

/-- A token has a layout: it spells an array of bytes whose length is known, it is a qualified name
that ends in the name of a builtin type, or it is one that ends in the name of a struct whose fields
all have layouts.  The names of builtin types go before those of structs. -/
inductive TypeTable.HasType (table : TypeTable) : String → Layout → Prop where
  | array {token : String} {element length : List Char} {value : Int}
      (spelled : SpellsArray token.toList element length)
      (bytes : Qualified element ['u', '8'])
      (known : table.integer? (.ofList length) = some value) :
      HasType table token (.array value value)
  | builtin {token : String} {name : List Char} {layout : Layout}
      (qualified : Qualified (trim token.toList) name)
      (known : Layout.builtin? (.ofList name) = some layout) :
      HasType table token layout
  | record {token : String} {name : List Char} {fields : List Field}
      {members : List (Member Layout)}
      (qualified : Qualified (trim token.toList) name)
      (unknown : Layout.builtin? (.ofList name) = none)
      (declared : table.records.lookup (.ofList name) = some fields)
      (typed : FieldsHaveType table fields members) :
      HasType table token
        (.record (members.map fun member => member.type.width).sum (.ofList name) members)

/-- Fields have layouts one by one; their names, tokens and documentation stay with them. -/
inductive TypeTable.FieldsHaveType (table : TypeTable) :
    List Field → List (Member Layout) → Prop where
  | nil : FieldsHaveType table [] []
  | cons {field : Field} {layout : Layout} {fields : List Field} {members : List (Member Layout)}
      (head : HasType table field.type layout) (tail : FieldsHaveType table fields members) :
      FieldsHaveType table (field :: fields)
        (⟨field.name, field.type, layout, field.docs⟩ :: members)

end

namespace TypeTable

variable {table : TypeTable}

/-- A struct has a layout under its own name. -/
inductive LaysOut (table : TypeTable) (name : String) : Layout → Prop where
  | intro {fields : List Field} {members : List (Member Layout)}
      (unknown : Layout.builtin? name = none)
      (declared : table.records.lookup name = some fields)
      (typed : table.FieldsHaveType fields members) :
      LaysOut table name (.ofFields name members)

/-! ## Reading decides the rule -/

theorem ofFields_eq_record (name : String) (members : List (Member Layout)) :
    Layout.ofFields name members =
      .record (members.map fun member => member.type.width).sum name members := by
  rw [Layout.ofFields, List.sum_eq_foldr, List.foldr_map]

theorem readName_eq_known_iff {name : String} {layout : Layout} :
    table.readName name = .known layout ↔ Layout.builtin? name = some layout := by
  rw [readName]
  cases Layout.builtin? name with
  | some known => simp
  | none => cases table.records.lookup name <;> simp

theorem readName_eq_record_iff {name found : String} {fields : List Field} :
    table.readName name = .record found fields ↔
      Layout.builtin? name = none ∧ name = found ∧ table.records.lookup name = some fields := by
  rw [readName]
  cases Layout.builtin? name with
  | some known => simp
  | none => cases table.records.lookup name <;> simp

theorem read_of_qualified {token : String} {name : List Char}
    (qualified : Qualified (trim token.toList) name) :
    table.read token = table.readName (.ofList name) := by
  have noArray : arrayParts? token.toList = none := by
    cases read : arrayParts? token.toList with
    | none => rfl
    | some parts => exact absurd qualified (arrayParts?_eq_some_iff.mp read).not_qualified
  rw [read, noArray, qualifiedName?_trim_eq_some_iff.mpr qualified]

theorem qualifiedName?_element_iff {token element length segment : List Char}
    (spelled : SpellsArray token element length) :
    qualifiedName? element = some segment ↔ Qualified element segment := by
  obtain ⟨before, _, _, _, _, _, _, rfl, _⟩ := spelled
  exact qualifiedName?_trim_eq_some_iff

theorem read_of_spellsArray {token : String} {element length : List Char}
    (spelled : SpellsArray token.toList element length) :
    table.read token =
      if qualifiedName? element = some ['u', '8'] then
        match table.integer? (.ofList length) with
        | some value => .known (.bytes value)
        | none => .unknown
      else .unknown := by
  have parts := arrayParts?_eq_some_iff.mpr spelled
  cases known : table.integer? (.ofList length) with
  | some value => simp only [read, parts, known]
  | none => simp only [read, parts, known]

/-- What is read of a token is what the typing rules ask of it. -/
theorem hasType_iff_read {token : String} {layout : Layout} :
    table.HasType token layout ↔ table.read token = .known layout ∨
      ∃ name fields, table.read token = .record name fields ∧ table.LaysOut name layout := by
  constructor
  · intro typed
    cases typed with
    | array spelled bytes known =>
        rw [read_of_spellsArray spelled, known,
          if_pos ((qualifiedName?_element_iff spelled).mpr bytes)]
        exact Or.inl rfl
    | builtin qualified known =>
        rw [read_of_qualified qualified]
        exact Or.inl (readName_eq_known_iff.mpr known)
    | record qualified unknown declared typed =>
        rw [read_of_qualified qualified, ← ofFields_eq_record]
        exact Or.inr ⟨_, _, readName_eq_record_iff.mpr ⟨unknown, rfl, declared⟩,
          .intro unknown declared typed⟩
  · cases parts : arrayParts? token.toList with
    | some pair =>
        obtain ⟨element, length⟩ := pair
        have spelled := arrayParts?_eq_some_iff.mp parts
        rw [read_of_spellsArray spelled]
        intro reads
        split at reads
        · rename_i bytes
          cases known : table.integer? (.ofList length) with
          | some value =>
              simp only [known, TypeToken.known.injEq, reduceCtorEq, false_and, exists_false,
                or_false] at reads
              subst reads
              exact .array spelled ((qualifiedName?_element_iff spelled).mp bytes) known
          | none => simp [known] at reads
        · simp at reads
    | none =>
        cases name : qualifiedName? (trim token.toList) with
        | none =>
            intro reads
            simp [read, parts, name] at reads
        | some segment =>
            have qualified := qualifiedName?_trim_eq_some_iff.mp name
            rw [read_of_qualified qualified]
            rintro (known | ⟨found, fields, reads, laid⟩)
            · exact .builtin qualified (readName_eq_known_iff.mp known)
            · obtain ⟨_, rfl, _⟩ := readName_eq_record_iff.mp reads
              cases laid with
              | intro unknown declared typed =>
                  rw [ofFields_eq_record]
                  exact .record qualified unknown declared typed

theorem hasType_of_read_known {token : String} {known : Layout}
    (reads : table.read token = .known known) {layout : Layout} :
    table.HasType token layout ↔ layout = known := by
  rw [hasType_iff_read, reads]
  simp [eq_comm]

theorem hasType_of_read_record {token name : String} {fields : List Field}
    (reads : table.read token = .record name fields) {layout : Layout} :
    table.HasType token layout ↔ table.LaysOut name layout := by
  rw [hasType_iff_read, reads]
  simp

theorem not_hasType_of_read_unknown {token : String} (reads : table.read token = .unknown)
    (layout : Layout) : ¬ table.HasType token layout := by
  rw [hasType_iff_read, reads]
  simp

/-- A token that is read as the name of a struct names one of the table, and no builtin type. -/
theorem declared_of_read_record {token name : String} {fields : List Field}
    (reads : table.read token = .record name fields) :
    Layout.builtin? name = none ∧ table.records.lookup name = some fields := by
  cases parts : arrayParts? token.toList with
  | some pair =>
      rw [read_of_spellsArray (arrayParts?_eq_some_iff.mp parts)] at reads
      split at reads
      · split at reads <;> cases reads
      · cases reads
  | none =>
      cases qualified : qualifiedName? (trim token.toList) with
      | none => simp [read, parts, qualified] at reads
      | some segment =>
          rw [read_of_qualified (qualifiedName?_trim_eq_some_iff.mp qualified)] at reads
          obtain ⟨unknown, rfl, declared⟩ := readName_eq_record_iff.mp reads
          exact ⟨unknown, declared⟩

/-! ## At most one layout -/

theorem sizeOf_type_lt {name : String} {members : List (Member Layout)} {member : Member Layout}
    (inside : member ∈ members) : sizeOf member.type < sizeOf (Layout.ofFields name members) := by
  have listed := List.sizeOf_lt_of_mem inside
  cases member
  simp only [Layout.ofFields, Layout.record.sizeOf_spec, Member.mk.sizeOf_spec] at listed ⊢
  omega

/-- Fields have layouts together if each has one. -/
theorem exists_fieldsHaveType_iff {fields : List Field} :
    (∃ members, table.FieldsHaveType fields members) ↔
      ∀ field ∈ fields, ∃ layout, table.HasType field.type layout := by
  induction fields with
  | nil => exact iff_of_true ⟨[], .nil⟩ (by simp)
  | cons field fields inductionHypothesis =>
      rw [List.forall_mem_cons, ← inductionHypothesis]
      constructor
      · rintro ⟨members, typed⟩
        cases typed with
        | cons head tail => exact ⟨⟨_, head⟩, _, tail⟩
      · rintro ⟨⟨layout, head⟩, members, tail⟩
        exact ⟨_, .cons head tail⟩

/-- Laying out fields keeps them as they are written. -/
theorem FieldsHaveType.map_written {fields : List Field} {members : List (Member Layout)}
    (typed : table.FieldsHaveType fields members) : members.map Member.written = fields := by
  induction fields generalizing members with
  | nil =>
      cases typed
      rfl
  | cons field fields inductionHypothesis =>
      cases typed with
      | cons head tail =>
          rw [List.map_cons, inductionHypothesis tail]
          rfl

theorem FieldsHaveType.unique {fields : List Field} {members others : List (Member Layout)}
    (typed : table.FieldsHaveType fields members) (again : table.FieldsHaveType fields others)
    (unique : ∀ member ∈ members, ∀ token layout, table.HasType token member.type →
      table.HasType token layout → layout = member.type) : others = members := by
  induction fields generalizing members others with
  | nil =>
      cases typed
      cases again
      rfl
  | cons field fields inductionHypothesis =>
      cases typed with
      | cons head tail =>
          cases again with
          | cons otherHead otherTail =>
              have same := unique _ List.mem_cons_self _ _ head otherHead
              have rest := inductionHypothesis tail otherTail fun member inside =>
                unique member (List.mem_cons_of_mem _ inside)
              rw [same, rest]

/-- The typing rules give a token at most one layout. -/
theorem HasType.unique {token : String} {layout other : Layout}
    (typed : table.HasType token layout) (again : table.HasType token other) : other = layout := by
  -- The layouts of the members are smaller than the struct that holds them.
  induction size : sizeOf layout using Nat.strongRecOn generalizing token layout other with
  | _ size inductionHypothesis =>
      subst size
      cases reads : table.read token with
      | known known =>
          rw [(hasType_of_read_known reads).mp typed, (hasType_of_read_known reads).mp again]
      | unknown => exact absurd typed (not_hasType_of_read_unknown reads layout)
      | record name fields =>
          cases (hasType_of_read_record reads).mp typed with
          | intro _ declared members =>
              cases (hasType_of_read_record reads).mp again with
              | intro _ sameDeclared others =>
                  obtain rfl := Option.some.inj (declared.symm.trans sameDeclared)
                  rw [members.unique others fun member inside token layout head otherHead =>
                    inductionHypothesis _ (sizeOf_type_lt inside) head otherHead rfl]

theorem LaysOut.unique {name : String} {layout other : Layout} (laid : table.LaysOut name layout)
    (again : table.LaysOut name other) : other = layout := by
  cases laid with
  | intro _ declared members =>
      cases again with
      | intro _ sameDeclared others =>
          obtain rfl := Option.some.inj (declared.symm.trans sameDeclared)
          rw [members.unique others fun member _ token layout head otherHead =>
            head.unique otherHead]

end TypeTable

end ProgramIdl
