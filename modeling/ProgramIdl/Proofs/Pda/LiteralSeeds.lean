import ProgramIdl.Proofs.Declaration.ArrayText
import ProgramIdl.Proofs.Literal.ByteString
import ProgramIdl.Proofs.Pda.ConstantText

/-!
# Literal seeds

An expression is a literal seed if it is a byte-string literal, or if it refers to a constant whose
value is one.  A local name is never taken for such a literal, unless it is `b` or `br`.
-/

set_option autoImplicit false

namespace ProgramIdl

open ProgramIdl.Text
open ProgramIdl.Literal

/-! ## References to a constant -/

/-- A text that refers to a constant: its path, perhaps behind references and in front of
conversions. -/
def RefersTo (text constant : List Char) : Prop :=
  ∃ signs blanks path conversions, text = signs ++ blanks ++ (path ++ List.flatten conversions) ∧
    (∀ c ∈ signs, c = '&') ∧ Blank blanks ∧ (signs = [] → blanks = []) ∧
      Qualified path constant ∧ ∀ conversion ∈ conversions, conversion ∈ Seed.conversions

theorem getLast?_conversion : ∀ conversion ∈ Seed.conversions,
    conversion.getLast? = some ')' := by
  decide

theorem getLast?_flatten {conversions : List (List Char)}
    (all : ∀ conversion ∈ conversions, conversion ∈ Seed.conversions) :
    conversions = [] ∨ conversions.flatten.getLast? = some ')' := by
  induction conversions using List.reverseRecOn with
  | nil => exact .inl rfl
  | append_singleton conversions conversion _ =>
      right
      rw [List.flatten_append, List.flatten_singleton, List.getLast?_append,
        getLast?_conversion conversion (all conversion (by simp))]
      rfl

/-- Only one conversion stands at the end of a text. -/
theorem conversion_unique : ∀ conversion ∈ Seed.conversions, ∀ other ∈ Seed.conversions,
    conversion <:+ other → conversion = other := by
  decide

theorem findSome?_conversion {conversion : List Char} (listed : conversion ∈ Seed.conversions)
    (text : List Char) : (Seed.conversions.findSome? fun candidate =>
      candidate.isSuffixOf? (text ++ conversion)) = some text :=
  findSome?_isSuffixOf? conversion_unique listed text

/-- Conversions come off the end of a text one by one, and nothing of the text with them. -/
theorem dropConversions_flatten {conversions : List (List Char)}
    (all : ∀ conversion ∈ conversions, conversion ∈ Seed.conversions) (limit : Nat)
    (text : List Char) : Seed.dropConversions (conversions.length + limit)
      (text ++ conversions.flatten) = Seed.dropConversions limit text := by
  induction conversions using List.reverseRecOn with
  | nil => rw [List.length_nil, Nat.zero_add, List.flatten_nil, List.append_nil]
  | append_singleton conversions conversion inductionHypothesis =>
      have split : text ++ (conversions ++ [conversion]).flatten =
          text ++ conversions.flatten ++ conversion := by simp
      have fuel : (conversions ++ [conversion]).length + limit = conversions.length + limit + 1 := by
        rw [List.length_append, List.length_singleton]
        omega
      rw [fuel, Seed.dropConversions, split, findSome?_conversion (all conversion (by simp))]
      exact inductionHypothesis fun other member => all other (by simp [member])

/-- A text that no parenthesis closes ends in no conversion. -/
theorem dropConversions_of_getLast? {text : List Char} (stops : text.getLast? ≠ some ')')
    (limit : Nat) : Seed.dropConversions limit text = text := by
  cases limit with
  | zero => rfl
  | succ limit =>
      have none : (Seed.conversions.findSome? fun conversion =>
          conversion.isSuffixOf? text) = none := by
        refine List.findSome?_eq_none_iff.mpr fun conversion listed => ?_
        by_contra ending
        obtain ⟨rest, suffix⟩ := Option.ne_none_iff_exists'.mp ending
        have whole := List.isSuffixOf?_eq_some_iff_append_eq.mp suffix
        apply stops
        rw [← whole, List.getLast?_append, getLast?_conversion conversion listed]
        rfl
      rw [Seed.dropConversions, none]

theorem length_le_flatten {conversions : List (List Char)}
    (all : ∀ conversion ∈ conversions, conversion ∈ Seed.conversions) :
    conversions.length ≤ conversions.flatten.length := by
  induction conversions with
  | nil => exact Nat.le_refl 0
  | cons conversion rest inductionHypothesis =>
      have later := inductionHypothesis fun other member => all other (List.mem_cons_of_mem _ member)
      have nonempty : 0 < conversion.length := by
        refine List.length_pos_of_ne_nil ?_
        rintro rfl
        cases getLast?_conversion [] (all [] List.mem_cons_self)
      rw [List.length_cons, List.flatten_cons, List.length_append]
      omega

section RefersTo

variable {path constant : List Char} {conversions : List (List Char)}

theorem head?_reference (qualified : Qualified path constant) (conversions : List (List Char)) :
    ∃ c, (path ++ conversions.flatten).head? = some c ∧ isWordChar c = true := by
  obtain ⟨c, head, letter⟩ := qualified.head?
  refine ⟨c, ?_, letter⟩
  rw [List.head?_append, head]
  rfl

theorem ended_reference (qualified : Qualified path constant)
    (all : ∀ conversion ∈ conversions, conversion ∈ Seed.conversions) :
    Ended (path ++ conversions.flatten) := by
  intro c found
  rw [List.getLast?_append] at found
  rcases getLast?_flatten all with rfl | closing
  · obtain ⟨last, lastOf, letter⟩ := qualified.getLast?
    rw [List.flatten_nil, List.getLast?_nil, Option.none_or, lastOf] at found
    obtain rfl := Option.some.inj found
    exact not_isBlank_of_isWordChar letter
  · rw [closing, Option.some_or] at found
    obtain rfl := Option.some.inj found
    decide

/-- What is left of a reference to a constant without signs and conversions is its path. -/
theorem RefersTo.qualified_subject {text : List Char} (refers : RefersTo text constant) :
    Qualified (Seed.subject text) constant := by
  obtain ⟨signs, blanks, path, conversions, split, allSigns, blank, noSigns, qualified, all⟩ :=
    refers
  obtain ⟨first, head, letter⟩ := head?_reference qualified conversions
  have flush : Flush (path ++ conversions.flatten) := by
    intro c found
    rw [head] at found
    obtain rfl := Option.some.inj found
    exact not_isBlank_of_isWordChar letter
  have unsigned : (path ++ conversions.flatten).head? ≠ some '&' := by
    rw [head]
    exact fun same => ne_of_isWordChar letter (by decide) (Option.some.inj same)
  have nonempty : path ++ conversions.flatten ≠ [] := by
    intro empty
    rw [empty] at head
    cases head
  obtain ⟨spare, enough⟩ := Nat.exists_eq_add_of_le (length_le_flatten all)
  have fuel : (path ++ conversions.flatten).length = conversions.length + (spare + path.length) := by
    rw [List.length_append, enough]
    omega
  have subject : Seed.subject text = path := by
    rw [Seed.subject, split, dereference_append allSigns blank noSigns flush
      (ended_reference qualified all) unsigned nonempty, fuel, dropConversions_flatten all,
      dropConversions_of_getLast? (qualified.getLast?_ne (by decide))]
  rwa [subject]

theorem RefersTo.quoteless {text : List Char} (refers : RefersTo text constant) : '"' ∉ text := by
  obtain ⟨signs, blanks, path, conversions, split, allSigns, blank, _, qualified, all⟩ := refers
  have noConversion : ∀ conversion ∈ Seed.conversions, '"' ∉ conversion := by decide
  rw [split]
  intro member
  simp only [List.mem_append, List.mem_flatten] at member
  rcases member with (sign | inBlanks) | inPath | ⟨conversion, listed, inConversion⟩
  · exact absurd (allSigns '"' sign) (by decide)
  · exact absurd (blank '"' inBlanks) (by decide)
  · exact absurd (isPlain_of_qualified qualified '"' inPath) (by decide)
  · exact noConversion conversion (all conversion listed) inConversion

end RefersTo

/-- Where a constant is named, there are no commas, quotes or brackets but those of conversions. -/
theorem SeedTable.plain_of_byteConstant? {table : SeedTable} {text : String}
    {found : String × List UInt8} (named : table.byteConstant? text = some found) :
    ∀ c ∈ text.toList, isPlain c = true ∨ c = '(' ∨ c = ')' := by
  simp only [byteConstant?, Option.bind_eq_bind, Option.bind_eq_some_iff] at named
  obtain ⟨name, read, _⟩ := named
  obtain ⟨front, back, trimmed, frontBlank, backBlank⟩ := exists_trim_split text.toList
  obtain ⟨signs, blanks, referenced, allSigns, blank, _⟩ := exists_dereference_split text.toList
  obtain ⟨conversions, converted, all⟩ :=
    exists_conversions (dereference text.toList).length (dereference text.toList)
  obtain ⟨lineBreak, path, broken⟩ := exists_dropFinalBreak (Seed.subject text.toList)
  have blankPlain {part : List Char} (blank : Blank part) : ∀ c ∈ part, isPlain c = true :=
    fun c member => isPlain_of_isBlank (blank c member)
  have inConversions : ∀ c ∈ conversions.flatten, isPlain c = true ∨ c = '(' ∨ c = ')' := by
    intro c member
    obtain ⟨conversion, listed, inside⟩ := List.mem_flatten.mp member
    obtain ⟨split, plain, _⟩ := conversion_eq conversion (all conversion listed)
    rw [split] at inside
    rcases List.mem_append.mp inside with word | parenthesis
    · exact .inl (plain c word)
    · simpa using Or.inr parenthesis
  intro c member
  rw [trimmed, referenced, converted, ← Seed.subject, path] at member
  simp only [List.mem_append] at member
  rcases member with (inFront | (sign | inBlanks) | (inPath | inBreak) | inConversion) | inBack
  · exact .inl (blankPlain frontBlank c inFront)
  · rw [allSigns c sign]
    exact .inl rfl
  · exact .inl (blankPlain blank c inBlanks)
  · exact .inl (isPlain_of_qualified (qualified_of_qualifiedName? read) c inPath)
  · rcases broken with none | one
    · rw [none] at inBreak
      cases inBreak
    · rw [one] at inBreak
      rw [List.mem_singleton.mp inBreak]
      exact .inl rfl
  · exact inConversions c inConversion
  · exact .inl (blankPlain backBlank c inBack)

/-! ## Seeds -/

theorem byteString?_of_not_mem {text : List Char} (quoteless : '"' ∉ text) :
    byteString? (.ofList text) = none := by
  have inside : '"' ∉ dereference text := by
    obtain ⟨signs, blanks, split, _⟩ := exists_dereference_split text
    obtain ⟨front, back, whole, _⟩ := exists_trim_split text
    intro member
    apply quoteless
    rw [whole, split]
    simp [member]
  have notRaw {rest : List Char} (absent : '"' ∉ rest) : raw? rest = none := by
    rw [raw?]
    split
    · rename_i opened
      have opening : '"' ∈ rest.dropWhile (· = '#') := by simp [opened]
      exact absurd ((List.dropWhile_sublist _).mem opening) absent
    · rfl
  rw [byteString?, String.toList_ofList]
  split
  · rename_i rest opened
    rw [opened] at inside
    rw [notRaw (by simpa using inside)]
  · rename_i rest _ opened
    rw [opened] at inside
    have notCooked : cooked? rest = none := by
      rw [cooked?.eq_def]
      split
      · simp at inside
      · rfl
    rw [notCooked]
    rfl
  · rfl

namespace SeedTable

variable {table : SeedTable} {expression : String} {bytes : List UInt8}

theorem literal?_of_byteLiteral (literal : ByteLiteral expression.toList bytes) :
    table.literal? expression = some (.literal bytes) := by
  have read := byteString?_of_byteLiteral literal
  rw [String.ofList_toList] at read
  rw [literal?, read]

theorem literal?_of_refersTo {constant : List Char} {value : String}
    (refers : RefersTo expression.toList constant)
    (holds : table.constants.lookup (.ofList constant) = some value)
    (read : byteString? value = some bytes) :
    table.literal? expression = some (.literal bytes) := by
  have qualified := refers.qualified_subject
  have named := (qualifiedName?_eq_some_iff (qualified.getLast?_ne (by decide))).mpr qualified
  have noLiteral := byteString?_of_not_mem refers.quoteless
  rw [String.ofList_toList] at noLiteral
  have found : table.byteConstant? expression = some (.ofList constant, bytes) := by
    rw [byteConstant?, named]
    simp [holds, read]
  rw [literal?, noLiteral, found]
  rfl

theorem outcome_classifyUnbound {seed : Seed} (found : table.literal? expression = some seed) :
    (table.classifyUnbound expression).outcome = .ok seed := by
  rw [classifyUnbound, found]
  rfl

/-- What an expression stands for when a macro parameter that it is, is bound. -/
def standsFor (bound : String → Option String) (expression : String) : String :=
  ((Seed.param? (Seed.subject expression.toList)).bind bound).getD expression

/-- A macro parameter is no literal. -/
theorem literal?_of_param? {param : String}
    (isParam : Seed.param? (Seed.subject expression.toList) = some param) :
    table.literal? expression = none := by
  obtain ⟨rest, dollar⟩ : ∃ rest, Seed.subject expression.toList = '$' :: rest := by
    rw [Seed.param?.eq_def] at isParam
    split at isParam
    · rename_i rest split
      exact ⟨rest, split⟩
    · cases isParam
  obtain ⟨conversions, split, _⟩ := exists_conversions (dereference expression.toList).length
    (dereference expression.toList)
  rw [← Seed.subject, dollar] at split
  have noLiteral : byteString? expression = none := by
    rw [byteString?, split]
    rfl
  have noName : qualifiedName? (Seed.subject expression.toList) = none := by
    by_contra named
    obtain ⟨name, read⟩ := Option.ne_none_iff_exists'.mp named
    obtain ⟨c, head, letter⟩ := (qualified_of_qualifiedName? read).head?
    obtain ⟨lineBreak, whole, _⟩ := exists_dropFinalBreak (Seed.subject expression.toList)
    have first : (Seed.subject expression.toList).head? = some c := by
      rw [whole, List.head?_append, head]
      rfl
    rw [dollar] at first
    exact ne_of_isWordChar letter (by decide) (Option.some.inj first).symm
  have noConstant : table.byteConstant? expression = none := by
    rw [byteConstant?, noName]
    rfl
  rw [literal?, noLiteral, noConstant]
  rfl

theorem classify_eq (bound : String → Option String) :
    table.classify bound expression = table.classifyUnbound (standsFor bound expression) := by
  rw [classify, standsFor]
  cases isParam : Seed.param? (Seed.subject expression.toList) with
  | none =>
      rw [Option.bind_none, Option.getD_none, classifyUnbound]
      cases table.literal? expression <;> rfl
  | some param =>
      rw [literal?_of_param? isParam, Option.bind_some]
      cases bound param <;> rfl

end SeedTable

/-! ## Literals in arrays -/

theorem Quoted.of_cooked {body : List Char} {bytes : List UInt8} (stands : Cooked body bytes)
    (unbracketed : ∀ c ∈ body, c ∉ ['[', ']']) : Quoted body := by
  have blanks : ∀ text : List Char, (∀ c ∈ text, c ∉ ['"', '\\', '[', ']']) →
      ∀ rest, Quoted rest → Quoted (text ++ rest) := by
    intro text plain rest quoted
    induction text with
    | nil => exact quoted
    | cons c text inductionHypothesis =>
        exact .plain (plain c List.mem_cons_self)
          (inductionHypothesis fun c member => plain c (List.mem_cons_of_mem _ member))
  induction stands with
  | nil => exact .nil
  | plain _ special _ inductionHypothesis =>
      rw [List.forall_mem_cons] at unbracketed
      refine .plain ?_ (inductionHypothesis unbracketed.2)
      have unbracketed := unbracketed.1
      simp only [List.mem_cons, List.not_mem_nil, or_false, not_or] at unbracketed ⊢
      exact ⟨special.1, special.2.1, unbracketed⟩
  | escape _ _ inductionHypothesis =>
      rw [List.forall_mem_cons, List.forall_mem_cons] at unbracketed
      exact .escaped unbracketed.2.1 (inductionHypothesis unbracketed.2.2)
  | @hexadecimal high low _ _ rest _ highDigit lowDigit _ inductionHypothesis =>
      have plain : ∀ c ∈ Literal.hexDigits, c ∉ ['"', '\\', '[', ']'] :=
        forall_mem_of_all (by decide)
      rw [List.forall_mem_cons, List.forall_mem_cons, List.forall_mem_cons, List.forall_mem_cons]
        at unbracketed
      refine .escaped (by decide) (.plain (plain _ (mem_hexDigits highDigit))
        (.plain (plain _ (mem_hexDigits lowDigit)) (inductionHypothesis unbracketed.2.2.2.2)))
  | @continuation text rest _ skipped _ _ inductionHypothesis =>
      have plain : ∀ c ∈ continued, c ∉ ['"', '\\', '[', ']'] := forall_mem_of_all (by decide)
      refine .escaped (by decide) (blanks text (fun c member => plain c (skipped c member)) rest ?_)
      exact inductionHypothesis fun c member => unbracketed c (by simp [member])

/-- A cooked literal is an element of an array if no square bracket stands in it. -/
theorem Paired.of_cooked {body : List Char} {bytes : List UInt8} (stands : Cooked body bytes)
    (unbracketed : ∀ c ∈ body, c ∉ ['[', ']']) :
    Paired false ('b' :: '"' :: (body ++ ['"'])) :=
  .plain (.inl rfl) (.string (.of_cooked stands unbracketed) .nil)

/-! ## Local names -/

/-- The names that the front of a byte-string literal could be taken for. -/
def literalPrefixes : List String :=
  ["b", "br"]

theorem frontName?_of_byteLiteral {text : List Char} {bytes : List UInt8}
    (literal : ByteLiteral text bytes) {name : String}
    (front : frontName? (.ofList text) = some name) : name ∈ literalPrefixes := by
  rw [frontName?, String.toList_ofList, Option.map_eq_some_iff] at front
  obtain ⟨leading, found, rfl⟩ := front
  obtain ⟨c, rest, split, _, taken, _⟩ := exists_of_leadingName? found
  have noLetter : isWordChar '"' = false ∧ isWordChar '#' = false := by decide
  have letters : isWordChar 'b' = true ∧ isWordChar 'r' = true := by decide
  have unsigned : (splitReference text).2 = text := by
    cases literal <;> exact splitReference_of_head? (by simp)
  have whole : c :: rest = text := by rw [← unsigned, split]
  rw [whole] at taken
  rw [taken]
  cases literal with
  | cooked _ => simp [letters, noLetter, literalPrefixes]
  | @raw marks body _ _ =>
      cases marks <;> simp [letters, noLetter, literalPrefixes, List.replicate_succ]

theorem resolve_byteLiteral {bindings : List Binding} {place : Nat} {text : List Char}
    {bytes : List UInt8} (literal : ByteLiteral text bytes)
    (free : ∀ name ∈ literalPrefixes, boundAt? bindings name place = none) :
    resolve bindings place (.ofList text) = .ofList text :=
  resolveSteps_of_unbound
    (fun name front => free name (frontName?_of_byteLiteral literal front)) maxBindingSteps

/-- Behind references and blanks, a bracket opens. -/
theorem trimStart_signs {signs : List Char} (others : ∀ c ∈ signs, c = '&' ∨ isBlank c = true)
    (rest : List Char) : ∃ c more, trimStart (signs ++ '[' :: rest) = c :: more ∧
      (c = '&' ∨ c = '[') := by
  induction signs with
  | nil => exact ⟨'[', rest, trimStart_of_flush (flush_cons_iff.mpr (by decide)), .inr rfl⟩
  | cons c signs inductionHypothesis =>
      rcases others c List.mem_cons_self with rfl | blank
      · exact ⟨'&', _, trimStart_of_flush (flush_cons_iff.mpr (by decide)), .inl rfl⟩
      · obtain ⟨first, more, split, kind⟩ := inductionHypothesis fun c member =>
          others c (List.mem_cons_of_mem _ member)
        refine ⟨first, more, ?_, kind⟩
        rw [List.cons_append, trimStart, List.dropWhile_cons_of_pos blank]
        exact split

theorem frontName?_signs {signs : List Char} (others : ∀ c ∈ signs, c = '&' ∨ isBlank c = true)
    {rest : List Char} (flush : Flush (signs ++ '[' :: rest)) :
    frontName? (.ofList (signs ++ '[' :: rest)) = none := by
  by_contra named
  obtain ⟨name, front⟩ := Option.ne_none_iff_exists'.mp named
  rw [frontName?, String.toList_ofList, Option.map_eq_some_iff] at front
  obtain ⟨leading, found, rfl⟩ := front
  obtain ⟨c, more, split, start, _⟩ := exists_of_leadingName? found
  have target : (splitReference (signs ++ '[' :: rest)).2 = c :: more := by rw [split]
  have noLetter : ∀ c, c = '&' ∨ c = '[' → (c.isAlpha || c = '_') ≠ true := by
    rintro c (rfl | rfl) <;> decide
  refine noLetter c ?_ start
  cases signs with
  | nil =>
      rw [List.nil_append, splitReference_of_head? (by simp)] at target
      exact .inr (List.cons.inj target).1.symm
  | cons sign signs =>
      rcases others sign List.mem_cons_self with rfl | blank
      · have later : ∀ c ∈ signs, c = '&' ∨ isBlank c = true :=
          fun c member => others c (List.mem_cons_of_mem _ member)
        obtain ⟨first, behind, opened, kind⟩ := trimStart_signs later rest
        rw [List.cons_append] at target
        rcases splitReference_sign (signs ++ '[' :: rest) with plain | ⟨_, _, mutable, _, _⟩
        · rw [plain, opened] at target
          obtain rfl := (List.cons.inj target).1
          exact kind
        · rw [opened] at mutable
          obtain rfl := (List.cons.inj mutable).1
          rcases kind with impossible | impossible <;> exact absurd impossible (by decide)
      · have visible := flush_cons_iff.mp flush
        rw [blank] at visible
        cases visible

/-- An array that is written in place stands for itself. -/
theorem resolve_opensArray {bindings : List Binding} {place : Nat} {text : String}
    (opens : opensArray text.toList = true) :
    resolve bindings place (compact text) = compact text := by
  obtain ⟨blanks, split, blank⟩ := exists_trimStart_split (text.toList.dropWhile (· == '&'))
  obtain ⟨rest, opened⟩ := List.head?_eq_some_iff.mp (of_decide_eq_true opens)
  rw [opened] at split
  have whole : text.toList = text.toList.takeWhile (· == '&') ++ blanks ++ '[' :: rest := by
    rw [List.append_assoc, ← split, List.takeWhile_append_dropWhile]
  obtain ⟨left, gap, isGap, inside, compacted⟩ :=
    exists_compactChars_split (text.toList.takeWhile (· == '&') ++ blanks) rest
  have flush := compactChars_flush text.toList
  rw [compact]
  rw [whole, compacted] at flush ⊢
  refine resolveSteps_of_unbound (fun name front => ?_) maxBindingSteps
  rw [frontName?_signs ?_ flush] at front
  · cases front
  · intro c member
    rcases List.mem_append.mp member with early | late
    · rcases inside c early with rfl | present
      · exact .inr (by decide)
      · rcases List.mem_append.mp present with sign | inBlanks
        · exact .inl (by simpa using List.mem_takeWhile_imp sign)
        · exact .inr (blank c inBlanks)
    · exact .inr (isGap.blank c late)

end ProgramIdl
