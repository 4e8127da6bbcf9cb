import ProgramIdl.Proofs.Pda.LiteralSeeds

/-!
# Conversions of seeds

A conversion changes nothing of what an expression refers to (`subject_conversions`), and so nothing
of the seed that a recognized expression is, unless the expression is a byte-string literal itself:
a literal with a conversion is no literal any more (`classify_conversions_iff`).
-/

set_option autoImplicit false

namespace ProgramIdl

open ProgramIdl.Text
open ProgramIdl.Literal

/-! ## Conversions of what is referred to -/

section Trimmed

variable {text rest : List Char}

theorem trim_append_flush (last : ∀ c, text.getLast? = some c → isBlank c = false)
    (flush : Flush rest) (ended : ∀ c, rest.getLast? = some c → isBlank c = false)
    (nonempty : rest ≠ []) : trim (text ++ rest) = trim text ++ rest := by
  obtain ⟨blanks, split, blank⟩ := exists_trimStart_split text
  have kept : trimEnd (trimStart text) = trimStart text := by
    refine trimEnd_of_getLast? fun c found => last c ?_
    rw [split, List.getLast?_append, found]
    rfl
  have flushAll : Flush (trimStart text ++ rest) := by
    intro c head
    rw [List.head?_append] at head
    cases front : (trimStart text).head? with
    | none =>
        rw [front] at head
        exact flush c head
    | some first =>
        rw [front] at head
        obtain rfl := Option.some.inj head
        exact trimStart_flush text first front
  have visible : ∃ c ∈ rest, isBlank c = false :=
    ⟨_, List.getLast_mem nonempty, ended _ (List.getLast?_eq_some_getLast nonempty)⟩
  have whole : text ++ rest = blanks ++ (trimStart text ++ rest) := by
    rw [← List.append_assoc, ← split]
  rw [whole, trim, trimStart_append blank, trimStart_of_flush flushAll, trimEnd_append visible,
    trimEnd_of_getLast? ended, trim, kept]

/-- What stands behind a trimmed text stands behind what the text refers to. -/
theorem dereference_append_flush (trimmed : trim text = text) (flush : Flush rest)
    (ended : ∀ c, rest.getLast? = some c → isBlank c = false) (nonempty : rest ≠ [])
    (unsigned : rest.head? ≠ some '&') :
    dereference (text ++ rest) = dereference text ++ rest := by
  have last : ∀ c, text.getLast? = some c → isBlank c = false := by
    rw [← trimmed]
    exact getLast?_trimEnd _
  have noSign : rest.dropWhile (· == '&') = rest := by
    cases rest with
    | nil => rfl
    | cons c rest => rw [List.dropWhile_cons_of_neg (by simpa using unsigned)]
  have signs : (text ++ rest).dropWhile (· == '&') = text.dropWhile (· == '&') ++ rest := by
    rw [List.dropWhile_append, noSign]
    split
    · rename_i none
      rw [List.isEmpty_iff.mp none, List.nil_append]
    · rfl
  have lastBehind : ∀ c, (text.dropWhile (· == '&')).getLast? = some c → isBlank c = false := by
    intro c found
    obtain ⟨front, split⟩ := List.dropWhile_suffix (l := text) (· == '&')
    refine last c ?_
    rw [← split, List.getLast?_append, found]
    rfl
  rw [dereference, trim_append_flush last flush ended nonempty, trimmed, signs,
    trim_append_flush lastBehind flush ended nonempty, dereference, trimmed]

end Trimmed

theorem dropConversions_congr {limit other : Nat} {text : List Char} (enough : text.length ≤ limit)
    (enough' : text.length ≤ other) :
    Seed.dropConversions limit text = Seed.dropConversions other text := by
  have empty (limit : Nat) : Seed.dropConversions limit [] = [] :=
    dropConversions_of_getLast? (by simp) limit
  induction limit generalizing other text with
  | zero =>
      obtain rfl := List.eq_nil_of_length_eq_zero (Nat.le_zero.mp enough)
      rw [empty, empty]
  | succ limit inductionHypothesis =>
      cases other with
      | zero =>
          obtain rfl := List.eq_nil_of_length_eq_zero (Nat.le_zero.mp enough')
          rw [empty, empty]
      | succ other =>
          rw [Seed.dropConversions, Seed.dropConversions]
          cases found : Seed.conversions.findSome? fun conversion =>
              conversion.isSuffixOf? text with
          | none => rfl
          | some rest =>
              obtain ⟨conversion, listed, ending⟩ := List.exists_of_findSome?_eq_some found
              have shorter : rest.length < text.length := by
                have positive := length_le_flatten (fun other member => by
                  rwa [List.mem_singleton.mp member] : ∀ other ∈ [conversion], _)
                rw [← List.isSuffixOf?_eq_some_iff_append_eq.mp ending, List.length_append]
                simp only [List.length_singleton, List.flatten_singleton] at positive
                omega
              exact inductionHypothesis (by omega) (by omega)

section Conversions

variable {text : List Char} {conversions : List (List Char)}

theorem dereference_conversions (trimmed : trim text = text)
    (all : ∀ conversion ∈ conversions, conversion ∈ Seed.conversions) :
    dereference (text ++ conversions.flatten) = dereference text ++ conversions.flatten := by
  rcases head?_conversions all with none | dot
  · rw [none, List.append_nil, List.append_nil]
  · rcases getLast?_flatten all with rfl | closing
    · cases dot
    · refine dereference_append_flush trimmed ?_ ?_ ?_ ?_
      · intro c head
        rw [dot] at head
        obtain rfl := Option.some.inj head
        decide
      · intro c last
        rw [closing] at last
        obtain rfl := Option.some.inj last
        decide
      · intro none
        rw [none] at dot
        cases dot
      · rw [dot]
        decide

/-- An expression refers to the same with and without conversions. -/
theorem subject_conversions (trimmed : trim text = text)
    (all : ∀ conversion ∈ conversions, conversion ∈ Seed.conversions) :
    Seed.subject (text ++ conversions.flatten) = Seed.subject text := by
  obtain ⟨spare, enough⟩ := Nat.exists_eq_add_of_le (length_le_flatten all)
  have fuel : (dereference text ++ conversions.flatten).length =
      conversions.length + (spare + (dereference text).length) := by
    rw [List.length_append, enough]
    omega
  rw [Seed.subject, Seed.subject, dereference_conversions trimmed all, fuel,
    dropConversions_flatten all]
  exact dropConversions_congr (by omega) (by omega)

end Conversions

/-! ## Literals -/

theorem cookedBody_split {text body after : List Char}
    (read : cookedBody text = some (body, after)) : text = body ++ '"' :: after := by
  induction text using cookedBody.induct generalizing body with
  | case1 => cases read
  | case2 rest =>
      rw [cookedBody] at read
      obtain ⟨rfl, rfl⟩ := Prod.mk.inj (Option.some.inj read)
      rfl
  | case3 c rest inductionHypothesis =>
      rw [cookedBody, Option.map_eq_some_iff] at read
      obtain ⟨⟨early, _⟩, later, same⟩ := read
      obtain ⟨rfl, rfl⟩ := Prod.mk.inj same
      rw [inductionHypothesis later]
      rfl
  | case4 rest _ _ =>
      rw [cookedBody.eq_def] at read
      simp_all
  | case5 c rest noQuote _ noEscape inductionHypothesis =>
      rw [cookedBody_plain ⟨noQuote, noEscape⟩, Option.map_eq_some_iff] at read
      obtain ⟨⟨early, _⟩, later, same⟩ := read
      obtain ⟨rfl, rfl⟩ := Prod.mk.inj same
      rw [inductionHypothesis later]
      rfl

/-- What a quoted text ends in. -/
theorem getLast?_of_cooked? {text body : List Char} (read : cooked? text = some body) :
    text.getLast? = some '"' ∨ text.getLast? = some '\n' := by
  rw [cooked?.eq_def] at read
  split at read
  · rename_i rest
    split at read
    · rename_i body after found
      have finished : after = [] ∨ after = ['\n'] := by
        rcases after with _ | ⟨c, _ | ⟨d, more⟩⟩
        · exact .inl rfl
        · by_cases broken : c = '\n'
          · exact .inr (by rw [broken])
          · simp [isFinished, broken] at read
        · simp [isFinished] at read
      rw [cookedBody_split found]
      rcases finished with rfl | rfl
      · exact .inl (by simp [List.getLast?_cons, List.getLast?_append])
      · exact .inr (by simp [List.getLast?_cons, List.getLast?_append])
    · cases read
  · cases read

theorem getLast?_of_raw? {text body : List Char} (read : raw? text = some body) :
    text.getLast? = some '"' ∨ text.getLast? = some '#' := by
  have split := List.takeWhile_append_dropWhile (p := (decide <| · = '#')) (l := text)
  rw [raw?] at read
  split at read
  · rename_i rest opened
    have closed := List.isSuffixOf?_eq_some_iff_append_eq.mp read
    have marks : ∀ c ∈ text.takeWhile (· = '#'), c = '#' := fun c member => by
      simpa using List.mem_takeWhile_imp member
    rw [← split, opened, ← closed]
    rcases List.eq_nil_or_concat (text.takeWhile (· = '#')) with none | ⟨front, mark, last⟩
    · left
      rw [none]
      simp [List.getLast?_cons, List.getLast?_append]
    · right
      rw [last] at marks
      obtain rfl := marks mark (by simp)
      rw [last]
      simp [List.getLast?_cons, List.getLast?_append]
  · cases read

/-- A text that a parenthesis closes is no byte-string literal. -/
theorem byteString?_of_getLast? {text : List Char}
    (closing : (dereference text).getLast? = some ')') : byteString? (.ofList text) = none := by
  have behind {c : Char} {rest : List Char} {quote : Char} (other : quote ≠ ')')
      (last : rest.getLast? = some quote) : (c :: rest).getLast? ≠ some ')' := by
    rw [List.getLast?_cons, last]
    simpa using other
  rw [byteString?, String.toList_ofList]
  split
  · rename_i rest opened
    rw [opened] at closing
    cases read : raw? rest with
    | none => rfl
    | some body =>
        rw [List.getLast?_cons_cons] at closing
        rcases getLast?_of_raw? read with quote | mark
        · exact absurd closing (behind (by decide) quote)
        · exact absurd closing (behind (by decide) mark)
  · rename_i rest _ opened
    rw [opened] at closing
    cases read : cooked? rest with
    | none => rfl
    | some body =>
        rcases getLast?_of_cooked? read with quote | lineBreak
        · exact absurd closing (behind (by decide) quote)
        · exact absurd closing (behind (by decide) lineBreak)
  · rfl

/-! ## Seeds -/

namespace SeedTable

variable {table : SeedTable} {expression : String} {conversions : List (List Char)}

/-- An expression with conversions. -/
def converted (expression : String) (conversions : List (List Char)) : String :=
  .ofList (expression.toList ++ conversions.flatten)

theorem byteString?_converted (trimmed : trim expression.toList = expression.toList)
    (nonempty : conversions ≠ [])
    (all : ∀ conversion ∈ conversions, conversion ∈ Seed.conversions) :
    byteString? (converted expression conversions) = none := by
  refine byteString?_of_getLast? ?_
  rw [dereference_conversions trimmed all, List.getLast?_append]
  rcases getLast?_flatten all with none | closing
  · exact absurd none nonempty
  · rw [closing]
    rfl

theorem subject_converted (trimmed : trim expression.toList = expression.toList)
    (all : ∀ conversion ∈ conversions, conversion ∈ Seed.conversions) :
    Seed.subject (converted expression conversions).toList = Seed.subject expression.toList := by
  rw [converted, String.toList_ofList, subject_conversions trimmed all]

/-- An expression is the literal of a constant alike with and without conversions. -/
theorem byteConstant?_of_subject_eq {other : String}
    (same : Seed.subject other.toList = Seed.subject expression.toList) :
    table.byteConstant? other = table.byteConstant? expression := by
  rw [byteConstant?, byteConstant?, same]

/-- A literal is no reference to a constant. -/
theorem byteConstant?_of_byteString? {bytes : List UInt8}
    (literal : byteString? expression = some bytes) : table.byteConstant? expression = none := by
  by_contra named
  obtain ⟨found, reads⟩ := Option.ne_none_iff_exists'.mp named
  have quoteless : '"' ∉ expression.toList := by
    intro member
    have plain := plain_of_byteConstant? reads '"' member
    revert plain
    decide
  have none := byteString?_of_not_mem quoteless
  rw [String.ofList_toList, literal] at none
  cases none

/-- Expressions that refer to the same are the same seed, if one of them is recognized. -/
theorem classifyUnbound_congr {other : String} {seed : Seed}
    (literal : table.literal? other = table.literal? expression)
    (subject : Seed.subject other.toList = Seed.subject expression.toList)
    (read : (table.classifyUnbound expression).outcome = .ok seed)
    (recognized : ∀ text, seed ≠ .unrecognized text) :
    table.classifyUnbound other = table.classifyUnbound expression := by
  rw [classifyUnbound] at read
  rw [classifyUnbound, classifyUnbound, literal, subject]
  cases found : table.literal? expression with
  | some seed => rfl
  | none =>
      rw [found] at read
      dsimp only at read ⊢
      cases isParam : Seed.param? (Seed.subject expression.toList) with
      | some param => rfl
      | none =>
          rw [isParam] at read
          cases plain : table.plainSeed? (Seed.subject expression.toList) with
          | some seed => rfl
          | none =>
              rw [plain] at read
              exact absurd (Except.ok.inj read).symm (recognized expression)

/-- A seed that is neither a literal nor a constant is no literal bytes. -/
theorem classifyUnbound_ne_literal {bytes : List UInt8} (noLiteral : table.literal? expression = none) :
    (table.classifyUnbound expression).outcome ≠ .ok (.literal bytes) := by
  rw [classifyUnbound, noLiteral]
  dsimp only
  cases Seed.param? (Seed.subject expression.toList) with
  | some param => intro same; cases same
  | none =>
      dsimp only
      cases plain : table.plainSeed? (Seed.subject expression.toList) with
      | none => intro same; cases same
      | some seed =>
          rw [plainSeed?] at plain
          split at plain
          · obtain rfl := Option.some.inj plain
            intro same; cases same
          · obtain ⟨_, _, rfl⟩ := Option.map_eq_some_iff.mp plain
            intro same; cases same

theorem literal?_converted (trimmed : trim expression.toList = expression.toList)
    (nonempty : conversions ≠ [])
    (all : ∀ conversion ∈ conversions, conversion ∈ Seed.conversions)
    (noLiteral : byteString? expression = none) :
    table.literal? (converted expression conversions) = table.literal? expression := by
  rw [literal?, literal?, byteString?_converted trimmed nonempty all, noLiteral,
    byteConstant?_of_subject_eq (subject_converted trimmed all)]

/-- Conversions, however many of them, leave a recognized expression the seed that it is, whatever
constants, arguments and bindings there are, exactly if the expression is no byte-string literal. -/
theorem classify_converted_iff {bound : String → Option String} {seed : Seed}
    (trimmed : trim expression.toList = expression.toList)
    (read : (table.classify bound expression).outcome = .ok seed)
    (recognized : ∀ text, seed ≠ .unrecognized text) (nonempty : conversions ≠ [])
    (all : ∀ conversion ∈ conversions, conversion ∈ Seed.conversions) :
    table.classify bound (converted expression conversions) = table.classify bound expression ↔
      byteString? expression = none := by
  have subject := subject_converted trimmed all
  constructor
  · intro same
    by_contra isLiteral
    obtain ⟨bytes, literal⟩ := Option.ne_none_iff_exists'.mp isLiteral
    have found : table.literal? expression = some (.literal bytes) := by rw [literal?, literal]
    have noParam : Seed.param? (Seed.subject expression.toList) = none := by
      by_contra isParam
      obtain ⟨param, isParam⟩ := Option.ne_none_iff_exists'.mp isParam
      rw [literal?_of_param? isParam] at found
      cases found
    have noLiteral : table.literal? (converted expression conversions) = none := by
      rw [literal?, byteString?_converted trimmed nonempty all, byteConstant?_of_subject_eq subject,
        byteConstant?_of_byteString? literal]
      rfl
    rw [classify_eq, classify_eq, standsFor, standsFor, subject, noParam, Option.bind_none,
      Option.getD_none, Option.getD_none] at same
    have outcome := outcome_classifyUnbound found
    rw [← same] at outcome
    exact classifyUnbound_ne_literal noLiteral outcome
  · intro noLiteral
    rw [classify_eq, standsFor] at read
    rw [classify_eq, classify_eq, standsFor, standsFor, subject]
    cases given : (Seed.param? (Seed.subject expression.toList)).bind bound with
    | some argument => rfl
    | none =>
        rw [given] at read
        exact classifyUnbound_congr (literal?_converted trimmed nonempty all noLiteral) subject
          read recognized

theorem classify_converted_iff_account :
    SeedTable.classify {} (fun _ => none)
        (converted "self.vault" [".address()".toList, ".as_ref()".toList]) =
      SeedTable.classify {} (fun _ => none) "self.vault" := by
  have read : (SeedTable.classify {} (fun _ => none) "self.vault").outcome =
      .ok (.account "vault" (some .plainAddress)) := rfl
  refine (classify_converted_iff (by decide) read (fun _ => nofun) (by decide) (by decide)).mpr ?_
  decide +kernel

/-- A literal is none any more when its bytes are asked for as a slice. -/
theorem not_classify_converted :
    (SeedTable.classify {} (fun _ => none) "b\"x\"").outcome = .ok (.literal [120]) ∧
      (SeedTable.classify {} (fun _ => none) (converted "b\"x\"" [".as_ref()".toList])).outcome =
        .ok (.unrecognized "b\"x\".as_ref()") :=
  ⟨rfl, rfl⟩

end SeedTable

end ProgramIdl
