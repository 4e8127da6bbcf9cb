import ProgramIdl.Proofs.Literal.Integer

/-!
# What is read as a number

The reader of integer literals takes out underscores and capitals before it looks at a text, and it is
more lenient than the language in front of the digits.  A text is tidy if it does not depend on either.
The tidy texts among those that are read as numbers are exactly the literals, and each denotes the
number that is read (`tidy_iff_denotes`).
-/

set_option autoImplicit false

namespace ProgramIdl.Literal

open ProgramIdl.Text

/-- The text is a literal with blanks around it, and the number is the one that it denotes. -/
def Denotes (text : String) (value : Int) : Prop :=
  ∃ number : Nat, value = number ∧ IntegerLiteral (trim text.toList) number

/-- A character of which the reader takes no more than the language: no blank, no sign and no digit of
another script. -/
structure Solid (c : Char) : Prop where
  visible : isBlank c = false
  unsigned : c ≠ '-' ∧ c ≠ '+'
  digit : (decimalDigit? c).isSome = true → (hexDigit? c).isSome = true

/-- A text whose underscores and capitals hide neither its base mark nor its type name, that starts with
no underscore, and that has no second base mark behind the first one. -/
structure Tidy (text : List Char) : Prop where
  solid : ∀ c ∈ text, Solid c
  first : text.head? ≠ some '_'
  marked : ∀ base : Base, base.mark <+: lowered text → base.mark <+: text
  once : ∀ base : Base, base ≠ .decimal → ¬ base.mark ++ base.mark <+: lowered text
  typed : ∀ type ∈ integerTypes, type <:+ lowered text → type <:+ text

/-! ## Small letters -/

/-- The letters that have a small form. -/
def capitals : List Char :=
  (List.range 26).map fun place => Char.ofNat (place + 65)

/-- A character is small already, or it is a capital. -/
theorem toLower_eq_or_mem (c : Char) : c.toLower = c ∨ c ∈ capitals := by
  by_cases capital : 'A' ≤ c ∧ c ≤ 'Z'
  · right
    have low : 65 ≤ c.toNat := capital.1
    have high : c.toNat ≤ 90 := capital.2
    refine List.mem_map.mpr ⟨c.toNat - 65, List.mem_range.mpr (by omega), ?_⟩
    rw [Nat.sub_add_cancel low, Char.ofNat_toNat]
  · left
    unfold Char.toLower
    rw [dif_neg]
    exact capital

theorem toLower_capitals : ∀ c ∈ capitals, isBlank c.toLower = false ∧ c.toLower ≠ '-' ∧
    c.toLower ≠ '+' ∧ ∀ value < 16, digit? c.toLower = some value → hexDigit? c = some value :=
  forall_mem_of_all (by decide)

theorem digit?_hexDigits : ∀ c ∈ hexDigits, digit? c = hexDigit? c :=
  forall_mem_of_all (by decide)

theorem Solid.toLower {c : Char} (solid : Solid c) :
    isBlank c.toLower = false ∧ c.toLower ≠ '-' ∧ c.toLower ≠ '+' := by
  rcases toLower_eq_or_mem c with same | capital
  · rw [same]
    exact ⟨solid.visible, solid.unsigned⟩
  · obtain ⟨visible, noMinus, noPlus, _⟩ := toLower_capitals c capital
    exact ⟨visible, noMinus, noPlus⟩

/-- The reader takes a solid character for a digit only if it is one. -/
theorem Solid.hexDigit? {c : Char} (solid : Solid c) {value : Nat} (small : value < 16)
    (read : digit? c.toLower = some value) : hexDigit? c = some value := by
  rcases toLower_eq_or_mem c with same | capital
  · rw [same] at read
    have isDigit : (Literal.hexDigit? c).isSome = true := by
      rw [digit?] at read
      split at read
      · rename_i letter
        have low : 97 ≤ c.toNat := letter.1
        obtain rfl := Option.some.inj read
        have inside : 'a' ≤ c ∧ c ≤ 'f' :=
          ⟨letter.1, (by rw [show 'a'.toNat = 97 from rfl] at small; omega : c.toNat ≤ 102)⟩
        rw [Literal.hexDigit?, if_neg (fun digit => ?_), if_pos inside]
        · rfl
        · have high : c.toNat ≤ 57 := digit.2
          omega
      · split at read
        · rename_i capital
          have low : 65 ≤ c.toNat := capital.1
          obtain rfl := Option.some.inj read
          have inside : 'A' ≤ c ∧ c ≤ 'F' :=
            ⟨capital.1, (by rw [show 'A'.toNat = 65 from rfl] at small; omega : c.toNat ≤ 70)⟩
          have high : c.toNat ≤ 70 := inside.2
          rw [Literal.hexDigit?, if_neg (fun digit => ?_), if_neg (fun letter => ?_), if_pos inside]
          · rfl
          · have low : 97 ≤ c.toNat := letter.1
            omega
          · have high : c.toNat ≤ 57 := digit.2
            omega
        · exact solid.digit (by rw [read]; rfl)
    obtain ⟨digit, found⟩ := Option.isSome_iff_exists.mp isDigit
    rw [← digit?_hexDigits c (mem_hexDigits found), read]
  · exact (toLower_capitals c capital).2.2.2 value small read

theorem mem_lowered {text : List Char} {c : Char} (listed : c ∈ lowered text) :
    ∃ source ∈ text, source.toLower = c := by
  obtain ⟨source, kept, same⟩ := List.mem_map.mp listed
  exact ⟨source, List.mem_of_mem_filter kept, same⟩

theorem length_lowered_le (text : List Char) : (lowered text).length ≤ text.length := by
  rw [lowered, List.length_map]
  exact List.length_filter_le _ _

/-- Digits of solid characters, with underscores between them, are a numeral. -/
theorem numeral_of_lowered {base : Base} {body : List Char} {digits : List Nat}
    (solid : ∀ c ∈ body, Solid c)
    (read : List.Forall₂ (fun c digit => digit? c = some digit ∧ digit < base.radix) (lowered body)
      digits) : Numeral base body digits := by
  have few : base.radix ≤ 16 := by cases base <;> decide
  induction body generalizing digits with
  | nil =>
      cases read
      exact .nil
  | cons c body inductionHypothesis =>
      obtain ⟨here, later⟩ := List.forall_mem_cons.mp solid
      by_cases underscore : c = '_'
      · subst underscore
        rw [lowered, List.filter_cons_of_neg (by simp)] at read
        exact .underscore (inductionHypothesis later read)
      · rw [lowered, List.filter_cons_of_pos (by simpa using underscore), List.map_cons] at read
        cases read with
        | cons first behind =>
            have small := first.2
            exact .digit (here.hexDigit? (by omega) first.1) small (inductionHypothesis later behind)

/-! ## The parts of what is read -/

/-- What is read as digits are digits, and the number is theirs. -/
theorem exists_digits {radix : Nat} {text : List Char} {before value : Nat}
    (read : digitsValue? radix before text = some value) :
    ∃ digits, List.Forall₂ (fun c digit => digit? c = some digit ∧ digit < radix) text digits ∧
      value = Nat.ofDigits radix (digits.reverse ++ [before]) := by
  induction text generalizing before with
  | nil =>
      obtain rfl := Option.some.inj read
      exact ⟨[], .nil, by simp⟩
  | cons c text inductionHypothesis =>
      rw [digitsValue?] at read
      split at read
      · rename_i digit found
        split at read
        · rename_i small
          obtain ⟨digits, spelled, rfl⟩ := inductionHypothesis read
          refine ⟨digit :: digits, .cons ⟨found, small⟩ spelled, ?_⟩
          simp only [List.reverse_cons, List.append_assoc, List.singleton_append, Nat.ofDigits_append,
            Nat.ofDigits_cons, Nat.ofDigits_nil]
          ring
        · cases read
      · cases read

theorem exists_natural {base : Base} {text : List Char} {value : Nat}
    (read : natural? base text = some value) :
    ∃ digits, List.Forall₂ (fun c digit => digit? c = some digit ∧ digit < base.radix) text digits ∧
      digits ≠ [] ∧ (base = .decimal → digits.length ≤ maxDecimalDigits) ∧
      value = Nat.ofDigits base.radix digits.reverse := by
  rw [natural?] at read
  split at read
  · cases read
  · rename_i some_
    split at read
    · cases read
    · rename_i short
      obtain ⟨digits, spelled, rfl⟩ := exists_digits read
      refine ⟨digits, spelled, ?_, fun decimal => ?_, by simp [Nat.ofDigits_append]⟩
      · rintro rfl
        cases spelled
        exact some_ rfl
      · rw [← spelled.length_eq]
        by_contra long
        exact short ⟨decimal, Nat.lt_of_not_le long⟩

/-- Without a blank or a sign in front there is only a base mark to take off. -/
theorem number?_of_plain {base : Base} {text : List Char}
    (plain : ∀ c ∈ text, isBlank c = false ∧ c ≠ '-' ∧ c ≠ '+') :
    number? base text = (natural? base (dropBaseMark base text)).map Int.ofNat := by
  have kept {text : List Char} (visible : ∀ c ∈ text, isBlank c = false) :
      text.dropWhile isNumberBlank = text := by
    cases text with
    | nil => rfl
    | cons c rest =>
        rw [List.dropWhile_cons_of_neg]
        simp [isNumberBlank, visible c List.mem_cons_self]
  rw [number?, kept fun c listed => (plain c listed).1,
    kept fun c listed => (plain c (List.mem_reverse.mp listed)).1, List.reverse_reverse]
  split
  · exact absurd rfl (plain '-' List.mem_cons_self).2.1
  · exact absurd rfl (plain '+' List.mem_cons_self).2.2
  · rfl

theorem dropBaseMark_cases (base : Base) (text : List Char) :
    dropBaseMark base text = text ∨ ∃ mark rest, text = '0' :: mark :: rest ∧
      base.letter? = some mark.toLower := by
  rw [dropBaseMark.eq_def]
  split
  · rename_i mark rest letter announced
    split
    · rename_i same
      exact .inr ⟨mark, rest, rfl, by rw [announced, same]⟩
    · exact .inl rfl
  · exact .inl rfl

theorem mark_eq {base : Base} {letter : Char} (announced : base.letter? = some letter) :
    base.mark = ['0', letter] ∧ base ≠ .decimal := by
  cases base <;> cases announced <;> exact ⟨rfl, nofun⟩

theorem mark_append_splitBase (text : List Char) :
    (splitBase text).1.mark ++ (splitBase text).2 = text := by
  rw [splitBase.eq_def]
  split <;> rfl

theorem integerSuffixes_types : ∀ suffix ∈ integerSuffixes, suffix ∈ integerTypes := by
  decide

/-- Without a line break at its end a text falls into what is kept of it and the name of a type. -/
theorem exists_dropSuffix_append {text : List Char} (last : text.getLast? ≠ some '\n') :
    ∃ suffix, (suffix = [] ∨ suffix ∈ integerTypes) ∧ dropSuffix text ++ suffix = text := by
  rw [dropSuffix_of_getLast? last]
  cases cut : integerSuffixes.findSome? fun suffix => suffix.isSuffixOf? text with
  | none => exact ⟨[], .inl rfl, List.append_nil _⟩
  | some rest =>
      obtain ⟨suffix, listed, found⟩ := List.exists_of_findSome?_eq_some cut
      exact ⟨suffix, .inr (integerSuffixes_types suffix listed),
        List.isSuffixOf?_eq_some_iff_append_eq.mp found⟩

/-- What is read of a text in small letters and without underscores. -/
theorem integerChars?_eq_some {text : List Char} {value : Int}
    (read : integerChars? text = some value) :
    number? (splitBase (lowered (trim text))).1
      (dropSuffix (splitBase (lowered (trim text))).2) = some value := by
  rw [integerChars?, ← lowered] at read
  split at read
  · cases read
  · cases read
  · exact read

/-! ## Literals and tidy texts -/

section Literals

variable {text : List Char} {number : Nat}

/-- A tidy text that is read as a number is a literal, and denotes the number. -/
theorem Tidy.integerLiteral (tidy : Tidy text) {base : Base} {digits suffix : List Char} {value : Int}
    (split : base.mark ++ (digits ++ suffix) = lowered text)
    (type : suffix = [] ∨ suffix ∈ integerTypes) (read : number? base digits = some value) :
    ∃ number : Nat, value = number ∧ IntegerLiteral text number := by
  have plain : ∀ c ∈ digits, isBlank c = false ∧ c ≠ '-' ∧ c ≠ '+' := by
    intro c listed
    have inside : c ∈ lowered text := by simp [← split, listed]
    obtain ⟨source, member, rfl⟩ := mem_lowered inside
    exact (tidy.solid source member).toLower
  -- no second base mark stands in front of the digits
  have unmarked : dropBaseMark base digits = digits := by
    rcases dropBaseMark_cases base digits with same | ⟨mark, rest, rfl, announced⟩
    · exact same
    · obtain ⟨marked, based⟩ := mark_eq announced
      have small : mark.toLower = mark := by
        have inside : mark ∈ lowered text := by simp [← split]
        obtain ⟨source, _, rfl⟩ := mem_lowered inside
        rcases toLower_eq_or_mem source with same | capital
        · rw [same, same]
        · exact forall_mem_of_all (by decide : capitals.all fun c =>
            decide (c.toLower.toLower = c.toLower)) source capital
      refine absurd ?_ (tidy.once base based)
      rw [← split, marked, small]
      exact ⟨rest ++ suffix, by simp⟩
  rw [number?_of_plain plain, unmarked] at read
  obtain ⟨number, found, rfl⟩ := Option.map_eq_some_iff.mp read
  obtain ⟨values, spelled, some_, short, rfl⟩ := exists_natural found
  -- the mark and the type name stand in the text as they are
  obtain ⟨behind, rfl⟩ := tidy.marked base ⟨_, split⟩
  have rest : digits ++ suffix = lowered behind := by
    rw [lowered_append, lowered_mark] at split
    exact List.append_cancel_left split
  have ends : suffix <:+ behind := by
    rcases type with rfl | listed
    · exact List.nil_suffix
    · have whole := tidy.typed suffix listed
        ⟨base.mark ++ digits, by rw [List.append_assoc, split]⟩
      refine List.suffix_of_suffix_length_le whole (List.suffix_append _ _) ?_
      have length := congrArg List.length rest
      have fewer := length_lowered_le behind
      rw [List.length_append] at length
      omega
  obtain ⟨body, rfl⟩ := ends
  have digitsEq : digits = lowered body := by
    rw [lowered_append, (visible_suffix type).1] at rest
    exact List.append_cancel_right rest
  have numeral := numeral_of_lowered (fun c listed => tidy.solid c (by simp [listed])) (digitsEq ▸ spelled)
  refine ⟨_, rfl, ?_⟩
  rw [← List.append_assoc]
  refine .intro numeral some_ (fun decimal underscore => tidy.first ?_) short type
  subst decimal
  rw [Base.mark, List.nil_append, List.head?_append, underscore]
  rfl

theorem solid_hexDigits : ∀ c ∈ hexDigits, isBlank c = false ∧ (c ≠ '-' ∧ c ≠ '+') ∧
    ((decimalDigit? c).isSome = true → (hexDigit? c).isSome = true) :=
  forall_mem_of_all (by decide)

/-- The letters and the underscore that literals have besides digits. -/
def marksAndTypes : List Char :=
  '_' :: ([Base.binary, .octal, .decimal, .hexadecimal].map Base.mark ++ integerTypes).flatten

theorem solid_marksAndTypes : ∀ c ∈ marksAndTypes, isBlank c = false ∧ (c ≠ '-' ∧ c ≠ '+') ∧
    ((decimalDigit? c).isSome = true → (hexDigit? c).isSome = true) :=
  forall_mem_of_all (by decide)

theorem Numeral.solid {base : Base} {body : List Char} {digits : List Nat}
    (numeral : Numeral base body digits) : ∀ c ∈ body, Solid c := by
  induction numeral with
  | nil => nofun
  | digit value _ _ inductionHypothesis =>
      obtain ⟨visible, unsigned, digit⟩ := solid_hexDigits _ (mem_hexDigits value)
      exact List.forall_mem_cons.mpr ⟨⟨visible, unsigned, digit⟩, inductionHypothesis⟩
  | underscore _ inductionHypothesis =>
      obtain ⟨visible, unsigned, digit⟩ := solid_marksAndTypes '_' (by decide)
      exact List.forall_mem_cons.mpr ⟨⟨visible, unsigned, digit⟩, inductionHypothesis⟩

/-- No base mark stands behind another one, nor in front of a type name. -/
theorem Spelled.not_mark {base : Base} {digits : List Nat} {suffix : List Char}
    (spelled : Spelled base text digits) (some_ : digits ≠ [])
    (type : suffix = [] ∨ suffix ∈ integerTypes) (based : base ≠ .decimal) :
    ¬ base.mark <+: text ++ suffix := by
  obtain ⟨letter, marked, notDigit, notType⟩ : ∃ letter, base.mark = ['0', letter] ∧
      (letter ∈ lowercaseDigits → digit? letter = some 11 ∧ ¬ 11 < base.radix) ∧
      ∀ type ∈ integerTypes, type.head? ≠ some letter := by
    cases base with
    | binary => exact ⟨'b', rfl, by decide, by decide⟩
    | octal => exact ⟨'o', rfl, by decide, by decide⟩
    | decimal => exact absurd rfl based
    | hexadecimal => exact ⟨'x', rfl, by decide, by decide⟩
  rw [marked]
  rintro ⟨rest, starts⟩
  cases spelled with
  | nil => exact some_ rfl
  | cons _ behind =>
      rw [List.cons_append] at starts
      have second := (List.cons.inj starts).2
      cases behind with
      | nil =>
          rcases type with rfl | listed
          · cases second
          · refine notType suffix listed ?_
            change [letter] ++ rest = suffix at second
            rw [← second]
            rfl
      | cons here _ =>
          obtain ⟨listed, read, small⟩ := here
          rw [List.cons_append] at second
          obtain rfl := (List.cons.inj second).1
          obtain ⟨eleven, large⟩ := notDigit listed
          obtain rfl := Option.some.inj (read.symm.trans eleven)
          exact large small

theorem integerTypes_head : ∀ type ∈ integerTypes, type.head? ∈ [some 'u', some 'i'] := by
  decide

/-- The text of a literal is tidy. -/
theorem IntegerLiteral.tidy (literal : IntegerLiteral text number) : Tidy text := by
  obtain ⟨numeral, some_, first, short, type⟩ := literal
  rename_i base body suffix digits
  have spelled := numeral.spelled
  have small := (visible_suffix type).1
  have whole : lowered (base.mark ++ body ++ suffix) = base.mark ++ lowered body ++ suffix := by
    rw [lowered_append, lowered_append, lowered_mark, small]
  -- the literal has no base mark but its own
  have only : ∀ other : Base, other ≠ .decimal →
      other.mark <+: lowered (base.mark ++ body ++ suffix) → other = base := by
    rintro other based ⟨rest, starts⟩
    have split : splitBase (other.mark ++ rest) = (other, rest) := by
      cases other with
      | decimal => exact absurd rfl based
      | _ => rfl
    rw [starts, whole, splitBase_mark spelled some_ type] at split
    exact (Prod.mk.inj split).1.symm
  refine ⟨?_, ?_, fun other starts => ?_, fun other based twice => ?_, fun name listed ends => ?_⟩
  · intro c member
    rcases List.mem_append.mp member with member | member
    · rcases List.mem_append.mp member with member | member
      · obtain ⟨visible, unsigned, digit⟩ := solid_marksAndTypes c (by
          refine List.mem_cons_of_mem _ (List.mem_flatten.mpr ⟨base.mark, ?_, member⟩)
          exact List.mem_append_left _ (List.mem_map.mpr ⟨base, by cases base <;> decide, rfl⟩))
        exact ⟨visible, unsigned, digit⟩
      · exact numeral.solid c member
    · rcases type with rfl | listed
      · cases member
      · obtain ⟨visible, unsigned, digit⟩ := solid_marksAndTypes c
          (List.mem_cons_of_mem _ (List.mem_flatten.mpr ⟨suffix, List.mem_append_right _ listed, member⟩))
        exact ⟨visible, unsigned, digit⟩
  · have started : body ≠ [] := by
      rintro rfl
      cases numeral
      exact some_ rfl
    obtain ⟨c, rest, rfl⟩ := List.exists_cons_of_ne_nil started
    cases base with
    | decimal => exact first rfl
    | _ => exact fun underscore => absurd (Option.some.inj underscore) (by decide)
  · by_cases based : other = .decimal
    · subst based
      exact List.nil_prefix
    · rw [only other based starts, List.append_assoc]
      exact List.prefix_append _ _
  · obtain rfl := only other based ((List.prefix_append _ _).trans twice)
    rw [whole, List.append_assoc] at twice
    exact spelled.not_mark some_ type based ((List.prefix_append_right_inj _).mp twice)
  · rw [whole] at ends
    rcases type with rfl | typed
    · obtain ⟨c, rest, rfl⟩ : ∃ c rest, name = c :: rest :=
        List.exists_cons_of_ne_nil (visible_integerTypes name listed).1
      have inside : c ∈ base.mark ++ lowered body := by
        rw [List.append_nil] at ends
        exact ends.subset List.mem_cons_self
      have letter : c ∈ ['u', 'i'] := by
        have first := integerTypes_head _ listed
        simpa using first
      rcases List.mem_append.mp inside with marked | digit
      · have all : ∀ base : Base, ∀ c ∈ base.mark, c ∉ ['u', 'i'] := by
          intro base
          cases base <;> exact forall_mem_of_all (by decide)
        exact absurd letter (all base c marked)
      · exact absurd letter ((forall_mem_of_all (by decide) : ∀ c ∈ lowercaseDigits, c ∉ ['u', 'i']) c
          (spelled.listed c digit))
    · have same : name = suffix := by
        have here := integerTypes_listed name listed
        have there := integerTypes_listed suffix typed
        rcases List.suffix_or_suffix_of_suffix ends (List.suffix_append _ _) with inside | inside
        · exact integerSuffixes_alone name here suffix there inside
        · exact (integerSuffixes_alone suffix there name here inside).symm
      exact same ▸ List.suffix_append _ _

end Literals

/-- Of the texts that are read as numbers the tidy ones are the literals that denote the number. -/
theorem tidy_iff_denotes {text : String} {value : Int} (read : integer? text = some value) :
    Tidy (trim text.toList) ↔ Denotes text value := by
  constructor
  · intro tidy
    have found := integerChars?_eq_some read
    have split := mark_append_splitBase (lowered (trim text.toList))
    have last : (splitBase (lowered (trim text.toList))).2.getLast? ≠ some '\n' := by
      intro last
      have inside : '\n' ∈ lowered (trim text.toList) := by
        rw [← split]
        exact List.mem_append_right _ (List.mem_of_getLast? last)
      obtain ⟨source, member, same⟩ := mem_lowered inside
      have visible := (tidy.solid source member).toLower.1
      rw [same] at visible
      exact absurd visible (by decide)
    obtain ⟨suffix, type, rest⟩ := exists_dropSuffix_append last
    rw [← rest] at split
    exact tidy.integerLiteral split type found
  · rintro ⟨number, _, literal⟩
    exact literal.tidy

end ProgramIdl.Literal
