import Mathlib.Data.List.Forall2
import Mathlib.Data.Nat.Digits.Defs
import ProgramIdl.Proofs.Literal.ByteString

/-!
# Integer literals

`IntegerLiteral text value` says which texts are integer literals of the language and which numbers
they denote, without saying how one is read.  The reader finds that number
(`integer?_of_integerLiteral`).
-/

set_option autoImplicit false

namespace ProgramIdl.Literal

open ProgramIdl.Text

/-! ## What the language says -/

/-- The characters that announce the base of a literal. -/
def Base.mark : Base → List Char
  | .binary => ['0', 'b']
  | .octal => ['0', 'o']
  | .decimal => []
  | .hexadecimal => ['0', 'x']

/-- The digits among the characters of a number, most significant first; underscores only group
them. -/
inductive Numeral (base : Base) : List Char → List Nat → Prop where
  | nil : Numeral base [] []
  | digit {c : Char} {digit : Nat} {rest : List Char} {digits : List Nat}
      (value : hexDigit? c = some digit) (small : digit < base.radix)
      (behind : Numeral base rest digits) : Numeral base (c :: rest) (digit :: digits)
  | underscore {rest : List Char} {digits : List Nat} (behind : Numeral base rest digits) :
      Numeral base ('_' :: rest) digits

/-- The names of the integer types, signed and unsigned. -/
def integerTypes : List (List Char) :=
  [['u'], ['i']].flatMap fun sign =>
    [['8'], ['1', '6'], ['3', '2'], ['6', '4'], ['1', '2', '8'], ['s', 'i', 'z', 'e']].map (sign ++ ·)

/-- The text of an integer literal, and the number that it denotes. -/
inductive IntegerLiteral : List Char → Nat → Prop where
  | intro {base : Base} {body suffix : List Char} {digits : List Nat}
      (numeral : Numeral base body digits) (some_ : digits ≠ [])
      (first : base = .decimal → body.head? ≠ some '_')
      (short : base = .decimal → digits.length ≤ maxDecimalDigits)
      (type : suffix = [] ∨ suffix ∈ integerTypes) :
      IntegerLiteral (base.mark ++ body ++ suffix) (Nat.ofDigits base.radix digits.reverse)

/-! ## Digits -/

/-- The characters that the reader sees as digits. -/
def lowercaseDigits : List Char :=
  ['0', '1', '2', '3', '4', '5', '6', '7', '8', '9', 'a', 'b', 'c', 'd', 'e', 'f']

theorem toLower_hexDigits : ∀ c ∈ hexDigits,
    c ≠ '_' ∧ isBlank c = false ∧ c.toLower ∈ lowercaseDigits ∧
      digit? c.toLower = hexDigit? c :=
  forall_mem_of_all (by decide)

/-- The characters of digits in small letters. -/
abbrev Spelled (base : Base) : List Char → List Nat → Prop :=
  List.Forall₂ fun c digit => c ∈ lowercaseDigits ∧ digit? c = some digit ∧ digit < base.radix

/-- The characters of a number without its underscores, in small letters. -/
def lowered (text : List Char) : List Char :=
  (text.filter (· ≠ '_')).map Char.toLower

theorem Numeral.spelled {base : Base} {body : List Char} {digits : List Nat}
    (numeral : Numeral base body digits) : Spelled base (lowered body) digits := by
  induction numeral with
  | nil => exact .nil
  | @digit c digit rest digits value small _ inductionHypothesis =>
      obtain ⟨notUnderscore, _, listed, same⟩ := toLower_hexDigits c (mem_hexDigits value)
      rw [lowered, List.filter_cons_of_pos (by simpa using notUnderscore), List.map_cons]
      exact .cons ⟨listed, same.trans value, small⟩ inductionHypothesis
  | underscore _ inductionHypothesis =>
      rwa [lowered, List.filter_cons_of_neg (by simp)]

theorem Numeral.visible {base : Base} {body : List Char} {digits : List Nat}
    (numeral : Numeral base body digits) : ∀ c ∈ body, isBlank c = false := by
  induction numeral with
  | nil => nofun
  | digit value _ _ inductionHypothesis =>
      exact List.forall_mem_cons.mpr
        ⟨(toLower_hexDigits _ (mem_hexDigits value)).2.1, inductionHypothesis⟩
  | underscore _ inductionHypothesis =>
      exact List.forall_mem_cons.mpr ⟨by decide, inductionHypothesis⟩

section Spelled

variable {base : Base} {text : List Char} {digits : List Nat}

theorem Spelled.listed (spelled : Spelled base text digits) : ∀ c ∈ text, c ∈ lowercaseDigits := by
  induction spelled with
  | nil => nofun
  | cons here _ inductionHypothesis => exact List.forall_mem_cons.mpr ⟨here.1, inductionHypothesis⟩

/-- Digits are read one by one: what has been read is worth as many places more as digits follow. -/
theorem Spelled.digitsValue? (spelled : Spelled base text digits) (value : Nat) :
    digitsValue? base.radix value text =
      some (Nat.ofDigits base.radix (digits.reverse ++ [value])) := by
  induction spelled generalizing value with
  | nil => simp [Literal.digitsValue?]
  | @cons c digit text digits here behind inductionHypothesis =>
      obtain ⟨_, read, small⟩ := here
      simp only [Literal.digitsValue?, read, if_pos small, inductionHypothesis, Option.some.injEq,
        List.reverse_cons, List.append_assoc, List.singleton_append, Nat.ofDigits_append,
        Nat.ofDigits_cons, Nat.ofDigits_nil]
      ring

theorem Spelled.natural? (spelled : Spelled base text digits) (some_ : digits ≠ [])
    (short : base = .decimal → digits.length ≤ maxDecimalDigits) :
    natural? base text = some (Nat.ofDigits base.radix digits.reverse) := by
  have nonempty : text ≠ [] := by
    rintro rfl
    cases spelled
    exact some_ rfl
  have few : ¬ (base = .decimal ∧ text.length > maxDecimalDigits) := by
    rintro ⟨decimal, long⟩
    have within := short decimal
    rw [← spelled.length_eq] at within
    omega
  rw [Literal.natural?, if_neg (by simpa using nonempty), if_neg few, spelled.digitsValue? 0,
    Nat.ofDigits_append]
  simp

/-- The second character of a number is no base mark: it is a smaller digit, or no digit at all. -/
theorem Spelled.dropBaseMark (spelled : Spelled base text digits) : dropBaseMark base text = text := by
  cases spelled with
  | nil => rfl
  | @cons c _ rest _ _ behind =>
      cases behind with
      | nil => cases base <;> simp [Literal.dropBaseMark]
      | @cons mark digit rest' _ here _ =>
          obtain ⟨listed, read, small⟩ := here
          have other : ∀ letter, base.letter? = some letter → mark.toLower ≠ letter := by
            have all : ∀ mark ∈ lowercaseDigits,
                mark.toLower = mark ∧ mark ≠ 'x' ∧ mark ≠ 'o' ∧
                  (mark = 'b' → digit? mark = some 11) := forall_mem_of_all (by decide)
            obtain ⟨same, notX, notO, isB⟩ := all mark listed
            intro letter announces
            rw [same]
            cases base with
            | binary =>
                rintro rfl
                obtain rfl := Option.some.inj announces
                rw [isB rfl] at read
                obtain rfl := Option.some.inj read
                exact absurd small (by decide)
            | octal => exact Option.some.inj announces ▸ notO
            | decimal => cases announces
            | hexadecimal => exact Option.some.inj announces ▸ notX
          rw [Literal.dropBaseMark.eq_def]
          split
          · rename_i split announces
            have same := (List.cons.inj (List.cons.inj split).2).1
            rw [if_neg (same ▸ other _ announces)]
          · rfl

/-- Nothing stands around the digits. -/
theorem Spelled.number? (spelled : Spelled base text digits) (some_ : digits ≠ [])
    (short : base = .decimal → digits.length ≤ maxDecimalDigits) :
    number? base text = some ((Nat.ofDigits base.radix digits.reverse : Nat) : Int) := by
  have plain : ∀ c ∈ lowercaseDigits, isNumberBlank c = false ∧ c ≠ '-' ∧ c ≠ '+' :=
    forall_mem_of_all (by decide)
  have kept {text : List Char} (listed : ∀ c ∈ text, c ∈ lowercaseDigits) :
      text.dropWhile isNumberBlank = text := by
    cases text with
    | nil => rfl
    | cons c rest =>
        rw [List.dropWhile_cons_of_neg]
        simp [(plain c (listed c List.mem_cons_self)).1]
  have listed := spelled.listed
  have backwards : ∀ c ∈ text.reverse, c ∈ lowercaseDigits := fun c member =>
    listed c (List.mem_reverse.mp member)
  have read := spelled.natural? some_ short
  rw [Literal.number?, kept listed, kept backwards, List.reverse_reverse]
  split
  · exact absurd rfl (plain '-' (listed '-' List.mem_cons_self)).2.1
  · exact absurd rfl (plain '+' (listed '+' List.mem_cons_self)).2.2
  · rw [spelled.dropBaseMark, read]
    rfl

end Spelled

/-! ## Type names and base marks -/

theorem integerTypes_listed : ∀ type ∈ integerTypes, type ∈ integerSuffixes := by
  decide

theorem integerSuffixes_alone : ∀ type ∈ integerSuffixes, ∀ other ∈ integerSuffixes,
    type <:+ other → type = other := by
  decide

/-- Every type name has a letter that is no digit of any base. -/
theorem integerSuffixes_not_digits : ∀ type ∈ integerSuffixes,
    type.all (· ∈ lowercaseDigits) = false := by
  decide

theorem visible_integerTypes : ∀ type ∈ integerTypes,
    type ≠ [] ∧ type.getLast? ≠ some '\n' ∧ lowered type = type ∧ type.any isBlank = false := by
  decide

theorem dropSuffix_of_getLast? {text : List Char} (last : text.getLast? ≠ some '\n') :
    dropSuffix text =
      (integerSuffixes.findSome? fun suffix => suffix.isSuffixOf? text).getD text := by
  rcases List.eq_nil_or_concat text with rfl | ⟨front, c, rfl⟩
  · rfl
  · have other : c ≠ '\n' := by simpa using last
    simp only [dropSuffix, List.concat_eq_append, List.reverse_append, List.reverse_singleton,
      List.singleton_append]
    cases found : integerSuffixes.findSome? fun suffix => suffix.isSuffixOf? (front ++ [c]) with
    | none => simp [other, found]
    | some rest => rfl

theorem dropSuffix_digits {text suffix : List Char} (digits : ∀ c ∈ text, c ∈ lowercaseDigits)
    (type : suffix = [] ∨ suffix ∈ integerTypes) : dropSuffix (text ++ suffix) = text := by
  rcases type with rfl | listed
  · have last : text.getLast? ≠ some '\n' := fun last =>
      absurd (digits _ (List.mem_of_getLast? last)) (by decide)
    have none : integerSuffixes.findSome? (fun suffix => suffix.isSuffixOf? text) = none := by
      refine List.findSome?_eq_none_iff.mpr fun suffix listed => ?_
      by_contra ending
      obtain ⟨front, ends⟩ := Option.ne_none_iff_exists'.mp ending
      have whole := List.isSuffixOf?_eq_some_iff_append_eq.mp ends
      have all : suffix.all (· ∈ lowercaseDigits) = true := by
        refine List.all_eq_true.mpr fun c member => decide_eq_true (digits c ?_)
        rw [← whole]
        exact List.mem_append_right _ member
      rw [integerSuffixes_not_digits suffix listed] at all
      cases all
    rw [List.append_nil, dropSuffix_of_getLast? last, none, Option.getD_none]
  · obtain ⟨nonempty, last, _⟩ := visible_integerTypes suffix listed
    have ended : (text ++ suffix).getLast? ≠ some '\n' := by
      rwa [List.getLast?_append_of_ne_nil _ nonempty]
    rw [dropSuffix_of_getLast? ended,
      findSome?_isSuffixOf? integerSuffixes_alone (integerTypes_listed _ listed), Option.getD_some]

/-- Without a mark behind its first digit a literal is decimal. -/
theorem splitBase_of_second {c : Char} {rest : List Char}
    (second : ∀ mark, rest.head? = some mark → mark ∉ ['x', 'o', 'b']) :
    splitBase (c :: rest) = (.decimal, c :: rest) := by
  rw [splitBase.eq_def]
  split
  · rename_i split
    exact absurd (by decide) (second 'x' (by rw [(List.cons.inj split).2]; rfl))
  · rename_i split
    exact absurd (by decide) (second 'o' (by rw [(List.cons.inj split).2]; rfl))
  · rename_i split
    exact absurd (by decide) (second 'b' (by rw [(List.cons.inj split).2]; rfl))
  · rfl

/-- A literal without underscores and in small letters falls into its mark and the rest. -/
theorem splitBase_mark {base : Base} {text suffix : List Char} {digits : List Nat}
    (spelled : Spelled base text digits) (some_ : digits ≠ [])
    (type : suffix = [] ∨ suffix ∈ integerTypes) :
    splitBase (base.mark ++ text ++ suffix) = (base, text ++ suffix) := by
  cases base with
  | binary => rfl
  | octal => rfl
  | hexadecimal => rfl
  | decimal =>
      cases spelled with
      | nil => exact absurd rfl some_
      | @cons c digit rest digits _ behind =>
          refine splitBase_of_second fun mark here => ?_
          cases behind with
          | nil =>
              rcases type with rfl | listed
              · cases here
              · have all : ∀ type ∈ integerTypes, type.head? ∈ [some 'u', some 'i'] := by decide
                have first := all suffix listed
                rw [show suffix.head? = some mark from here] at first
                intro letter
                have none : ∀ mark ∈ ['x', 'o', 'b'], some mark ∉ [some 'u', some 'i'] :=
                  forall_mem_of_all (by decide)
                exact none mark letter first
          | @cons second value rest' digits' small _ =>
              obtain rfl := Option.some.inj here
              obtain ⟨listed, read, within⟩ := small
              have all : ∀ c ∈ lowercaseDigits, c ∈ ['x', 'o', 'b'] → digit? c = some 11 :=
                forall_mem_of_all (by decide)
              intro letter
              rw [all second listed letter] at read
              obtain rfl := Option.some.inj read
              exact absurd within (by decide)

/-! ## Reading -/

theorem lowered_append (first second : List Char) :
    lowered (first ++ second) = lowered first ++ lowered second := by
  rw [lowered, List.filter_append, List.map_append]
  rfl

theorem visible_mark (base : Base) : ∀ c ∈ base.mark, isBlank c = false := by
  cases base <;> exact forall_mem_of_all (by decide)

theorem lowered_mark (base : Base) : lowered base.mark = base.mark := by
  cases base <;> decide

/-- A literal without underscores and in small letters starts with a digit. -/
theorem exists_digit_mark {base : Base} {text : List Char} {digits : List Nat}
    (spelled : Spelled base text digits) (some_ : digits ≠ []) (suffix : List Char) :
    ∃ c rest, base.mark ++ text ++ suffix = c :: rest ∧ c ∈ lowercaseDigits := by
  cases spelled with
  | nil => exact absurd rfl some_
  | @cons c _ rest _ here _ =>
      cases base with
      | binary => exact ⟨_, _, rfl, by decide⟩
      | octal => exact ⟨_, _, rfl, by decide⟩
      | decimal => exact ⟨_, _, rfl, here.1⟩
      | hexadecimal => exact ⟨_, _, rfl, by decide⟩

theorem visible_suffix {suffix : List Char} (type : suffix = [] ∨ suffix ∈ integerTypes) :
    lowered suffix = suffix ∧ ∀ c ∈ suffix, isBlank c = false := by
  rcases type with rfl | listed
  · exact ⟨rfl, nofun⟩
  · obtain ⟨_, _, small, visible⟩ := visible_integerTypes suffix listed
    exact ⟨small, by simpa using visible⟩

/-- The reader finds the number that a literal denotes, whatever blanks stand around it. -/
theorem integer?_of_integerLiteral {text front back : List Char} {value : Nat}
    (literal : IntegerLiteral text value) (frontBlank : Blank front) (backBlank : Blank back) :
    integer? (.ofList (front ++ text ++ back)) = some (value : Int) := by
  obtain ⟨numeral, some_, first, short, type⟩ := literal
  rename_i base body suffix digits
  obtain ⟨small, visible⟩ := visible_suffix type
  have spelled := numeral.spelled
  have shown : ∀ c ∈ base.mark ++ body ++ suffix, isBlank c = false := by
    intro c member
    rcases List.mem_append.mp member with member | member
    · rcases List.mem_append.mp member with member | member
      · exact visible_mark base c member
      · exact numeral.visible c member
    · exact visible c member
  have trimmed : trim (front ++ (base.mark ++ body ++ suffix) ++ back) =
      base.mark ++ body ++ suffix :=
    trim_append frontBlank backBlank (fun c head => shown c (List.mem_of_mem_head? head))
      fun c last => shown c (List.mem_of_getLast? last)
  have literal : ((base.mark ++ body ++ suffix).filter (· ≠ '_')).map Char.toLower =
      base.mark ++ lowered body ++ suffix := by
    rw [← lowered, lowered_append, lowered_append, lowered_mark, small]
  obtain ⟨c, rest, started, digit⟩ := exists_digit_mark spelled some_ suffix
  rw [integer?, String.toList_ofList, integerChars?, trimmed, literal]
  split
  · rename_i none
    rw [none] at started
    cases started
  · rename_i minus
    rw [minus] at started
    obtain rfl := (List.cons.inj started).1
    exact absurd digit (by decide)
  · rw [splitBase_mark spelled some_ type]
    dsimp only
    rw [dropSuffix_digits spelled.listed type, spelled.number? some_ short]

/-- The text `0x_Ff_u8`. -/
def hexadecimalText : List Char :=
  ['0', 'x', '_', 'F', 'f', '_', 'u', '8']

theorem integerLiteral_hexadecimalText : IntegerLiteral hexadecimalText 255 := by
  have numeral : Numeral .hexadecimal ['_', 'F', 'f', '_'] [15, 15] :=
    .underscore (.digit rfl (by decide) (.digit rfl (by decide) (.underscore .nil)))
  exact @IntegerLiteral.intro .hexadecimal _ ['u', '8'] _ numeral nofun nofun nofun
    (.inr (by decide))

theorem integer?_of_integerLiteral_hexadecimalText :
    IntegerLiteral hexadecimalText 255 ∧ Blank [' '] ∧ Blank ['\n'] ∧
      integer? (.ofList ([' '] ++ hexadecimalText ++ ['\n'])) = some 255 := by
  have space : Blank [' '] := forall_mem_of_all (by decide)
  have lineBreak : Blank ['\n'] := forall_mem_of_all (by decide)
  exact ⟨integerLiteral_hexadecimalText, space, lineBreak,
    integer?_of_integerLiteral integerLiteral_hexadecimalText space lineBreak⟩

end ProgramIdl.Literal
