import Mathlib.Data.List.Basic
import ProgramIdl.Json.Read
import ProgramIdl.Json.Render

/-!
# Reading scalars that have been written

A text is read back from between its quotes (`textRest_escaped`), and a whole number from its digits
(`number?_toDigits`), whatever stands behind them that is no part of a number.
-/

set_option autoImplicit false

namespace ProgramIdl.Json

open ProgramIdl.Text

/-! ## Texts -/

theorem hexUnit?_hexDigits {value : Nat} (control : value < 0x20) (rest : List Char) :
    hexUnit? (hexDigits 4 value ++ rest) = some (value, rest) := by
  have all : ∀ value < 0x20, (hexDigits 4 value).length = 4 ∧
      hexUnit? (hexDigits 4 value) = some (value, []) := by decide
  obtain ⟨four, read⟩ := all value control
  match digits : hexDigits 4 value, four with
  | [a, b, c, d], _ =>
      rw [digits] at read
      simp only [hexUnit?, Option.bind_eq_bind, Option.bind_eq_some_iff, Option.some.injEq,
        Prod.mk.injEq] at read
      obtain ⟨first, readFirst, second, readSecond, third, readThird, fourth, readFourth, rfl, _⟩ :=
        read
      simp [hexUnit?, readFirst, readSecond, readThird, readFourth]

theorem unitChar_of_control {c : Char} (control : c.toNat < 0x20) (rest : List Char) :
    unitChar c.toNat rest = (c, rest) := by
  have low : ¬ (0xD800 ≤ c.toNat ∧ c.toNat ≤ 0xDBFF) := by omega
  have high : ¬ (0xDC00 ≤ c.toNat ∧ c.toNat ≤ 0xDFFF) := by omega
  rw [unitChar, if_neg low, if_neg high, Char.ofNat_toNat]

/-- A character is read back from the way it stands between quotes. -/
theorem textChar?_escapedChar (c : Char) (rest : List Char) :
    textChar? (escapedChar c ++ rest) = some (c, rest) := by
  unfold escapedChar
  by_cases quote : c = '"'
  · rw [if_pos quote, quote]
    rfl
  rw [if_neg quote]
  by_cases backslash : c = '\\'
  · rw [if_pos backslash, backslash]
    rfl
  rw [if_neg backslash]
  by_cases newline : c = '\n'
  · rw [if_pos newline, newline]
    rfl
  rw [if_neg newline]
  by_cases carriage : c = '\x0d'
  · rw [if_pos carriage, carriage]
    rfl
  rw [if_neg carriage]
  by_cases tab : c = '\t'
  · rw [if_pos tab, tab]
    rfl
  rw [if_neg tab]
  by_cases backspace : c = '\x08'
  · rw [if_pos backspace, backspace]
    rfl
  rw [if_neg backspace]
  by_cases feed : c = '\x0c'
  · rw [if_pos feed, feed]
    rfl
  rw [if_neg feed]
  by_cases control : c.toNat < 0x20
  · rw [if_pos control, List.cons_append, List.cons_append, textChar?, hexUnit?_hexDigits control,
      Option.map_some]
    exact congrArg some (unitChar_of_control control rest)
  · rw [if_neg control, List.singleton_append, textChar?.eq_def]
    simp [backslash, control]

theorem escapedChar_ne_nil (c : Char) : escapedChar c ≠ [] := by
  unfold escapedChar
  repeat' split
  all_goals simp

theorem head?_escapedChar (c : Char) : (escapedChar c).head? ≠ some '"' := by
  unfold escapedChar
  repeat' split
  all_goals simp_all

theorem textBody_visible {first : Char} (visible : first ≠ '"') (limit : Nat) (more : List Char) :
    textBody (limit + 1) (first :: more) =
      (textChar? (first :: more)).bind fun (c, rest) =>
        (textBody limit rest).map fun (body, rest) => (c :: body, rest) := by
  rw [textBody]
  · cases textChar? (first :: more) <;> rfl
  · rintro rest same
    exact visible (List.cons.inj same).1

theorem textBody_escaped {text : List Char} {limit : Nat} (enough : text.length < limit)
    (rest : List Char) :
    textBody limit (text.flatMap escapedChar ++ '"' :: rest) = some (text, rest) := by
  induction text generalizing limit with
  | nil =>
      cases limit with
      | zero => cases enough
      | succ limit => rfl
  | cons c text inductionHypothesis =>
      cases limit with
      | zero => cases enough
      | succ limit =>
          rw [List.length_cons] at enough
          have later := inductionHypothesis (show text.length < limit by omega)
          have read := textChar?_escapedChar c (text.flatMap escapedChar ++ '"' :: rest)
          obtain ⟨first, more, split⟩ := List.exists_cons_of_ne_nil (escapedChar_ne_nil c)
          have visible : first ≠ '"' := by
            have head := head?_escapedChar c
            rw [split] at head
            simpa using head
          rw [List.flatMap_cons, List.append_assoc]
          rw [split, List.cons_append] at read ⊢
          rw [textBody_visible visible, read, Option.bind_some]
          dsimp only
          rw [later]
          rfl

theorem length_le_escaped (text : List Char) : text.length ≤ (text.flatMap escapedChar).length := by
  induction text with
  | nil => exact Nat.le_refl 0
  | cons c text inductionHypothesis =>
      have nonempty := List.length_pos_of_ne_nil (escapedChar_ne_nil c)
      rw [List.flatMap_cons, List.length_append, List.length_cons]
      omega

/-- A text is read back from between its quotes. -/
theorem textRest_escaped (text : String) (rest : List Char) :
    textRest (text.toList.flatMap escapedChar ++ '"' :: rest) = some (text, rest) := by
  have short := length_le_escaped text.toList
  have enough : text.toList.length <
      (text.toList.flatMap escapedChar ++ '"' :: rest).length + 1 := by
    rw [List.length_append]
    omega
  rw [textRest, textBody_escaped enough]
  simp

/-! ## Whole numbers -/

/-- What may stand behind a number: no character that goes on with it. -/
def Stops (rest : List Char) : Prop :=
  ∀ c, rest.head? = some c → c.isDigit = false ∧ c ∉ ['.', 'e', 'E']

theorem digits_append {digits rest : List Char} (all : ∀ c ∈ digits, c.isDigit = true)
    (stops : Stops rest) : Json.digits (digits ++ rest) = (digits, rest) := by
  rw [Json.digits, List.takeWhile_append_of_pos all, List.dropWhile_append_of_pos all]
  cases rest with
  | nil => simp
  | cons c rest =>
      have other := (stops c rfl).1
      rw [List.takeWhile_cons_of_neg (by simp [other]), List.dropWhile_cons_of_neg (by simp [other]),
        List.append_nil]

/-- No number but zero is written with a zero in front. -/
theorem eq_zero_of_head? {value : Nat} (head : (Nat.toDigits 10 value).head? = some '0') :
    value = 0 := by
  induction value using Nat.strongRecOn with
  | ind value inductionHypothesis =>
      by_cases small : value < 10
      · have all : ∀ value < 10, (Nat.toDigits 10 value).head? = some '0' → value = 0 := by decide
        exact all value small head
      · have nonempty : Nat.toDigits 10 (value / 10) ≠ [] := Nat.toDigits_ne_nil
        rw [Nat.toDigits_of_base_le (by decide) (by omega),
          List.head?_append_of_ne_nil _ nonempty] at head
        have zero := inductionHypothesis (value / 10) (by omega) head
        omega

theorem wholePart?_toDigits (value : Nat) {rest : List Char} (stops : Stops rest) :
    wholePart? (Nat.toDigits 10 value ++ rest) = some (Nat.toDigits 10 value, rest) := by
  have all : ∀ c ∈ Nat.toDigits 10 value, c.isDigit = true := fun c =>
    Nat.isDigit_of_mem_toDigits (by decide) (by decide)
  have nonempty : Nat.toDigits 10 value ≠ [] := Nat.toDigits_ne_nil
  have read := digits_append all stops
  by_cases zero : value = 0
  · rw [zero]
    rfl
  · have other : (Nat.toDigits 10 value).head? ≠ some '0' := fun head =>
      zero (eq_zero_of_head? head)
    cases written : Nat.toDigits 10 value with
    | nil => exact absurd written nonempty
    | cons c more =>
        rw [written] at read other
        have ne : c ≠ '0' := by simpa using other
        rw [List.cons_append] at read ⊢
        rw [wholePart?, read]
        rintro rest same
        exact ne (List.cons.inj same).1

theorem fraction_of_stops {rest : List Char} (stops : Stops rest) : fraction rest = ([], rest) := by
  rw [fraction.eq_def]
  split
  · have other := (stops '.' rfl).2
    simp at other
  · rfl

theorem exponent_of_stops {rest : List Char} (stops : Stops rest) : exponent rest = ([], rest) := by
  cases rest with
  | nil => rfl
  | cons c rest =>
      have other := (stops c rfl).2
      simp only [List.mem_cons, List.not_mem_nil, or_false, not_or] at other
      rw [exponent]
      simp [other]

theorem decimalValue_toDigits (value : Nat) : decimalValue (Nat.toDigits 10 value) = value := by
  have step : (fun value (c : Char) => value * 10 + (c.toNat - '0'.toNat)) =
      fun value (c : Char) => 10 * value + (c.toNat - '0'.toNat) := by
    funext value c
    rw [Nat.mul_comm]
  rw [decimalValue, step]
  exact Nat.ofDigitChars_toDigits (by decide) (by decide)

/-- A whole number is read back from its digits. -/
theorem number?_toDigits (negative : Bool) (value : Nat) {rest : List Char} (stops : Stops rest) :
    number? negative (Nat.toDigits 10 value ++ rest) =
      some (.integer (if negative then -value else value), rest) := by
  rw [number?, wholePart?_toDigits value stops]
  simp [fraction_of_stops stops, exponent_of_stops stops, decimalValue_toDigits]

/-! ## Scalars -/

theorem word?_of_first {c : Char} (other : c ∉ ['n', 't', 'f', 'N', 'I', '-']) (rest : List Char) :
    word? (c :: rest) = none := by
  simp only [List.mem_cons, List.not_mem_nil, or_false, not_or] at other
  simp [word?, words, List.isPrefixOf?, Ne.symm other.1, Ne.symm other.2.1, Ne.symm other.2.2.1,
    Ne.symm other.2.2.2.1, Ne.symm other.2.2.2.2.1, Ne.symm other.2.2.2.2.2]

theorem word?_of_minus {c : Char} (other : c ≠ 'I') (rest : List Char) :
    word? ('-' :: c :: rest) = none := by
  simp [word?, words, List.isPrefixOf?, Ne.symm other]

theorem scalar?_text (value : String) (rest : List Char) :
    scalar? (quotedText value ++ rest) = some (.text value, rest) := by
  have split : quotedText value ++ rest =
      '"' :: (value.toList.flatMap escapedChar ++ '"' :: rest) := by simp [quotedText]
  have noWord := word?_of_first (c := '"') (by decide)
    (value.toList.flatMap escapedChar ++ '"' :: rest)
  rw [split, scalar?.eq_def, noWord]
  change (textRest (value.toList.flatMap escapedChar ++ '"' :: rest)).map
    (fun found => (Value.text found.1, found.2)) = _
  rw [textRest_escaped]
  rfl

/-- A digit is neither a quote, nor a sign, nor a letter of a word. -/
theorem ne_of_isDigit {c mark : Char} (digit : c.isDigit = true) (other : mark.isDigit = false) :
    c ≠ mark := by
  rintro rfl
  rw [digit] at other
  cases other

theorem isDigit_of_toDigits {value : Nat} {c : Char} {more : List Char}
    (written : Nat.toDigits 10 value = c :: more) : c.isDigit = true := by
  refine Nat.isDigit_of_mem_toDigits (b := 10) (n := value) (by decide) (by decide) ?_
  rw [written]
  exact List.mem_cons_self

theorem scalar?_integer (value : Int) {rest : List Char} (stops : Stops rest) :
    scalar? (integerText value ++ rest) = some (.integer value, rest) := by
  have nonempty : Nat.toDigits 10 value.natAbs ≠ [] := Nat.toDigits_ne_nil
  obtain ⟨c, more, written⟩ := List.exists_cons_of_ne_nil nonempty
  have digit := isDigit_of_toDigits written
  rw [integerText]
  by_cases negative : value < 0
  · have number := number?_toDigits true value.natAbs stops
    have same : -(value.natAbs : Int) = value := by omega
    have noWord := word?_of_minus (ne_of_isDigit digit (by decide)) (more ++ rest)
    rw [if_pos rfl, same] at number
    rw [if_pos negative, written, List.cons_append, List.cons_append, scalar?.eq_def, noWord]
    rw [written] at number
    exact number
  · have number := number?_toDigits false value.natAbs stops
    have same : (value.natAbs : Int) = value := by omega
    have noWord : word? (c :: (more ++ rest)) = none := by
      refine word?_of_first ?_ (more ++ rest)
      simp only [List.mem_cons, List.not_mem_nil, or_false, not_or]
      exact ⟨ne_of_isDigit digit (by decide), ne_of_isDigit digit (by decide),
        ne_of_isDigit digit (by decide), ne_of_isDigit digit (by decide),
        ne_of_isDigit digit (by decide), ne_of_isDigit digit (by decide)⟩
    rw [if_neg (by decide), same] at number
    rw [if_neg negative, written, List.cons_append, scalar?, noWord]
    · rw [written] at number
      exact number
    · rintro rest same
      exact ne_of_isDigit digit (by decide) (List.cons.inj same).1
    · rintro rest same
      exact ne_of_isDigit digit (by decide) (List.cons.inj same).1

/-! ## What is read -/

@[simp] theorem ok_bind {α β : Type} (found : α) (next : α → Except ReadFault β) :
    (Except.ok found >>= next) = next found :=
  rfl

theorem fieldName_quotedText (name : String) (rest : List Char) :
    fieldName (quotedText name ++ rest) = .ok (name, rest) := by
  have split : quotedText name ++ rest =
      '"' :: (name.toList.flatMap escapedChar ++ '"' :: rest) := by simp [quotedText]
  rw [split, fieldName, textRest_escaped]

/-- A scalar is read unless it is a whole number of too many digits. -/
theorem scalar_eq_ok {text rest : List Char} {value : Value}
    (read : scalar? text = some (value, rest))
    (short : ∀ number, value = .integer number → exceedsLimit number = false) :
    scalar text = .ok (value, rest) := by
  rw [scalar, read]
  cases value with
  | integer number => simp [short number rfl]
  | _ => rfl

end ProgramIdl.Json
