import Mathlib.Data.Nat.Digits.Lemmas
import ProgramIdl.Address
import ProgramIdl.Proofs.Pass
import ProgramIdl.Proofs.Text.Trim

/-!
# Writing bytes in base fifty-eight

Bytes are written as one big-endian number, with a `1` for each zero byte in front of it.  Reading them
back gives the bytes (`decode_encode`), and every text that is read without blanks behind it is the
writing of its bytes (`encode_of_decode`).
-/

set_option autoImplicit false

namespace ProgramIdl.Address

open ProgramIdl.Text

/-- The character of a digit. -/
def digitChar (digit : Nat) : Char :=
  alphabet.getD digit '1'

/-- The big-endian number of some bytes. -/
def valueOf (bytes : List UInt8) : Nat :=
  Nat.ofDigits 256 (bytes.map UInt8.toNat).reverse

/-- The text that writes some bytes. -/
def encode (bytes : List UInt8) : String :=
  .ofList (List.replicate (bytes.takeWhile (· = 0)).length '1' ++
    ((Nat.digits 58 (valueOf bytes)).map digitChar).reverse)

/-! ## Leading zeros -/

section Leading

variable {α : Type} [DecidableEq α] {zero : α} {rest : List α}

theorem takeWhile_replicate_append (leading : rest.head? ≠ some zero) (count : Nat) :
    (List.replicate count zero ++ rest).takeWhile (· = zero) = List.replicate count zero := by
  induction count with
  | zero =>
      cases rest with
      | nil => rfl
      | cons first more => exact List.takeWhile_cons_of_neg (by simpa using leading)
  | succ count inductionHypothesis =>
      rw [List.replicate_succ, List.cons_append, List.takeWhile_cons_of_pos (by simp),
        inductionHypothesis]

/-- A list is zeros in front of a list that starts with no zero. -/
theorem exists_replicate_append (zero : α) (list : List α) : ∃ count rest,
    list = List.replicate count zero ++ rest ∧ rest.head? ≠ some zero := by
  induction list with
  | nil => exact ⟨0, [], rfl, nofun⟩
  | cons first list inductionHypothesis =>
      by_cases same : first = zero
      · obtain ⟨count, rest, rfl, leading⟩ := inductionHypothesis
        exact ⟨count + 1, rest, by rw [List.replicate_succ, same]; rfl, leading⟩
      · exact ⟨0, first :: list, rfl, by simpa using same⟩

end Leading

/-- The digits of a number that is written without a zero in front. -/
theorem digits_ofDigits_reverse {base : Nat} (large : 1 < base) {digits : List Nat}
    (small : ∀ digit ∈ digits, digit < base) (leading : digits.head? ≠ some 0) :
    Nat.digits base (Nat.ofDigits base digits.reverse) = digits.reverse := by
  refine Nat.digits_ofDigits base large _ (fun digit listed => small digit (List.mem_reverse.mp listed))
    fun nonempty zero => leading ?_
  rw [List.getLast_reverse] at zero
  rw [← zero]
  exact List.head?_eq_some_head _

theorem head?_digits_reverse (base number : Nat) : (Nat.digits base number).reverse.head? ≠ some 0 := by
  intro leading
  rw [List.head?_reverse] at leading
  have nonempty : Nat.digits base number ≠ [] := by
    intro none
    rw [none] at leading
    cases leading
  have positive : number ≠ 0 := by
    rintro rfl
    exact nonempty (Nat.digits_zero base)
  rw [List.getLast?_eq_some_getLast nonempty] at leading
  exact Nat.getLast_digit_ne_zero base positive (Option.some.inj leading)

/-! ## Digits -/

theorem digit?_digitChar : ∀ digit ∈ List.range 58, digit? (digitChar digit) = some digit ∧
    isBlank (digitChar digit) = false ∧ isAscii (digitChar digit) = true ∧
      (digitChar digit = '1' → digit = 0) :=
  forall_mem_of_all (by decide)

theorem digitChar_of_digit? {c : Char} {digit : Nat} (read : digit? c = some digit) :
    digit < 58 ∧ digitChar digit = c := by
  have listed : c ∈ alphabet := by
    rw [← List.isSome_idxOf?]
    exact Option.isSome_iff_exists.mpr ⟨digit, read⟩
  have all : ∀ c ∈ alphabet, (digit? c).all (fun digit => digit < 58 && digitChar digit = c) = true :=
    forall_mem_of_all (by decide)
  have here := all c listed
  rw [read] at here
  simpa using here

/-- The number that digits write behind what has been read. -/
theorem number_map_digitChar {digits : List Nat} (small : ∀ digit ∈ digits, digit < 58) (before : Nat) :
    number before (digits.map digitChar) = .ok (Nat.ofDigits 58 (digits.reverse ++ [before])) := by
  induction digits generalizing before with
  | nil => simp [number]
  | cons digit digits inductionHypothesis =>
      obtain ⟨here, later⟩ := List.forall_mem_cons.mp small
      rw [List.map_cons, number, (digit?_digitChar digit (List.mem_range.mpr here)).1]
      simp only
      rw [inductionHypothesis later]
      congr 1
      simp only [List.reverse_cons, List.append_assoc, List.singleton_append, Nat.ofDigits_append,
        Nat.ofDigits_cons, Nat.ofDigits_nil]
      push_cast
      ring

/-- What is read as a number are the characters of its digits. -/
theorem exists_digits_of_number {text : List Char} {before value : Nat}
    (read : number before text = .ok value) :
    ∃ digits : List Nat, (∀ digit ∈ digits, digit < 58) ∧ text = digits.map digitChar ∧
      value = Nat.ofDigits 58 (digits.reverse ++ [before]) := by
  have spelled : ∃ digits : List Nat, (∀ digit ∈ digits, digit < 58) ∧ text = digits.map digitChar := by
    induction text generalizing before with
    | nil => exact ⟨[], nofun, rfl⟩
    | cons c text inductionHypothesis =>
        rw [number] at read
        split at read
        · rename_i digit found
          obtain ⟨digits, small, rfl⟩ := inductionHypothesis read
          obtain ⟨here, rfl⟩ := digitChar_of_digit? found
          exact ⟨digit :: digits, List.forall_mem_cons.mpr ⟨here, small⟩, rfl⟩
        · cases read
  obtain ⟨digits, small, rfl⟩ := spelled
  refine ⟨digits, small, rfl, ?_⟩
  rw [number_map_digitChar small] at read
  exact (Except.ok.inj read).symm

/-! ## Bytes -/

theorem littleEndian_eq {count number : Nat} (fits : number < 256 ^ count) :
    littleEndian count number = (Nat.digits 256 number).map UInt8.ofNat := by
  induction count generalizing number with
  | zero =>
      obtain rfl : number = 0 := by simpa using fits
      simp [littleEndian]
  | succ count inductionHypothesis =>
      rw [littleEndian]
      split
      · rename_i zero
        simp [zero]
      · rename_i positive
        rw [Nat.digits_def' (by decide) (Nat.pos_of_ne_zero positive), List.map_cons,
          inductionHypothesis (Nat.div_lt_of_lt_mul (by rwa [pow_succ'] at fits))]

/-- The bytes of a number are its digits in base two hundred and fifty-six. -/
theorem bigEndian_eq (number : Nat) :
    bigEndian number = ((Nat.digits 256 number).map UInt8.ofNat).reverse := by
  rw [bigEndian, littleEndian_eq]
  calc number < 2 ^ (number.log2 + 1) := Nat.lt_log2_self
    _ ≤ 2 ^ (8 * (number.log2 / 8 + 1)) := Nat.pow_le_pow_right (by decide) (by omega)
    _ = 256 ^ (number.log2 / 8 + 1) := by rw [pow_mul]; rfl

theorem map_ofNat_toNat (bytes : List UInt8) : (bytes.map UInt8.toNat).map UInt8.ofNat = bytes := by
  rw [List.map_map]
  conv_rhs => rw [← List.map_id bytes]
  exact List.map_congr_left fun byte _ => UInt8.ofNat_toNat

/-- Bytes without a zero in front are those of their number. -/
theorem bigEndian_valueOf {bytes : List UInt8} (leading : bytes.head? ≠ some 0) :
    bigEndian (valueOf bytes) = bytes := by
  have small : ∀ digit ∈ bytes.map UInt8.toNat, digit < 256 := by
    intro digit listed
    obtain ⟨byte, _, rfl⟩ := List.mem_map.mp listed
    exact byte.toNat_lt
  have head : (bytes.map UInt8.toNat).head? ≠ some 0 := by
    rw [List.head?_map]
    intro zero
    obtain ⟨byte, first, none⟩ := Option.map_eq_some_iff.mp zero
    exact leading (by rw [first, ← UInt8.ofNat_toNat (x := byte), none]; rfl)
  rw [bigEndian_eq, valueOf, digits_ofDigits_reverse (by decide) small head, List.map_reverse,
    List.reverse_reverse, map_ofNat_toNat]

theorem head?_bigEndian (number : Nat) : (bigEndian number).head? ≠ some 0 := by
  rw [bigEndian_eq, ← List.map_reverse, List.head?_map]
  intro zero
  obtain ⟨digit, first, none⟩ := Option.map_eq_some_iff.mp zero
  have small : digit < 256 := Nat.digits_lt_base (by decide)
    (List.mem_reverse.mp (List.mem_of_head? first))
  have same := congrArg UInt8.toNat none
  rw [UInt8.toNat_ofNat', Nat.mod_eq_of_lt small] at same
  exact head?_digits_reverse 256 number (by rw [first, same]; rfl)

theorem valueOf_bigEndian (number : Nat) : valueOf (bigEndian number) = number := by
  have same : ((Nat.digits 256 number).map UInt8.ofNat).map UInt8.toNat = Nat.digits 256 number := by
    rw [List.map_map]
    conv_rhs => rw [← List.map_id (Nat.digits 256 number)]
    refine List.map_congr_left fun digit listed => ?_
    have small : digit < 256 := Nat.digits_lt_base (by decide) listed
    simp [UInt8.toNat_ofNat', Nat.mod_eq_of_lt small]
  rw [valueOf, bigEndian_eq, List.map_reverse, List.reverse_reverse, same, Nat.ofDigits_digits]

/-- Zero bytes in front do not change the number. -/
theorem valueOf_replicate_append (count : Nat) (bytes : List UInt8) :
    valueOf (List.replicate count 0 ++ bytes) = valueOf bytes := by
  rw [valueOf, List.map_append, List.map_replicate, List.reverse_append, List.reverse_replicate,
    UInt8.toNat_zero, Nat.ofDigits_append_replicate_zero, valueOf]

/-! ## There and back -/

theorem checkAscii_eq_ok {text : List Char} (ascii : ∀ c ∈ text, isAscii c = true) :
    checkAscii text = .ok () := by
  rw [checkAscii, List.dropWhile_eq_nil_iff.mpr ascii]

/-- The characters that write a number behind some zero bytes. -/
def spelling (zeros : Nat) (digits : List Nat) : List Char :=
  List.replicate zeros '1' ++ digits.map digitChar

section Spelling

variable {zeros : Nat} {digits : List Nat} (small : ∀ digit ∈ digits, digit < 58)

include small

theorem visible_of_mem_spelling {c : Char} (listed : c ∈ spelling zeros digits) :
    isBlank c = false ∧ isAscii c = true := by
  rcases List.mem_append.mp listed with leading | later
  · rw [List.eq_of_mem_replicate leading]
    decide
  · obtain ⟨digit, written, rfl⟩ := List.mem_map.mp later
    obtain ⟨_, visible, ascii, _⟩ := digit?_digitChar digit (List.mem_range.mpr (small digit written))
    exact ⟨visible, ascii⟩

theorem head?_map_digitChar (leading : digits.head? ≠ some 0) :
    (digits.map digitChar).head? ≠ some '1' := by
  intro one
  rw [List.head?_map] at one
  obtain ⟨digit, first, same⟩ := Option.map_eq_some_iff.mp one
  have listed := List.mem_of_head? first
  obtain ⟨_, _, _, zero⟩ := digit?_digitChar digit (List.mem_range.mpr (small digit listed))
  exact leading (by rw [first, zero same])

/-- Digits without a zero in front are read as their number. -/
theorem decode_spelling (leading : digits.head? ≠ some 0) {text : String}
    (written : trimEnd text.toList = spelling zeros digits) :
    decode text = .ok (List.replicate zeros 0 ++ bigEndian (Nat.ofDigits 58 digits.reverse)) := by
  have ascii : checkAscii (spelling zeros digits) = .ok () :=
    checkAscii_eq_ok fun c listed => (visible_of_mem_spelling small listed).2
  have ones : (spelling zeros digits).takeWhile (· = '1') = List.replicate zeros '1' :=
    takeWhile_replicate_append (head?_map_digitChar small leading) zeros
  have rest : (spelling zeros digits).drop zeros = digits.map digitChar := by
    rw [spelling, List.drop_left' List.length_replicate]
  rw [decode, written]
  simp only [ascii, ones, List.length_replicate, rest, number_map_digitChar small, bind, Except.bind,
    pure, Except.pure]
  rw [Nat.ofDigits_append, Nat.ofDigits_singleton, Nat.mul_zero, Nat.add_zero]

end Spelling

/-- Zero bytes in front of a number without them are written as ones in front of its digits. -/
theorem encode_replicate_append (zeros number : Nat) :
    encode (List.replicate zeros 0 ++ bigEndian number) =
      .ofList (spelling zeros (Nat.digits 58 number).reverse) := by
  rw [encode, takeWhile_replicate_append (head?_bigEndian number), List.length_replicate,
    valueOf_replicate_append, valueOf_bigEndian, spelling, List.map_reverse]

/-- Reading the writing of some bytes gives the bytes. -/
theorem decode_encode (bytes : List UInt8) : decode (encode bytes) = .ok bytes := by
  obtain ⟨zeros, rest, rfl, leading⟩ := exists_replicate_append 0 bytes
  have small : ∀ digit ∈ (Nat.digits 58 (valueOf rest)).reverse, digit < 58 := fun digit listed =>
    Nat.digits_lt_base (by decide) (List.mem_reverse.mp listed)
  have written : encode (List.replicate zeros 0 ++ rest) =
      .ofList (spelling zeros (Nat.digits 58 (valueOf rest)).reverse) := by
    conv_lhs => rw [← bigEndian_valueOf leading]
    exact encode_replicate_append zeros (valueOf rest)
  rw [written, decode_spelling small (head?_digits_reverse 58 (valueOf rest)),
    List.reverse_reverse, Nat.ofDigits_digits, bigEndian_valueOf leading]
  rw [String.toList_ofList]
  exact trimEnd_of_getLast? fun c last =>
    (visible_of_mem_spelling small (List.mem_of_getLast? last)).1

/-- A text is the writing of the bytes that it is read as, up to blanks behind it. -/
theorem encode_of_decode {text : String} {bytes : List UInt8} (read : decode text = .ok bytes) :
    encode bytes = .ofList (trimEnd text.toList) := by
  obtain ⟨zeros, rest, whole, leading⟩ := exists_replicate_append '1' (trimEnd text.toList)
  have ones : (trimEnd text.toList).takeWhile (· = '1') = List.replicate zeros '1' := by
    rw [whole, takeWhile_replicate_append leading]
  have left : (trimEnd text.toList).drop zeros = rest := by
    rw [whole, List.drop_left' List.length_replicate]
  have numbered : ∃ value, number 0 rest = .ok value := by
    have read := read
    rw [decode] at read
    simp only [ones, List.length_replicate, left, bind_eq_ok_iff] at read
    obtain ⟨_, _, value, numbered, _⟩ := read
    exact ⟨value, numbered⟩
  obtain ⟨value, numbered⟩ := numbered
  obtain ⟨digits, small, rfl, _⟩ := exists_digits_of_number numbered
  have first : digits.head? ≠ some 0 := by
    intro zero
    refine leading ?_
    rw [List.head?_map, zero]
    rfl
  rw [decode_spelling small first whole] at read
  rw [← Except.ok.inj read, encode_replicate_append, digits_ofDigits_reverse (by decide) small first,
    List.reverse_reverse, whole, spelling]

theorem encode_injective : Function.Injective encode := by
  intro bytes others same
  have decoded := decode_encode bytes
  rw [same, decode_encode] at decoded
  exact (Except.ok.inj decoded).symm

end ProgramIdl.Address
