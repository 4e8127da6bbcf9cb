import Mathlib.Tactic.SplitIfs
import ProgramIdl.Text.Utf8

/-!
# UTF-8 and the bytes it is read from

Strict reading loses nothing: encoding the text that has been read gives the bytes back
(`utf8Bytes_of_utf8Decode`).  Overlong forms and surrogates are where this could fail; the bounds
on first and second bytes keep them out.  Both ways of reading give back every text from its bytes.
-/

set_option autoImplicit false

namespace ProgramIdl.Text

/-! ## Bounds -/

theorem toNat_ofNat (value : Nat) (valid : value < 0xD800 ∨ 0xDFFF < value ∧ value < 0x110000) :
    (Char.ofNat value).val.toNat = value := by
  rw [Char.ofNat, dif_pos valid]
  rfl

theorem ofNat_eq (byte : UInt8) {value : Nat} (same : value = byte.toNat) :
    UInt8.ofNat value = byte := by
  rw [same, UInt8.ofNat_toNat]

/-- What a second byte tells about the code point. -/
theorem bounds_of_isSecondByte {first second : UInt8} (fits : isSecondByte first second = true) :
    0x80 ≤ second.toNat ∧ second.toNat ≤ 0xBF ∧
      (first.toNat = 0xE0 → 0xA0 ≤ second.toNat) ∧ (first.toNat = 0xF0 → 0x90 ≤ second.toNat) ∧
        (first.toNat = 0xED → second.toNat ≤ 0x9F) ∧ (first.toNat = 0xF4 → second.toNat ≤ 0x8F) := by
  simp only [isSecondByte, ← UInt8.toNat_inj, UInt8.reduceToNat, Bool.and_eq_true,
    decide_eq_true_eq] at fits
  obtain ⟨low, high⟩ := fits
  split_ifs at low high <;> omega

theorem bounds_of_isContinuation {byte : UInt8} (continues : isContinuation byte = true) :
    0x80 ≤ byte.toNat ∧ byte.toNat ≤ 0xBF := by
  simpa [isContinuation] using continues

/-- The first byte of a character, by how many bytes the character takes. -/
theorem utf8Width_cases (first : UInt8) :
    utf8Width first = 0 ∨ utf8Width first = 1 ∧ first.toNat < 0x80 ∨
      utf8Width first = 2 ∧ 0xC2 ≤ first.toNat ∧ first.toNat < 0xE0 ∨
        utf8Width first = 3 ∧ 0xE0 ≤ first.toNat ∧ first.toNat < 0xF0 ∨
          utf8Width first = 4 ∧ 0xF0 ≤ first.toNat ∧ first.toNat < 0xF5 := by
  unfold utf8Width
  split_ifs <;> omega

/-! ## One character -/

section Encode

variable {first second third fourth : UInt8}

theorem encode_one (leads : first.toNat < 0x80) :
    String.utf8EncodeChar (Char.ofNat first.toNat) = [first] := by
  have point := toNat_ofNat first.toNat (by omega)
  simp only [String.utf8EncodeChar, point]
  rw [if_pos (by omega), UInt8.ofNat_toNat]

theorem encode_two (leads : 0xC2 ≤ first.toNat ∧ first.toNat < 0xE0)
    (follows : isSecondByte first second = true) :
    String.utf8EncodeChar (Char.ofNat (first.toNat % 0x20 * 0x40 + continuationBits second)) =
      [first, second] := by
  obtain ⟨low, high, _⟩ := bounds_of_isSecondByte follows
  have bits : continuationBits second = second.toNat % 0x40 := rfl
  generalize number : first.toNat % 0x20 * 0x40 + continuationBits second = value
  have point := toNat_ofNat value (by omega)
  simp only [String.utf8EncodeChar, point]
  rw [if_neg (by omega), if_pos (by omega), ofNat_eq first (by omega), ofNat_eq second (by omega)]

theorem encode_three (leads : 0xE0 ≤ first.toNat ∧ first.toNat < 0xF0)
    (follows : isSecondByte first second = true) (continues : isContinuation third = true) :
    String.utf8EncodeChar (Char.ofNat ((first.toNat % 0x10 * 0x40 + continuationBits second) * 0x40
      + continuationBits third)) = [first, second, third] := by
  obtain ⟨low, high, long, _, surrogate, _⟩ := bounds_of_isSecondByte follows
  obtain ⟨thirdLow, thirdHigh⟩ := bounds_of_isContinuation continues
  have bits : continuationBits second = second.toNat % 0x40 := rfl
  have moreBits : continuationBits third = third.toNat % 0x40 := rfl
  generalize number : (first.toNat % 0x10 * 0x40 + continuationBits second) * 0x40
    + continuationBits third = value
  have point := toNat_ofNat value (by omega)
  simp only [String.utf8EncodeChar, point]
  rw [if_neg (by omega), if_neg (by omega), if_pos (by omega), ofNat_eq first (by omega),
    ofNat_eq second (by omega), ofNat_eq third (by omega)]

theorem encode_four (leads : 0xF0 ≤ first.toNat ∧ first.toNat < 0xF5)
    (follows : isSecondByte first second = true) (continues : isContinuation third = true)
    (ends : isContinuation fourth = true) :
    String.utf8EncodeChar (Char.ofNat (((first.toNat % 0x08 * 0x40 + continuationBits second) * 0x40
      + continuationBits third) * 0x40 + continuationBits fourth)) =
        [first, second, third, fourth] := by
  obtain ⟨low, high, _, long, _, last⟩ := bounds_of_isSecondByte follows
  obtain ⟨thirdLow, thirdHigh⟩ := bounds_of_isContinuation continues
  obtain ⟨fourthLow, fourthHigh⟩ := bounds_of_isContinuation ends
  have bits : continuationBits second = second.toNat % 0x40 := rfl
  have moreBits : continuationBits third = third.toNat % 0x40 := rfl
  have lastBits : continuationBits fourth = fourth.toNat % 0x40 := rfl
  generalize number : ((first.toNat % 0x08 * 0x40 + continuationBits second) * 0x40
    + continuationBits third) * 0x40 + continuationBits fourth = value
  have point := toNat_ofNat value (by omega)
  simp only [String.utf8EncodeChar, point]
  rw [if_neg (by omega), if_neg (by omega), if_neg (by omega), ofNat_eq first (by omega),
    ofNat_eq second (by omega), ofNat_eq third (by omega), ofNat_eq fourth (by omega)]

end Encode

/-! ## Pieces -/

/-- A piece that is a character takes the bytes of the character. -/
theorem utf8Piece_eq_ok {first : UInt8} {rest : List UInt8} {c : Char}
    (read : (utf8Piece first rest).content = .ok c) : ∃ taken behind, rest = taken ++ behind ∧
      (utf8Piece first rest).size = taken.length + 1 ∧ String.utf8EncodeChar c = first :: taken := by
  unfold utf8Piece at read ⊢
  rcases utf8Width_cases first with width | ⟨width, leads⟩ | ⟨width, leads⟩ | ⟨width, leads⟩ |
    ⟨width, leads⟩
  · simp [width] at read
  · simp only [width] at read ⊢
    obtain rfl := Except.ok.inj read
    exact ⟨[], rest, rfl, rfl, encode_one leads⟩
  -- Behind the first byte, every byte that is missing or does not fit makes the piece a fault.
  · cases rest with
    | nil => simp [width] at read
    | cons second rest =>
        by_cases follows : isSecondByte first second = true
        · simp only [width, follows, Bool.not_true, Bool.false_eq_true, if_false, if_true] at read ⊢
          obtain rfl := Except.ok.inj read
          exact ⟨[second], rest, rfl, rfl, encode_two leads follows⟩
        · simp [width, follows] at read
  · rcases rest with _ | ⟨second, _ | ⟨third, rest⟩⟩
    · simp [width] at read
    · by_cases follows : isSecondByte first second = true <;> simp [width, follows] at read
    · by_cases follows : isSecondByte first second = true
      · by_cases continues : isContinuation third = true
        · simp only [width, follows, continues, Bool.not_true, Bool.false_eq_true, if_false,
            if_true, Nat.reduceEqDiff] at read ⊢
          obtain rfl := Except.ok.inj read
          exact ⟨[second, third], rest, rfl, rfl, encode_three leads follows continues⟩
        · simp [width, follows, continues] at read
      · simp [width, follows] at read
  · rcases rest with _ | ⟨second, _ | ⟨third, _ | ⟨fourth, rest⟩⟩⟩
    · simp [width] at read
    · by_cases follows : isSecondByte first second = true <;> simp [width, follows] at read
    · by_cases follows : isSecondByte first second = true <;>
        by_cases continues : isContinuation third = true <;>
          simp [width, follows, continues] at read
    · by_cases follows : isSecondByte first second = true
      · by_cases continues : isContinuation third = true
        · by_cases ends : isContinuation fourth = true
          · simp only [width, follows, continues, ends, Bool.not_true, Bool.false_eq_true, if_false,
              Nat.reduceEqDiff] at read ⊢
            obtain rfl := Except.ok.inj read
            exact ⟨[second, third, fourth], rest, rfl, rfl,
              encode_four leads follows continues ends⟩
          · simp [width, follows, continues, ends] at read
        · simp [width, follows, continues] at read
      · simp [width, follows] at read

theorem utf8PiecesAfter_append (taken behind : List UInt8) :
    utf8PiecesAfter taken.length (taken ++ behind) = utf8PiecesAfter 0 behind := by
  induction taken with
  | nil => rfl
  | cons byte taken inductionHypothesis => exact inductionHypothesis

/-- Bytes that are read strictly are the bytes of the text. -/
theorem utf8Bytes_of_utf8Text {all bytes : List UInt8} {position : Nat} {text : List Char}
    (read : utf8Text all position (utf8PiecesAfter 0 bytes) = .ok text) :
    utf8Bytes text = bytes := by
  -- Each piece takes at least one byte, so the bytes behind it are fewer.
  induction size : bytes.length using Nat.strongRecOn generalizing bytes position text with
  | _ length inductionHypothesis =>
  cases bytes with
  | nil =>
      obtain rfl := Except.ok.inj read
      rfl
  | cons first rest =>
      rw [utf8PiecesAfter, utf8Text] at read
      cases content : (utf8Piece first rest).content with
      | error fault => simp [content] at read
      | ok c =>
          obtain ⟨taken, behind, rfl, width, encoded⟩ := utf8Piece_eq_ok content
          rw [content, width, Nat.add_sub_cancel, utf8PiecesAfter_append] at read
          cases later : utf8Text all (position + (taken.length + 1)) (utf8PiecesAfter 0 behind) with
          | error fault => simp [later, Except.map] at read
          | ok others =>
              simp only [later, Except.map, Except.ok.injEq] at read
              subst read
              have fewer : behind.length < length := by
                simp only [List.length_cons, List.length_append] at size
                omega
              have bytes := inductionHypothesis behind.length fewer later rfl
              rw [utf8Bytes] at bytes ⊢
              rw [List.flatMap_cons, encoded, bytes, List.cons_append]

/-- Strict reading loses nothing. -/
theorem utf8Bytes_of_utf8Decode {bytes : List UInt8} {text : List Char}
    (read : utf8Decode bytes = .ok text) : utf8Bytes text = bytes :=
  utf8Bytes_of_utf8Text read

/-! ## ASCII -/

theorem utf8Bytes_of_ascii {c : Char} (ascii : c.toNat < 0x80) :
    utf8Bytes [c] = [UInt8.ofNat c.toNat] := by
  have small : c.val.toNat ≤ 127 := by
    have same : c.val.toNat = c.toNat := rfl
    omega
  rw [utf8Bytes, List.flatMap_singleton, String.utf8EncodeChar, if_pos small]
  rfl

theorem utf8Piece_of_ascii {c : Char} (ascii : c.toNat < 0x80) (rest : List UInt8) :
    utf8Piece (UInt8.ofNat c.toNat) rest = ⟨1, .ok c⟩ := by
  have value : (UInt8.ofNat c.toNat).toNat = c.toNat := by
    rw [UInt8.toNat_ofNat']
    omega
  have width : utf8Width (UInt8.ofNat c.toNat) = 1 := by
    rw [utf8Width, value, if_pos ascii]
  rw [utf8Piece, width, value, Char.ofNat_toNat]
  rfl

/-! ## Reading back -/

theorem isSecondByte_of_bounds {first second : UInt8} (continues : isContinuation second = true)
    (long : first.toNat = 0xE0 → 0xA0 ≤ second.toNat)
    (longest : first.toNat = 0xF0 → 0x90 ≤ second.toNat)
    (surrogate : first.toNat = 0xED → second.toNat ≤ 0x9F)
    (last : first.toNat = 0xF4 → second.toNat ≤ 0x8F) : isSecondByte first second = true := by
  obtain ⟨low, high⟩ := bounds_of_isContinuation continues
  simp only [isSecondByte, ← UInt8.toNat_inj, UInt8.reduceToNat, Bool.and_eq_true, decide_eq_true_eq]
  constructor <;> split_ifs <;> omega

/-- The six low bits of a number, as a byte that continues a character. -/
theorem continuation_ofNat (value : Nat) :
    (UInt8.ofNat (value % 0x40 + 0x80)).toNat = value % 0x40 + 0x80 ∧
      isContinuation (UInt8.ofNat (value % 0x40 + 0x80)) = true ∧
        continuationBits (UInt8.ofNat (value % 0x40 + 0x80)) = value % 0x40 := by
  have number : (UInt8.ofNat (value % 0x40 + 0x80)).toNat = value % 0x40 + 0x80 := by
    rw [UInt8.toNat_ofNat']
    omega
  refine ⟨number, ?_, ?_⟩
  · rw [isContinuation, number]
    simp
    omega
  · rw [continuationBits, number]
    omega

/-- A character whose bytes are read back as itself, whatever stands behind them. -/
def ReadsBack (c : Char) : Prop :=
  ∃ first taken, String.utf8EncodeChar c = first :: taken ∧
    ∀ rest, utf8Piece first (taken ++ rest) = ⟨taken.length + 1, .ok c⟩

section ReadsBack

variable {c : Char}

theorem readsBack_one (few : c.toNat ≤ 0x7F) : ReadsBack c := by
  refine ⟨UInt8.ofNat c.toNat, [], ?_, fun rest => utf8Piece_of_ascii (by omega) rest⟩
  have same : c.val.toNat = c.toNat := rfl
  rw [String.utf8EncodeChar, same, if_pos few]

theorem readsBack_two (many : ¬ c.toNat ≤ 0x7F) (few : c.toNat ≤ 0x7FF) : ReadsBack c := by
  have same : c.val.toNat = c.toNat := rfl
  obtain ⟨lastNumber, lastContinues, lastBits⟩ := continuation_ofNat c.toNat
  generalize lead : UInt8.ofNat (c.toNat / 64 % 32 + 192) = first
  have number : first.toNat = c.toNat / 64 % 32 + 192 := by
    rw [← lead, UInt8.toNat_ofNat']
    omega
  refine ⟨first, [UInt8.ofNat (c.toNat % 64 + 128)], ?_, ?_⟩
  · simp only [String.utf8EncodeChar, same]
    rw [if_neg many, if_pos few, lead]
  · intro rest
    have width : utf8Width first = 2 := by
      unfold utf8Width
      split_ifs <;> omega
    have follows := @isSecondByte_of_bounds first _ lastContinues (by omega) (by omega) (by omega)
      (by omega)
    have point : first.toNat % 0x20 * 0x40 + c.toNat % 0x40 = c.toNat := by omega
    simp only [utf8Piece, width, List.singleton_append, follows, lastBits, point, Char.ofNat_toNat]
    rfl

theorem readsBack_three (many : ¬ c.toNat ≤ 0x7FF) (few : c.toNat ≤ 0xFFFF) : ReadsBack c := by
  -- Surrogates are no characters: the second byte behind 0xED is small.
  have valid : c.toNat < 0xD800 ∨ 0xDFFF < c.toNat ∧ c.toNat < 0x110000 := c.valid
  have same : c.val.toNat = c.toNat := rfl
  obtain ⟨nextNumber, nextContinues, nextBits⟩ := continuation_ofNat (c.toNat / 0x40)
  obtain ⟨lastNumber, lastContinues, lastBits⟩ := continuation_ofNat c.toNat
  generalize lead : UInt8.ofNat (c.toNat / 4096 % 16 + 224) = first
  have number : first.toNat = c.toNat / 4096 % 16 + 224 := by
    rw [← lead, UInt8.toNat_ofNat']
    omega
  refine ⟨first, [UInt8.ofNat (c.toNat / 64 % 64 + 128), UInt8.ofNat (c.toNat % 64 + 128)], ?_, ?_⟩
  · simp only [String.utf8EncodeChar, same]
    rw [if_neg (by omega), if_neg many, if_pos few, lead]
  · intro rest
    have width : utf8Width first = 3 := by
      unfold utf8Width
      split_ifs <;> omega
    have follows := @isSecondByte_of_bounds first _ nextContinues (by omega) (by omega) (by omega)
      (by omega)
    have point : (first.toNat % 0x10 * 0x40 + c.toNat / 64 % 64) * 0x40 + c.toNat % 64 =
        c.toNat := by omega
    simp only [utf8Piece, width, List.cons_append, List.nil_append, follows, lastContinues, nextBits,
      lastBits, point, Char.ofNat_toNat]
    rfl

theorem readsBack_four (many : ¬ c.toNat ≤ 0xFFFF) : ReadsBack c := by
  have valid : c.toNat < 0xD800 ∨ 0xDFFF < c.toNat ∧ c.toNat < 0x110000 := c.valid
  have same : c.val.toNat = c.toNat := rfl
  obtain ⟨topNumber, topContinues, topBits⟩ := continuation_ofNat (c.toNat / 0x1000)
  obtain ⟨nextNumber, nextContinues, nextBits⟩ := continuation_ofNat (c.toNat / 0x40)
  obtain ⟨lastNumber, lastContinues, lastBits⟩ := continuation_ofNat c.toNat
  generalize lead : UInt8.ofNat (c.toNat / 262144 % 8 + 240) = first
  have number : first.toNat = c.toNat / 262144 % 8 + 240 := by
    rw [← lead, UInt8.toNat_ofNat']
    omega
  refine ⟨first, [UInt8.ofNat (c.toNat / 4096 % 64 + 128), UInt8.ofNat (c.toNat / 64 % 64 + 128),
    UInt8.ofNat (c.toNat % 64 + 128)], ?_, ?_⟩
  · simp only [String.utf8EncodeChar, same]
    rw [if_neg (by omega), if_neg (by omega), if_neg many, lead]
  · intro rest
    have width : utf8Width first = 4 := by
      unfold utf8Width
      split_ifs <;> omega
    have follows := @isSecondByte_of_bounds first _ topContinues (by omega) (by omega) (by omega)
      (by omega)
    have point : ((first.toNat % 0x08 * 0x40 + c.toNat / 4096 % 64) * 0x40 +
        c.toNat / 64 % 64) * 0x40 + c.toNat % 64 = c.toNat := by omega
    simp only [utf8Piece, width, List.cons_append, List.nil_append, follows, nextContinues,
      lastContinues, topBits, nextBits, lastBits, point, Char.ofNat_toNat]
    rfl

end ReadsBack

theorem readsBack (c : Char) : ReadsBack c := by
  by_cases one : c.toNat ≤ 0x7F
  · exact readsBack_one one
  by_cases two : c.toNat ≤ 0x7FF
  · exact readsBack_two one two
  by_cases three : c.toNat ≤ 0xFFFF
  · exact readsBack_three two three
  · exact readsBack_four three

theorem utf8PiecesAfter_utf8Bytes {c : Char} {text : List Char} : ∃ size,
    utf8PiecesAfter 0 (utf8Bytes (c :: text)) =
      ⟨size, .ok c⟩ :: utf8PiecesAfter 0 (utf8Bytes text) := by
  obtain ⟨first, taken, encoded, piece⟩ := readsBack c
  have bytes : utf8Bytes (c :: text) = first :: (taken ++ utf8Bytes text) := by
    rw [utf8Bytes, List.flatMap_cons, encoded]
    rfl
  refine ⟨taken.length + 1, ?_⟩
  rw [bytes, utf8PiecesAfter, piece, Nat.add_sub_cancel, utf8PiecesAfter_append]

/-- Text is read back from its bytes. -/
theorem utf8Lenient_utf8Bytes (text : List Char) : utf8Lenient (utf8Bytes text) = text := by
  induction text with
  | nil => rfl
  | cons c text inductionHypothesis =>
      obtain ⟨size, pieces⟩ := @utf8PiecesAfter_utf8Bytes c text
      rw [utf8Lenient, utf8Pieces] at inductionHypothesis ⊢
      rw [pieces, List.map_cons, inductionHypothesis]
      rfl

theorem utf8Decode_utf8Bytes (text : List Char) : utf8Decode (utf8Bytes text) = .ok text := by
  have read (all : List UInt8) (position : Nat) :
      utf8Text all position (utf8PiecesAfter 0 (utf8Bytes text)) = .ok text := by
    induction text generalizing position with
    | nil => rfl
    | cons c text inductionHypothesis =>
        obtain ⟨size, pieces⟩ := @utf8PiecesAfter_utf8Bytes c text
        rw [pieces, utf8Text]
        dsimp only
        rw [inductionHypothesis]
        rfl
  exact read _ 0

end ProgramIdl.Text
