import ProgramIdl.Proofs.Literal.ByteString

/-!
# Byte strings behind references

A byte-string literal is read alike behind any number of `&` signs, and every way of spelling a
sequence of bytes between its quotes is read as that sequence (`byteString?_exact`).
-/

set_option autoImplicit false

namespace ProgramIdl.Literal

open ProgramIdl.Text

/-! ## Ways of writing a byte -/

/-- The texts that stand for one byte between the quotes of a cooked literal. -/
inductive Spelling : UInt8 → List Char → Prop where
  | plain {c : Char} (ascii : c.toNat < 0x80) (special : c ≠ '"' ∧ c ≠ '\\' ∧ c ≠ '\x0d') :
      Spelling (UInt8.ofNat c.toNat) [c]
  | escape {c : Char} {byte : UInt8} (listed : (c, byte) ∈ simpleEscapes) :
      Spelling byte ['\\', c]
  | hexadecimal {high low : Char} {first second : Nat} (highDigit : hexDigit? high = some first)
      (lowDigit : hexDigit? low = some second) :
      Spelling (UInt8.ofNat (16 * first + second)) ['\\', 'x', high, low]

/-- Every number below sixteen is the value of a digit. -/
theorem exists_hexDigit {value : Nat} (small : value < 16) : ∃ c, hexDigit? c = some value := by
  have all : ∀ value ∈ List.range 16,
      (hexDigits.any fun c => hexDigit? c = some value) = true := by decide
  obtain ⟨c, _, read⟩ := List.any_eq_true.mp (all value (List.mem_range.mpr small))
  exact ⟨c, of_decide_eq_true read⟩

/-- Every byte has a spelling: two digits give its halves. -/
theorem exists_spelling (byte : UInt8) : ∃ piece, Spelling byte piece := by
  have bounded : byte.toNat < 256 := byte.toNat_lt
  obtain ⟨high, highDigit⟩ := exists_hexDigit (show byte.toNat / 16 < 16 by omega)
  obtain ⟨low, lowDigit⟩ := exists_hexDigit (show byte.toNat % 16 < 16 by omega)
  have spelled := Spelling.hexadecimal highDigit lowDigit
  rw [Nat.div_add_mod, UInt8.ofNat_toNat] at spelled
  exact ⟨_, spelled⟩

theorem Spelling.cooked {byte : UInt8} {piece rest : List Char} {bytes : List UInt8}
    (spelling : Spelling byte piece) (behind : Cooked rest bytes) :
    Cooked (piece ++ rest) (byte :: bytes) := by
  cases spelling with
  | plain ascii special => exact .plain ascii special behind
  | escape listed => exact .escape listed behind
  | hexadecimal highDigit lowDigit => exact .hexadecimal highDigit lowDigit behind

/-- Spellings of bytes, one behind the other, stand for those bytes. -/
theorem Cooked.of_spellings {bytes : List UInt8} {pieces : List (List Char)}
    (spelled : List.Forall₂ Spelling bytes pieces) : Cooked pieces.flatten bytes := by
  induction spelled with
  | nil => exact .nil
  | cons spelling _ inductionHypothesis => exact spelling.cooked inductionHypothesis

/-! ## Behind references -/

theorem dereference_byteLiteral {signs between text : List Char} {bytes : List UInt8}
    (literal : ByteLiteral text bytes) (allSigns : ∀ c ∈ signs, c = '&') (blank : Blank between) :
    dereference (signs ++ between ++ text) = text := by
  have alone := dereference_of_byteLiteral literal
  cases signs with
  | nil =>
      have around := dereference_blanks blank (show Blank [] from nofun) text
      rwa [List.append_nil, alone] at around
  | cons sign signs =>
      refine dereference_append allSigns blank nofun ?_ ?_ ?_ ?_
      · rw [← alone]
        exact trim_flush _
      · rw [← alone]
        exact getLast?_trimEnd _
      · cases literal <;> simp
      · cases literal <;> simp

/-- What a text is read as depends on what it refers to alone. -/
theorem byteString?_congr {text other : List Char} (same : dereference text = dereference other) :
    byteString? (.ofList text) = byteString? (.ofList other) := by
  rw [byteString?, byteString?, String.toList_ofList, String.toList_ofList, same]

theorem byteString?_references {front signs between text back : List Char} {bytes : List UInt8}
    (literal : ByteLiteral text bytes) (allSigns : ∀ c ∈ signs, c = '&') (frontBlank : Blank front)
    (betweenBlank : Blank between) (backBlank : Blank back) :
    byteString? (.ofList (front ++ (signs ++ between ++ text) ++ back)) = some bytes := by
  rw [← byteString?_of_byteLiteral literal]
  refine byteString?_congr ?_
  rw [dereference_blanks frontBlank backBlank, dereference_byteLiteral literal allSigns betweenBlank,
    dereference_of_byteLiteral literal]

/-- The reader finds exactly the bytes that a byte-string literal stands for, cooked or raw, behind
any number of `&` signs and between blanks.  In particular every sequence of bytes is recovered from
every way of spelling each of its bytes, and no byte is without a spelling. -/
theorem byteString?_exact (signs : Nat) {front between back : List Char} (frontBlank : Blank front)
    (betweenBlank : Blank between) (backBlank : Blank back) :
    (∀ text bytes, ByteLiteral text bytes →
      byteString? (.ofList (front ++ (List.replicate signs '&' ++ between ++ text) ++ back)) =
        some bytes) ∧
    (∀ bytes pieces, List.Forall₂ Spelling bytes pieces →
      byteString? (.ofList (front ++ (List.replicate signs '&' ++ between ++
        'b' :: '"' :: (pieces.flatten ++ ['"'])) ++ back)) = some bytes) ∧
    ∀ byte, ∃ piece, Spelling byte piece := by
  have allSigns : ∀ c ∈ List.replicate signs '&', c = '&' :=
    fun _ member => List.eq_of_mem_replicate member
  refine ⟨fun text bytes literal => ?_, fun bytes pieces spelled => ?_, exists_spelling⟩
  · exact byteString?_references literal allSigns frontBlank betweenBlank backBlank
  · exact byteString?_references (.cooked (Cooked.of_spellings spelled)) allSigns frontBlank
      betweenBlank backBlank

/-- The text `\x4f\` and, on a line of its own, ` k`. -/
def continuedBody : List Char :=
  ['\\', 'x', '4', 'f', '\\', '\n', ' ', 'k']

theorem cooked_continuedBody : Cooked continuedBody [0x4f, 0x6b] := by
  have blanks : ∀ c ∈ [' '], c ∈ continued := forall_mem_of_all (by decide)
  have last : Cooked ['k'] [0x6b] := Cooked.of_plain (forall_mem_of_all (by decide))
  have stops : ∀ c, ['k'].head? = some c → c ∉ continued := by
    rintro c ⟨⟩
    decide
  have high : hexDigit? '4' = some 4 := rfl
  have low : hexDigit? 'f' = some 15 := rfl
  exact .hexadecimal high low (.continuation blanks stops last)

theorem spelling_lineBreak : Spelling 10 ['\\', 'n'] := .escape (by decide)

theorem byteString?_exact_continuedBody :
    Blank [] ∧ Blank [' '] ∧
      byteString? (.ofList ([] ++ (['&'] ++ [' '] ++ 'b' :: '"' :: (continuedBody ++ ['"'])) ++ []))
        = some [0x4f, 0x6b] ∧
      byteString? (.ofList ([] ++ (['&'] ++ [' '] ++
        'b' :: '"' :: ([['\\', 'n'], ['\\', 'n']].flatten ++ ['"'])) ++ [])) = some [10, 10] := by
  have none : Blank [] := nofun
  have space : Blank [' '] := forall_mem_of_all (by decide)
  obtain ⟨literals, spellings, _⟩ := byteString?_exact 1 none space none
  exact ⟨none, space, literals _ _ (.cooked cooked_continuedBody),
    spellings _ _ (.cons spelling_lineBreak (.cons spelling_lineBreak .nil))⟩

end ProgramIdl.Literal
