import ProgramIdl.Literal.Quoted
import ProgramIdl.Proofs.Text.Trim
import ProgramIdl.Proofs.Text.Utf8

/-!
# Byte-string literals

`ByteLiteral text bytes` says which texts are byte strings of the language and which bytes they stand
for, cooked or raw, without saying how one is read.  The reader finds those bytes
(`byteString?_of_byteLiteral`).
-/

set_option autoImplicit false

namespace ProgramIdl.Literal

open ProgramIdl.Text

/-! ## What the language says -/

/-- The escapes of one letter. -/
def simpleEscapes : List (Char × UInt8) :=
  [('n', 10), ('r', 13), ('t', 9), ('\\', 92), ('0', 0), ('\'', 39), ('"', 34)]

def hexDigit? (c : Char) : Option Nat :=
  if '0' ≤ c ∧ c ≤ '9' then some (c.toNat - '0'.toNat)
  else if 'a' ≤ c ∧ c ≤ 'f' then some (c.toNat - 'a'.toNat + 10)
  else if 'A' ≤ c ∧ c ≤ 'F' then some (c.toNat - 'A'.toNat + 10)
  else none

/-- The blanks that a line continuation skips; a carriage return never stands in a literal. -/
def continued : List Char :=
  [' ', '\t', '\n']

/-- What the text between the quotes of a cooked byte string stands for. -/
inductive Cooked : List Char → List UInt8 → Prop where
  | nil : Cooked [] []
  | plain {c : Char} {rest : List Char} {bytes : List UInt8} (ascii : c.toNat < 0x80)
      (special : c ≠ '"' ∧ c ≠ '\\' ∧ c ≠ '\x0d') (behind : Cooked rest bytes) :
      Cooked (c :: rest) (UInt8.ofNat c.toNat :: bytes)
  | escape {c : Char} {byte : UInt8} {rest : List Char} {bytes : List UInt8}
      (listed : (c, byte) ∈ simpleEscapes) (behind : Cooked rest bytes) :
      Cooked ('\\' :: c :: rest) (byte :: bytes)
  | hexadecimal {high low : Char} {first second : Nat} {rest : List Char} {bytes : List UInt8}
      (highDigit : hexDigit? high = some first) (lowDigit : hexDigit? low = some second)
      (behind : Cooked rest bytes) :
      Cooked ('\\' :: 'x' :: high :: low :: rest) (UInt8.ofNat (16 * first + second) :: bytes)
  | continuation {blanks rest : List Char} {bytes : List UInt8}
      (skipped : ∀ c ∈ blanks, c ∈ continued)
      (stops : ∀ c, rest.head? = some c → c ∉ continued) (behind : Cooked rest bytes) :
      Cooked ('\\' :: '\n' :: (blanks ++ rest)) bytes

theorem Cooked.of_plain {body : List Char}
    (plain : ∀ c ∈ body, c.toNat < 0x80 ∧ c ≠ '"' ∧ c ≠ '\\' ∧ c ≠ '\x0d') :
    Cooked body (body.map fun c => UInt8.ofNat c.toNat) := by
  induction body with
  | nil => exact .nil
  | cons c rest inductionHypothesis =>
      obtain ⟨ascii, special⟩ := plain c List.mem_cons_self
      exact .plain ascii special
        (inductionHypothesis fun c member => plain c (List.mem_cons_of_mem _ member))

/-- The text of a byte-string literal, and the bytes that it stands for. -/
inductive ByteLiteral : List Char → List UInt8 → Prop where
  | cooked {body : List Char} {bytes : List UInt8} (stands : Cooked body bytes) :
      ByteLiteral ('b' :: '"' :: (body ++ ['"'])) bytes
  | raw {marks : Nat} {body : List Char} (ascii : ∀ c ∈ body, c.toNat < 0x80 ∧ c ≠ '\x0d')
      (closed : ¬ '"' :: List.replicate marks '#' <:+: body) :
      ByteLiteral
        ('b' :: 'r' :: (List.replicate marks '#' ++
          '"' :: (body ++ '"' :: List.replicate marks '#')))
        (body.map fun c => UInt8.ofNat c.toNat)

/-! ## Escapes -/

theorem simpleEscape?_of_listed : ∀ entry ∈ simpleEscapes,
    ∃ plain, simpleEscape? entry.1 = some plain ∧ utf8Bytes [plain] = [entry.2] := by
  intro entry listed
  simp only [simpleEscapes, List.mem_cons, List.not_mem_nil, or_false] at listed
  rcases listed with rfl | rfl | rfl | rfl | rfl | rfl | rfl <;> exact ⟨_, rfl, rfl⟩

def hexDigits : List Char :=
  ((List.range 0x80).map Char.ofNat).filter fun c => (hexDigit? c).isSome

theorem mem_hexDigits {c : Char} {value : Nat} (digit : hexDigit? c = some value) :
    c ∈ hexDigits := by
  have ascii : c.toNat < 0x80 := by
    have reached {low high : Char} (inside : low ≤ c ∧ c ≤ high) (small : high.toNat < 0x80) :
        c.toNat < 0x80 := Nat.lt_of_le_of_lt inside.2 small
    rw [hexDigit?] at digit
    split at digit
    · exact reached ‹_› (by decide)
    · split at digit
      · exact reached ‹_› (by decide)
      · split at digit
        · exact reached ‹_› (by decide)
        · cases digit
  rw [hexDigits, List.mem_filter, List.mem_map]
  exact ⟨⟨c.toNat, List.mem_range.mpr ascii, Char.ofNat_toNat c⟩, by rw [digit]; rfl⟩

theorem byteEscape?_of_hexDigit {high low : Char} {first second : Nat}
    (highDigit : hexDigit? high = some first) (lowDigit : hexDigit? low = some second) :
    byteEscape? [high, low] = some (UInt8.ofNat (16 * first + second)) := by
  have all : hexDigits.all (fun high => hexDigits.all fun low => byteEscape? [high, low] =
      (hexDigit? high).bind fun first =>
        (hexDigit? low).map fun second => UInt8.ofNat (16 * first + second)) = true := by
    decide
  have here := List.all_eq_true.mp all high (mem_hexDigits highDigit)
  rw [forall_mem_of_all here low (mem_hexDigits lowDigit), highDigit, lowDigit]
  rfl

theorem unescapeFrom_skip (skipped : Nat) (c : Char) (rest : List Char) :
    unescapeFrom (.characters (skipped + 1)) (c :: rest) =
      unescapeFrom (.characters skipped) rest := rfl

/-- The bytes of an escape and of what follows it, given the text behind its backslash. -/
def unescapeMark : List Char → Option (List UInt8)
  | [] => none
  | escape :: digits =>
      match simpleEscape? escape with
      | some plain =>
          (unescapeFrom (.characters 1) (escape :: digits)).map (utf8Bytes [plain] ++ ·)
      | none =>
          if escape = 'x' then
            match byteEscape? (digits.take 2) with
            | some byte => (unescapeFrom (.characters 3) (escape :: digits)).map (byte :: ·)
            | none => none
          else if escape = '\n' then unescapeFrom .continuation (escape :: digits)
          else none

theorem unescapeFrom_start (c : Char) (rest : List Char) :
    unescapeFrom (.characters 0) (c :: rest) =
      if c ≠ '\\' then (unescapeFrom (.characters 0) rest).map (utf8Bytes [c] ++ ·)
      else unescapeMark rest := by
  cases rest <;> rfl

theorem unescapeFrom_behind (c : Char) (rest : List Char) :
    unescapeFrom .continuation (c :: rest) =
      if isContinuationBlank c then unescapeFrom .continuation rest
      else unescapeFrom (.characters 0) (c :: rest) := rfl

theorem unescapeFrom_plain {c : Char} (plain : c ≠ '\\') (rest : List Char) :
    unescapeFrom (.characters 0) (c :: rest) =
      (unescapeFrom (.characters 0) rest).map (utf8Bytes [c] ++ ·) := by
  rw [unescapeFrom_start, if_pos plain]

theorem unescapeFrom_simple {c plain : Char} (escape : simpleEscape? c = some plain)
    (rest : List Char) : unescapeFrom (.characters 0) ('\\' :: c :: rest) =
      (unescapeFrom (.characters 0) rest).map (utf8Bytes [plain] ++ ·) := by
  rw [unescapeFrom_start, if_neg (not_not_intro rfl), ← unescapeFrom_skip 0 c rest]
  simp only [unescapeMark, escape]

theorem unescapeFrom_hexadecimal {high low : Char} {byte : UInt8}
    (escape : byteEscape? [high, low] = some byte) (rest : List Char) :
    unescapeFrom (.characters 0) ('\\' :: 'x' :: high :: low :: rest) =
      (unescapeFrom (.characters 0) rest).map (byte :: ·) := by
  rw [unescapeFrom_start, if_neg (not_not_intro rfl)]
  simp [unescapeMark, escape, simpleEscape?, unescapeFrom_skip]

theorem unescapeFrom_continuation (rest : List Char) :
    unescapeFrom (.characters 0) ('\\' :: '\n' :: rest) = unescapeFrom .continuation rest := by
  rw [unescapeFrom_start, if_neg (not_not_intro rfl)]
  simp [unescapeMark, unescapeFrom_behind, simpleEscape?, isContinuationBlank]

theorem isContinuationBlank_iff {c : Char} :
    isContinuationBlank c = true ↔ c = '\x0d' ∨ c ∈ continued := by
  simp only [isContinuationBlank, continued, List.mem_cons, List.not_mem_nil, or_false,
    Bool.or_eq_true, decide_eq_true_eq]
  tauto

theorem unescapeFrom_blanks {blanks : List Char} (skipped : ∀ c ∈ blanks, c ∈ continued)
    (rest : List Char) :
    unescapeFrom .continuation (blanks ++ rest) = unescapeFrom .continuation rest := by
  induction blanks with
  | nil => rfl
  | cons c blanks inductionHypothesis =>
      have blank : isContinuationBlank c = true :=
        isContinuationBlank_iff.mpr (.inr (skipped c List.mem_cons_self))
      rw [← inductionHypothesis fun c member => skipped c (List.mem_cons_of_mem _ member),
        List.cons_append, unescapeFrom_behind, if_pos blank]

theorem unescapeFrom_stop {text : List Char}
    (stops : ∀ c, text.head? = some c → isContinuationBlank c = false) :
    unescapeFrom .continuation text = unescapeFrom (.characters 0) text := by
  cases text with
  | nil => rfl
  | cons c rest =>
      rw [unescapeFrom_behind, stops c rfl]
      rfl

/-! ## Reading -/

/-- The text of a cooked literal does not start with a carriage return. -/
theorem Cooked.head?_ne {body : List Char} {bytes : List UInt8} (stands : Cooked body bytes) :
    body.head? ≠ some '\x0d' := by
  cases stands with
  | nil => exact nofun
  | plain _ special _ => simpa using special.2.2
  | escape _ _ => exact nofun
  | hexadecimal _ _ _ => exact nofun
  | continuation _ _ _ => exact nofun

theorem unescape_of_cooked {body : List Char} {bytes : List UInt8} (stands : Cooked body bytes) :
    unescape body = some bytes := by
  induction stands with
  | nil => rfl
  | @plain c rest bytes ascii special behind inductionHypothesis =>
      rw [unescape] at inductionHypothesis ⊢
      rw [unescapeFrom_plain special.2.1, inductionHypothesis, utf8Bytes_of_ascii ascii]
      rfl
  | @escape c byte rest bytes listed behind inductionHypothesis =>
      obtain ⟨plain, escape, encoded⟩ := simpleEscape?_of_listed _ listed
      rw [unescape] at inductionHypothesis ⊢
      rw [unescapeFrom_simple escape, inductionHypothesis, encoded]
      rfl
  | @hexadecimal high low first second rest bytes highDigit lowDigit behind inductionHypothesis =>
      rw [unescape] at inductionHypothesis ⊢
      rw [unescapeFrom_hexadecimal (byteEscape?_of_hexDigit highDigit lowDigit),
        inductionHypothesis]
      rfl
  | @continuation blanks rest bytes skipped stops behind inductionHypothesis =>
      have visible : ∀ c, rest.head? = some c → isContinuationBlank c = false := by
        intro c head
        rw [Bool.eq_false_iff, ne_eq, isContinuationBlank_iff, not_or]
        refine ⟨?_, stops c head⟩
        rintro rfl
        exact behind.head?_ne head
      rw [unescape] at inductionHypothesis ⊢
      rw [unescapeFrom_continuation, unescapeFrom_blanks skipped, unescapeFrom_stop visible,
        inductionHypothesis]

theorem cookedBody_plain {c : Char} (plain : c ≠ '"' ∧ c ≠ '\\') (rest : List Char) :
    cookedBody (c :: rest) = (cookedBody rest).map fun (body, after) => (c :: body, after) := by
  cases rest <;> simp [cookedBody, plain.1, plain.2]

theorem cookedBody_append {text body rest after : List Char}
    (plain : ∀ c ∈ text, c ≠ '"' ∧ c ≠ '\\') (read : cookedBody rest = some (body, after)) :
    cookedBody (text ++ rest) = some (text ++ body, after) := by
  induction text with
  | nil => exact read
  | cons c text inductionHypothesis =>
      have later := inductionHypothesis fun c member => plain c (List.mem_cons_of_mem _ member)
      rw [List.cons_append, cookedBody_plain (plain c List.mem_cons_self), later]
      rfl

/-- The quote behind the text of a cooked literal is the first one that closes it. -/
theorem cookedBody_of_cooked {body : List Char} {bytes : List UInt8} (stands : Cooked body bytes)
    (after : List Char) : cookedBody (body ++ '"' :: after) = some (body, after) := by
  induction stands with
  | nil => rfl
  | plain _ special _ inductionHypothesis =>
      rw [List.cons_append, cookedBody_plain ⟨special.1, special.2.1⟩, inductionHypothesis]
      rfl
  | escape _ _ inductionHypothesis =>
      rw [List.cons_append, List.cons_append, cookedBody, inductionHypothesis]
      rfl
  | @hexadecimal high low _ _ rest _ highDigit lowDigit _ inductionHypothesis =>
      have plain : ∀ c ∈ hexDigits, c ≠ '"' ∧ c ≠ '\\' :=
        forall_mem_of_all (by decide)
      have digits : cookedBody ([high, low] ++ (rest ++ '"' :: after)) =
          some ([high, low] ++ rest, after) := by
        refine cookedBody_append ?_ inductionHypothesis
        intro c member
        simp only [List.mem_cons, List.not_mem_nil, or_false] at member
        rcases member with rfl | rfl
        · exact plain _ (mem_hexDigits highDigit)
        · exact plain _ (mem_hexDigits lowDigit)
      change cookedBody ('\\' :: 'x' :: ([high, low] ++ (rest ++ '"' :: after))) = _
      rw [cookedBody, digits]
      rfl
  | @continuation blanks rest _ skipped _ _ inductionHypothesis =>
      have plain : ∀ c ∈ blanks, c ≠ '"' ∧ c ≠ '\\' := by
        intro c member
        have all : ∀ c ∈ continued, c ≠ '"' ∧ c ≠ '\\' := forall_mem_of_all (by decide)
        exact all c (skipped c member)
      rw [List.cons_append, List.cons_append, List.append_assoc, cookedBody,
        cookedBody_append plain inductionHypothesis]
      rfl

theorem raw?_marks (marks : Nat) (body : List Char) :
    raw? (List.replicate marks '#' ++ '"' :: (body ++ '"' :: List.replicate marks '#')) =
      some body := by
  have isMark : ∀ c ∈ List.replicate marks '#', decide (c = '#') = true := by
    intro c member
    simpa using List.eq_of_mem_replicate member
  have opening : (List.replicate marks '#' ++
      '"' :: (body ++ '"' :: List.replicate marks '#')).takeWhile (· = '#') =
        List.replicate marks '#' := by
    rw [List.takeWhile_append_of_pos isMark, List.takeWhile_cons_of_neg (by decide),
      List.append_nil]
  have content : (List.replicate marks '#' ++
      '"' :: (body ++ '"' :: List.replicate marks '#')).dropWhile (· = '#') =
        '"' :: (body ++ '"' :: List.replicate marks '#') := by
    rw [List.dropWhile_append_of_pos isMark, List.dropWhile_cons_of_neg (by decide)]
  rw [raw?, opening, content]
  exact List.isSuffixOf?_eq_some_iff_append_eq.mpr rfl

theorem utf8Bytes_map {body : List Char} (ascii : ∀ c ∈ body, c.toNat < 0x80 ∧ c ≠ '\x0d') :
    utf8Bytes body = body.map fun c => UInt8.ofNat c.toNat := by
  induction body with
  | nil => rfl
  | cons c rest inductionHypothesis =>
      have here := utf8Bytes_of_ascii (ascii c List.mem_cons_self).1
      have later := inductionHypothesis fun c member => ascii c (List.mem_cons_of_mem _ member)
      rw [utf8Bytes, List.flatMap_singleton] at here
      rw [utf8Bytes] at later ⊢
      rw [List.flatMap_cons, here, later]
      rfl

/-- A text between visible characters refers to nothing else. -/
theorem dereference_eq_self {first : Char} {rest front back : List Char}
    (visible : isBlank first = false ∧ first ≠ '&') (split : first :: rest = front ++ back)
    (nonempty : back ≠ []) (visibleBack : ∀ c ∈ back, isBlank c = false) :
    dereference (first :: rest) = first :: rest := by
  have flush : Flush (first :: rest) := flush_cons_iff.mpr visible.1
  have whole : trim (first :: rest) = first :: rest := by
    rw [trim_of_flush flush]
    refine trimEnd_of_getLast? fun c last => visibleBack c ?_
    rw [split, List.getLast?_append_of_ne_nil _ nonempty] at last
    exact List.mem_of_getLast? last
  rw [dereference, whole, List.dropWhile_cons_of_neg (by simpa using visible.2), whole]

theorem dereference_of_byteLiteral {text : List Char} {bytes : List UInt8}
    (literal : ByteLiteral text bytes) : dereference text = text := by
  cases literal with
  | @cooked body _ _ =>
      have split : 'b' :: '"' :: (body ++ ['"']) = 'b' :: '"' :: body ++ ['"'] := rfl
      exact dereference_eq_self (by decide) split (by simp) (forall_mem_of_all (by decide))
  | @raw marks body _ _ =>
      have split : 'b' :: 'r' :: (List.replicate marks '#' ++ '"' :: (body ++ '"' ::
          List.replicate marks '#')) = 'b' :: 'r' :: (List.replicate marks '#' ++ '"' :: body) ++
            '"' :: List.replicate marks '#' := by simp
      refine dereference_eq_self (by decide) split (by simp) ?_
      intro c member
      rcases List.mem_cons.mp member with rfl | member
      · decide
      · rw [List.eq_of_mem_replicate member]
        decide

/-- The reader finds the bytes that a literal stands for. -/
theorem byteString?_of_byteLiteral {text : List Char} {bytes : List UInt8}
    (literal : ByteLiteral text bytes) : byteString? (.ofList text) = some bytes := by
  rw [byteString?, String.toList_ofList, dereference_of_byteLiteral literal]
  cases literal with
  | @cooked body bytes stands =>
      have inside : cooked? ('"' :: (body ++ ['"'])) = some body := by
        rw [cooked?, cookedBody_of_cooked stands]
        rfl
      change (cooked? ('"' :: (body ++ ['"']))).bind unescape = some bytes
      rw [inside, Option.bind_some, unescape_of_cooked stands]
  | @raw marks body ascii _ =>
      simp only [raw?_marks, utf8Bytes_map ascii]

end ProgramIdl.Literal
