import ProgramIdl.Declaration.Scan
import ProgramIdl.Proofs.Layout.Typing
import ProgramIdl.Proofs.Literal.Tidy
import ProgramIdl.Proofs.Text.Identifier

/-!
# Numbers in declarations

The numbers that are written in declarations are the values of variants and the lengths of arrays.
Each is read from an integer literal, or from the literal that a constant holds; a name stands for the
constant of that name, unless it starts with an underscore.
-/

set_option autoImplicit false

namespace ProgramIdl

open ProgramIdl.Text

/-! ## Identifiers are no numbers -/

theorem identifierStart_apart_decimalDigit :
    CodePoints.apart identifierStartRanges decimalDigitRanges = true := by
  decide +kernel

section Identifiers

variable {c : Char} (start : isIdentifierStart c = true)

include start

theorem decimalDigit?_of_isIdentifierStart : decimalDigit? c = none := by
  rw [decimalDigit?, Option.map_eq_none_iff, List.find?_eq_none]
  intro range listed inside
  rw [Bool.and_eq_true, decide_eq_true_eq, decide_eq_true_eq] at inside
  exact CodePoints.not_mem_of_apart identifierStart_apart_decimalDigit start range listed inside

/-- The letter in front of an identifier is worth too much for a decimal digit, if it is worth anything. -/
theorem digit?_of_isIdentifierStart : ∀ value ∈ Literal.digit? c.toLower, 10 ≤ value := by
  intro value read
  rcases Literal.toLower_eq_or_mem c with same | capital
  · rw [same, Literal.digit?] at read
    split at read
    · obtain rfl := Option.some.inj read
      omega
    · split at read
      · obtain rfl := Option.some.inj read
        omega
      · rw [decimalDigit?_of_isIdentifierStart start] at read
        cases read
  · have all : Literal.capitals.all (fun c => (Literal.digit? c.toLower).all (10 ≤ ·)) = true := by
      decide
    have large := List.all_eq_true.mp all c capital
    rw [show Literal.digit? c.toLower = some value from read] at large
    simpa using large

theorem toLower_of_isIdentifierStart :
    isBlank c.toLower = false ∧ c.toLower ≠ '-' ∧ c.toLower ≠ '+' ∧ c.toLower ≠ '0' := by
  rcases Literal.toLower_eq_or_mem c with same | capital
  · rw [same]
    have other {mark : Char} (stops : isIdentifierStart mark = false) : c ≠ mark := by
      rintro rfl
      rw [stops] at start
      cases start
    exact ⟨isBlank_of_isIdentifierStart start, other (by decide), other (by decide), other (by decide)⟩
  · obtain ⟨visible, noMinus, noPlus, _⟩ := Literal.toLower_capitals c capital
    have noZero : ∀ c ∈ Literal.capitals, c.toLower ≠ '0' := forall_mem_of_all (by decide)
    exact ⟨visible, noMinus, noPlus, noZero c capital⟩

/-- A letter is no number, whatever follows it. -/
theorem number?_of_isIdentifierStart (rest : List Char) :
    Literal.number? .decimal (c.toLower :: rest) = none := by
  obtain ⟨visible, noMinus, noPlus, _⟩ := toLower_of_isIdentifierStart start
  have large := digit?_of_isIdentifierStart start
  generalize c.toLower = first at visible noMinus noPlus large
  have kept : Literal.isNumberBlank first = false := by simp [Literal.isNumberBlank, visible]
  obtain ⟨more, ended⟩ : ∃ more, ((first :: rest).reverse.dropWhile Literal.isNumberBlank).reverse =
      first :: more := by
    rw [List.reverse_cons, List.dropWhile_append]
    split
    · exact ⟨[], by simp [kept]⟩
    · exact ⟨_, by rw [List.reverse_append]; rfl⟩
  have noDigit : Literal.digitsValue? 10 0 (first :: more) = none := by
    rw [Literal.digitsValue?]
    split
    · rename_i digit read
      exact if_neg (Nat.not_lt_of_le (large digit read))
    · rfl
  rw [Literal.number?, List.dropWhile_cons_of_neg (by simp [kept]), ended]
  split
  · rename_i same
    exact absurd (List.cons.inj same).1 noMinus
  · rename_i same
    exact absurd (List.cons.inj same).1 noPlus
  · have unread : Literal.natural? .decimal (first :: more) = none := by
      rw [Literal.natural?, if_neg (by simp)]
      split
      · rfl
      · exact noDigit
    rw [Literal.dropBaseMark.eq_def]
    split
    · rename_i announced
      cases announced
    · rw [unread]
      rfl

end Identifiers

/-- An identifier is no number, unless it starts with an underscore. -/
theorem integer?_of_isIdentifier {name : List Char} (identifier : isIdentifier name = true)
    (noUnderscore : name.head? ≠ some '_') (trimmed : trim name = name) :
    Literal.integer? (.ofList name) = none := by
  cases name with
  | nil => cases identifier
  | cons c rest =>
      rw [isIdentifier, Bool.and_eq_true] at identifier
      obtain ⟨start, parts⟩ := identifier
      obtain ⟨_, noMinus, _, noZero⟩ := toLower_of_isIdentifierStart start
      have letter : Literal.lowered (c :: rest) = c.toLower :: Literal.lowered rest := by
        rw [Literal.lowered, List.filter_cons_of_pos (by simpa using noUnderscore)]
        rfl
      have decimal : Literal.splitBase (c.toLower :: Literal.lowered rest) =
          (.decimal, c.toLower :: Literal.lowered rest) := by
        generalize c.toLower = first at noZero
        rw [Literal.splitBase.eq_def]
        split
        iterate 3 exact absurd (List.cons.inj ‹_›).1 noZero
        rfl
      have unbroken : (c.toLower :: Literal.lowered rest).getLast? ≠ some '\n' := by
        intro last
        rw [← letter] at last
        obtain ⟨source, listed, same⟩ := Literal.mem_lowered (List.mem_of_getLast? last)
        rcases Literal.toLower_eq_or_mem source with small | capital
        · rw [small] at same
          subst same
          rcases List.mem_cons.mp listed with rfl | listed
          · exact absurd start (by decide)
          · exact absurd (List.all_eq_true.mp parts _ listed) (by decide)
        · have visible := (Literal.toLower_capitals source capital).1
          rw [same] at visible
          exact absurd visible (by decide)
      by_contra read
      obtain ⟨value, read⟩ := Option.ne_none_iff_exists'.mp read
      have found := Literal.integerChars?_eq_some read
      rw [String.toList_ofList, trimmed, letter, decimal] at found
      obtain ⟨suffix, _, whole⟩ := Literal.exists_dropSuffix_append unbroken
      dsimp only at found
      generalize Literal.dropSuffix (c.toLower :: Literal.lowered rest) = digits at found whole
      cases digits with
      | nil => cases found
      | cons first more =>
          obtain ⟨rfl, _⟩ := List.cons.inj whole
          rw [number?_of_isIdentifierStart start] at found
          cases found

/-! ## Values of variants and lengths of arrays -/

/-- The text is read as the number, which it denotes if it is tidy and only then. -/
def Literal.ReadAs (text : String) (value : Int) : Prop :=
  Literal.integer? text = some value ∧
    (Literal.Tidy (trim text.toList) ↔ Literal.Denotes text value)

theorem Literal.readAs {text : String} {value : Int} (read : Literal.integer? text = some value) :
    Literal.ReadAs text value :=
  ⟨read, Literal.tidy_iff_denotes read⟩

theorem Variant.exists_of_mem_number {variants : List Variant} {variant : Variant}
    (listed : variant ∈ Variant.number variants) :
    ∃ source ∈ variants, source.name = variant.name ∧ source.explicit = variant.explicit := by
  obtain ⟨⟨source, value⟩, paired, rfl⟩ := List.mem_map.mp listed
  exact ⟨source, (List.of_mem_zip paired).1, rfl, rfl⟩

/-- A value written behind a variant is read from its text. -/
theorem exists_of_mem_declaredVariants {variants : List (Syntax.Annotated Syntax.VariantItem)}
    {variant : Variant} (listed : variant ∈ declaredVariants variants) {value : Int}
    (explicit : variant.explicit = some value) :
    ∃ item ∈ variants, item.value.name.text = variant.name ∧
      ∃ text, item.value.value = some text ∧ Literal.ReadAs text value := by
  obtain ⟨source, member, named, same⟩ := Variant.exists_of_mem_number listed
  obtain ⟨item, inside, rfl⟩ := List.mem_map.mp member
  rw [explicit] at same
  obtain ⟨text, written, read⟩ := Option.bind_eq_some_iff.mp same
  exact ⟨item, inside, named, text, written, Literal.readAs read⟩

namespace TypeTable

variable {table : TypeTable} {token : String} {element length : List Char} {value : Int}

/-- The length of an array of bytes is what its text comes to. -/
theorem integer?_of_read_bytes (spelled : SpellsArray token.toList element length)
    (read : table.read token = .known (.bytes value)) :
    table.integer? (.ofList length) = some value := by
  rw [read_of_spellsArray spelled] at read
  split at read
  · split at read
    · rename_i found
      obtain ⟨rfl, _⟩ := Layout.array.inj (TypeToken.known.inj read)
      exact found
    · cases read
  · cases read

theorem read_of_integer? (spelled : SpellsArray token.toList ['u', '8'] length)
    (found : table.integer? (.ofList length) = some value) :
    table.read token = .known (.bytes value) := by
  rw [read_of_spellsArray spelled, if_pos (by decide), found]

theorem trim_length (spelled : SpellsArray token.toList element length) : trim length = length := by
  obtain ⟨_, behind, _, _, _, _, _, _, rfl⟩ := spelled
  exact trim_trim behind

theorem integer?_cases {text : String} (found : table.integer? text = some value) :
    Literal.ReadAs text value ∨ Literal.integer? text = none ∧
      ∃ name held, Qualified (trim text.toList) name ∧
        table.constants.lookup (.ofList name) = some held ∧ Literal.ReadAs held value := by
  rw [TypeTable.integer?] at found
  split at found
  · rename_i read
    obtain rfl := Option.some.inj found
    exact .inl (Literal.readAs read)
  · rename_i unread
    simp only [Option.bind_eq_bind, Option.bind_eq_some_iff] at found
    obtain ⟨name, qualified, held, looked, read⟩ := found
    exact .inr ⟨unread, name, held, qualifiedName?_trim_eq_some_iff.mp qualified, looked,
      Literal.readAs read⟩

end TypeTable

/-- An identifier has no qualifier in front. -/
theorem eq_of_qualified {name segment : List Char} (identifier : isIdentifier name = true)
    (qualified : Qualified name segment) : segment = name := by
  cases qualified with
  | word _ _ => rfl
  | @qualifier first rest _ nonempty _ _ =>
      obtain ⟨c, more, rfl⟩ := List.exists_cons_of_ne_nil nonempty
      rw [List.cons_append, isIdentifier, Bool.and_eq_true] at identifier
      exact absurd (List.all_eq_true.mp identifier.2 ':' (by simp)) (by decide)

/-- What is read as the value of a variant or as the length of an array is an integer literal, perhaps
that of a constant, and the number is the one that it denotes; but for the texts that are not tidy.  An
identifier stands for the constant of its name, unless it starts with an underscore. -/
theorem numbers_readAs (table : TypeTable) (token : String) :
    (∀ text value, Literal.integer? text = some value →
      (Literal.Tidy (trim text.toList) ↔ Literal.Denotes text value)) ∧
    (∀ variants, ∀ variant ∈ declaredVariants variants, ∀ value, variant.explicit = some value →
      ∃ item ∈ variants, item.value.name.text = variant.name ∧
        ∃ text, item.value.value = some text ∧ Literal.ReadAs text value) ∧
    (∀ element length value, SpellsArray token.toList element length →
      table.read token = .known (.bytes value) →
        Literal.ReadAs (.ofList length) value ∨ Literal.integer? (.ofList length) = none ∧
          ∃ name text, Qualified length name ∧ table.constants.lookup (.ofList name) = some text ∧
            Literal.ReadAs text value) ∧
    (∀ name, SpellsArray token.toList ['u', '8'] name →
      isIdentifier name = true → name.head? ≠ some '_' →
        (∀ value, table.read token = .known (.bytes value) →
          ∃ text, table.constants.lookup (.ofList name) = some text ∧ Literal.ReadAs text value) ∧
        ((∀ c ∈ name, isWordChar c = true) → ∀ text value,
          table.constants.lookup (.ofList name) = some text → Literal.integer? text = some value →
            table.read token = .known (.bytes value))) := by
  refine ⟨fun text value => Literal.tidy_iff_denotes, fun variants variant listed value explicit =>
    exists_of_mem_declaredVariants listed explicit, fun element length value spelled read => ?_,
    fun name spelled identifier noUnderscore => ⟨fun value read => ?_, ?_⟩⟩
  · have cases := TypeTable.integer?_cases (TypeTable.integer?_of_read_bytes spelled read)
    rwa [String.toList_ofList, TypeTable.trim_length spelled] at cases
  · have trimmed := TypeTable.trim_length spelled
    rcases TypeTable.integer?_cases (TypeTable.integer?_of_read_bytes spelled read) with
      ⟨number, _⟩ | ⟨_, segment, text, qualified, looked, readAs⟩
    · rw [integer?_of_isIdentifier identifier noUnderscore trimmed] at number
      cases number
    · rw [String.toList_ofList, trimmed] at qualified
      obtain rfl := eq_of_qualified identifier qualified
      exact ⟨text, looked, readAs⟩
  · intro letters text value looked read
    have trimmed := TypeTable.trim_length spelled
    apply TypeTable.read_of_integer? spelled
    have nonempty : name ≠ [] := by
      rintro rfl
      cases identifier
    have qualified := qualifiedName?_trim_eq_some_iff.mpr
      ((trimmed.symm ▸ Qualified.word nonempty letters : Qualified (trim name) name))
    rw [TypeTable.integer?, integer?_of_isIdentifier identifier noUnderscore trimmed,
      String.toList_ofList, qualified]
    simp only [Option.bind_eq_bind, Option.bind_some, looked, read]

/-! ### The length of an array by the name of a constant -/

def lengthTable : TypeTable where
  constants := [("MAX", "0x10"), ("_1", "5")]

theorem spellsArray_max : SpellsArray "[u8; MAX]".toList ['u', '8'] ['M', 'A', 'X'] :=
  arrayParts?_eq_some_iff.mp (by decide)

theorem numbers_readAs_max :
    Literal.integer? "0x10" = some 16 ∧ SpellsArray "[u8; MAX]".toList ['u', '8'] ['M', 'A', 'X'] ∧
      isIdentifier ['M', 'A', 'X'] = true ∧
      lengthTable.read "[u8; MAX]" = .known (.bytes 16) ∧
      (Literal.Tidy (trim "0x10".toList) ↔ Literal.Denotes "0x10" 16) := by
  have number : Literal.integer? "0x10" = some 16 := by decide
  have identifier : isIdentifier ['M', 'A', 'X'] = true := by decide
  obtain ⟨tidy, _, _, named⟩ := numbers_readAs lengthTable "[u8; MAX]"
  have read := (named _ spellsArray_max identifier (by decide)).2
    (forall_mem_of_all (by decide)) "0x10" 16 (by decide) number
  exact ⟨number, spellsArray_max, identifier, read, tidy _ _ number⟩

/-- An identifier that is an underscore in front of a digit is read as the digit, also where it is the
name of a constant. -/
theorem not_denotes_underscore :
    isIdentifier ['_', '1'] = true ∧ Literal.integer? "_1" = some 1 ∧ ¬ Literal.Denotes "_1" 1 ∧
      SpellsArray "[u8; _1]".toList ['u', '8'] ['_', '1'] ∧
      lengthTable.constants.lookup "_1" = some "5" ∧ Literal.integer? "5" = some 5 ∧
      lengthTable.read "[u8; _1]" = .known (.bytes 1) := by
  have spelled : SpellsArray "[u8; _1]".toList ['u', '8'] ['_', '1'] :=
    arrayParts?_eq_some_iff.mp (by decide)
  refine ⟨by decide, by decide, ?_, spelled, by decide, by decide,
    TypeTable.read_of_integer? spelled (by decide)⟩
  rintro ⟨number, _, literal⟩
  exact literal.tidy.first (by decide)

end ProgramIdl
