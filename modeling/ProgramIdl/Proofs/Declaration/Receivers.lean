import ProgramIdl.Proofs.Declaration.Substitution
import ProgramIdl.Proofs.Text.Fronts

/-!
# Receivers of method calls

A receiver stands for a field of `self` if its compact text starts with the field, once the local name
at its front is replaced.  So what counts is the word at the front of its text and what follows that
word: a local bound to a field of `self` stands for the field, and a name that is bound to nothing
stands for nothing.
-/

set_option autoImplicit false

namespace ProgramIdl

open ProgramIdl.Text
open ProgramIdl.Syntax

/-! ## Bound names -/

section Bound

variable {body : List Fragment} {name value : String} {stop : Nat}

/-- No local of a body has a name. -/
def Unbound (body : List Fragment) (name : String) : Prop :=
  ∀ value stop, Fragment.binding name value stop ∉ body

/-- One statement of a body, which ends at some place, binds a local, and no other one does. -/
structure BoundOnce (body : List Fragment) (name value : String) (stop : Nat) : Prop where
  bound : .binding name value stop ∈ body
  once : ∀ other place, .binding name other place ∈ body → other = value ∧ place = stop

theorem boundAt?_of_unbound (unbound : Unbound body name) (place : Nat) :
    boundAt? (bindings body) name place = none := by
  rw [boundAt?, List.findRev?_eq_find?_reverse, Option.map_eq_none_iff, List.find?_eq_none]
  intro binding listed found
  obtain ⟨other, value, stop, written, named, _, _⟩ := mem_bindings (List.mem_reverse.mp listed)
  rw [Bool.and_eq_true, decide_eq_true_eq, decide_eq_true_eq] at found
  obtain rfl : other = name := named.symm.trans found.2
  exact unbound value stop written

theorem BoundOnce.boundAt? (bound : BoundOnce body name value stop) (other : name ≠ "_")
    (present : compact value ≠ "") {place : Nat} (earlier : stop ≤ place) :
    boundAt? (bindings body) name place = some (compact value) := by
  have listed : ⟨name, compact value, present, stop⟩ ∈ bindings body := by
    refine List.mem_filterMap.mpr ⟨_, bound.bound, ?_⟩
    dsimp only
    rw [dif_pos present, if_neg other]
  have found : ((bindings body).reverse.find? fun binding =>
      binding.stop ≤ place && binding.name = name).isSome := by
    rw [List.find?_isSome]
    exact ⟨_, List.mem_reverse.mpr listed, by simp [earlier]⟩
  obtain ⟨binding, here⟩ := Option.isSome_iff_exists.mp found
  have fits := List.find?_some here
  obtain ⟨named, written, place, member, sameName, sameValue, _⟩ :=
    mem_bindings (List.mem_reverse.mp (List.mem_of_find?_eq_some here))
  rw [Bool.and_eq_true, decide_eq_true_eq, decide_eq_true_eq] at fits
  obtain rfl : named = name := sameName.symm.trans fits.2
  obtain ⟨rfl, _⟩ := bound.once written place member
  rw [ProgramIdl.boundAt?, List.findRev?_eq_find?_reverse, here, Option.map_some, sameValue]

end Bound

/-! ## Names at the front of a text -/

/-- A name that is looked up as one word: it starts with a letter of ASCII or an underscore, and is
more than an underscore. -/
structure IsLocalName (name : List Char) : Prop where
  start : ∃ c rest, name = c :: rest ∧ (c.isAlpha || c = '_') = true
  letters : ∀ c ∈ name, isWordChar c = true
  other : name ≠ ['_']

theorem IsLocalName.ne_nil {name : List Char} (isName : IsLocalName name) : name ≠ [] := by
  obtain ⟨c, rest, rfl, _⟩ := isName.start
  exact List.cons_ne_nil c rest

/-- Whether what follows a name keeps it from being a local one: a call, a macro call or a path. -/
def isSealed (text : List Char) : Bool :=
  text.head? = some '!' || text.head? = some '(' || [':', ':'].isPrefixOf text

theorem leadingName?_of_start {text : List Char} {c : Char} (head : text.head? = some c)
    (start : (c.isAlpha || c = '_') = true) :
    leadingName? text =
      if isSealed (text.dropWhile isWordChar) then none
      else some ⟨[], text.takeWhile isWordChar, text.dropWhile isWordChar⟩ := by
  obtain ⟨rest, rfl⟩ := List.head?_eq_some_iff.mp head
  have unsigned : (c :: rest).head? ≠ some '&' := by
    rintro same
    obtain rfl := Option.some.inj same
    cases start
  rw [leadingName?, splitReference_eq_of_head? unsigned]
  dsimp only
  rw [if_pos start]
  rfl

/-- The local name at the front of a text is the word at its front. -/
theorem frontName?_eq {text : String} (unsigned : text.toList.head? ≠ some '&') {name : String}
    (front : frontName? text = some name) :
    name = .ofList (text.toList.takeWhile isWordChar) ∧ text.toList.takeWhile isWordChar ≠ [] := by
  obtain ⟨leading, found, rfl⟩ := Option.map_eq_some_iff.mp front
  obtain ⟨c, rest, split, start, name, _⟩ := exists_of_leadingName? found
  rw [splitReference_eq_of_head? unsigned] at split
  have ascii : isAsciiWordChar c = true := by
    rw [isAsciiWordChar, Char.isAlphanum, Bool.or_right_comm, start, Bool.true_or]
  have whole : text.toList = c :: rest := (Prod.mk.inj split).2
  rw [name, whole, List.takeWhile_cons_of_pos (isWordChar_of_ascii ascii)]
  exact ⟨rfl, List.cons_ne_nil _ _⟩

/-! ## Fields of `self` -/

/-- A field of `self` that other text follows. -/
theorem selfField?_of_field {field : List Char} (some_ : field ≠ [])
    (letters : ∀ c ∈ field, isWordChar c = true) {rest : List Char} (stops : StopsWord rest) :
    selfField? ("self.".toList ++ (field ++ rest)) = some (.ofList field) := by
  have flush : Flush ("self.".toList ++ (field ++ rest)) := by
    intro c head
    obtain rfl := Option.some.inj head
    decide
  have prefixed : "self.".toList.isPrefixOf? ("self.".toList ++ (field ++ rest)) =
      some (field ++ rest) := List.isPrefixOf?_eq_some_iff_append_eq.mpr rfl
  have unsigned : ("self.".toList ++ (field ++ rest)).head? ≠ some '&' := nofun
  rw [selfField?, if_neg unsigned, trimStart_of_flush flush, prefixed]
  dsimp only
  rw [takeWhile_word letters stops, if_neg (by simpa using some_)]

theorem isWordChar_of_mem_self : ∀ c ∈ "self".toList, isWordChar c = true :=
  forall_mem_of_all (by decide)

theorem takeWhile_self (rest : List Char) :
    ("self".toList ++ '.' :: rest).takeWhile isWordChar = "self".toList :=
  takeWhile_word isWordChar_of_mem_self (stopsWord_cons (by decide))

theorem dropWhile_self (rest : List Char) :
    ("self".toList ++ '.' :: rest).dropWhile isWordChar = '.' :: rest :=
  dropWhile_word isWordChar_of_mem_self (stopsWord_cons (by decide))

/-- A text that starts with no field of `self`. -/
theorem selfField?_eq_none {text : List Char} (flush : Flush text) (unsigned : text.head? ≠ some '&')
    (other : text.takeWhile isWordChar = "self".toList →
      (text.dropWhile isWordChar).head? ≠ some '.') :
    selfField? text = none := by
  rw [selfField?, if_neg unsigned, trimStart_of_flush flush]
  cases found : "self.".toList.isPrefixOf? text with
  | none => rfl
  | some rest =>
      obtain rfl := (List.isPrefixOf?_eq_some_iff_append_eq.mp found).symm
      have same : "self.".toList ++ rest = "self".toList ++ '.' :: rest := rfl
      rw [same, takeWhile_self, dropWhile_self] at other
      exact absurd rfl (other rfl)

/-! ## Receivers -/

/-- The field of `self` that a receiver stands for at a place. -/
def standsFor? (body : List Fragment) (start : Nat) (receiver : String) : Option String :=
  selfField? (resolve (bindings body) start (compact receiver)).toList

section Receivers

variable {body : List Fragment} {place : Nat} {text : String}

theorem compact_unsigned (flush : Flush text.toList) (unsigned : text.toList.head? ≠ some '&') :
    (compact text).toList.head? ≠ some '&' := by
  rw [compact, String.toList_ofList, compactChars_eq_squeeze, trimStart_of_flush flush]
  cases chars : text.toList with
  | nil => decide
  | cons c rest =>
      rw [chars] at unsigned
      have visible : isBlank c = false := flush c (by rw [chars]; rfl)
      rcases head?_squeeze_cons visible rest with space | same
      · rw [space]
        decide
      · rw [same]
        exact unsigned

/-- A text whose front is bound to nothing stands for itself. -/
theorem resolveSteps_of_free {free : String}
    (unbound : ∀ name, frontName? free = some name → Unbound body name) (steps : Nat) :
    resolveSteps (bindings body) place steps free = free :=
  resolveSteps_of_unbound (fun name front => boundAt?_of_unbound (unbound name front) place) steps

/-- A receiver stands for no field if the word at its front is bound to nothing, or cannot be a
local name. -/
theorem standsFor?_of_free (flush : Flush text.toList) (unsigned : text.toList.head? ≠ some '&')
    (free : Unbound body (.ofList (text.toList.takeWhile isWordChar)) ∨
      text.toList.takeWhile isWordChar = [] ∨
        isSealed (squeeze (text.toList.dropWhile isWordChar)) = true)
    (other : text.toList.takeWhile isWordChar = "self".toList →
      (squeeze (text.toList.dropWhile isWordChar)).head? ≠ some '.') :
    standsFor? body place text = none := by
  have word := takeWhile_compactChars flush
  have behind := dropWhile_compactChars flush
  have unsignedCompact := compact_unsigned flush unsigned
  have flushCompact := compact_flush text
  have chars : (compact text).toList = compactChars text.toList := String.toList_ofList
  rw [standsFor?, resolve, resolveSteps_of_free]
  · refine selfField?_eq_none flushCompact unsignedCompact ?_
    rw [chars, word, behind]
    exact other
  · intro name front
    obtain ⟨same, some_⟩ := frontName?_eq unsignedCompact front
    rw [chars, word] at same some_
    rcases free with unbound | none | closed
    · exact same ▸ unbound
    · exact absurd none some_
    · obtain ⟨leading, found, _⟩ := Option.map_eq_some_iff.mp front
      obtain ⟨c, rest, split, start, _⟩ := exists_of_leadingName? found
      rw [splitReference_eq_of_head? unsignedCompact] at split
      have head : (compact text).toList.head? = some c := by rw [(Prod.mk.inj split).2]; rfl
      rw [leadingName?_of_start head start, chars, behind, if_pos closed] at found
      cases found

/-- The text of a field of `self`, with blanks around the point. -/
structure IsSelfField (text field : List Char) : Prop where
  spelled : ∃ before behind, Blank before ∧ Blank behind ∧
    text = "self".toList ++ (before ++ '.' :: (behind ++ field))
  letters : ∀ c ∈ field, isWordChar c = true
  ne_nil : field ≠ []

theorem IsSelfField.compactChars {spelling field rest : List Char}
    (isField : IsSelfField spelling field) :
    Text.compactChars (spelling ++ rest) = "self.".toList ++ (field ++ squeeze rest) := by
  obtain ⟨before, behind, blankBefore, blankBehind, rfl⟩ := isField.spelled
  have letters := isField.letters
  have word := squeeze_word isField.ne_nil letters rest
  cases field with
  | nil => exact absurd rfl isField.ne_nil
  | cons c more =>
      have point :=
        squeeze_member blankBefore blankBehind (letters c List.mem_cons_self) (more ++ rest)
      rw [List.append_assoc, compactChars_word (by decide) isWordChar_of_mem_self,
        List.append_assoc, List.cons_append, List.append_assoc, List.cons_append, point,
        ← List.cons_append, word]
      rfl

section Self

variable (selfFree : Unbound body "self")

include selfFree

/-- A compact text that starts with a field of `self` stands for itself. -/
theorem resolveSteps_of_selfField (field rest : List Char) (steps : Nat) :
    resolveSteps (bindings body) place steps (.ofList ("self.".toList ++ (field ++ rest))) =
      .ofList ("self.".toList ++ (field ++ rest)) := by
  refine resolveSteps_of_free (fun name front => ?_) steps
  have chars : (String.ofList ("self.".toList ++ (field ++ rest))).toList =
      "self".toList ++ '.' :: (field ++ rest) := String.toList_ofList
  obtain ⟨same, _⟩ := frontName?_eq (by rw [chars]; exact nofun) front
  rw [chars, takeWhile_self] at same
  exact same ▸ selfFree

/-- A field of `self` stands for itself. -/
theorem standsFor?_of_selfField {spelling field rest : List Char}
    (isField : IsSelfField spelling field) (split : text.toList = spelling ++ rest)
    (stops : StopsWord rest) :
    standsFor? body place text = some (.ofList field) := by
  rw [standsFor?, compact, split, isField.compactChars, resolve,
    resolveSteps_of_selfField selfFree, String.toList_ofList]
  exact selfField?_of_field isField.ne_nil isField.letters stops.squeeze

/-- A local that is bound to a field of `self` stands for that field. -/
theorem standsFor?_of_local {name rest : List Char} {value : String} {stop : Nat}
    (isName : IsLocalName name) (bound : BoundOnce body (.ofList name) value stop)
    (earlier : stop ≤ place) {field : List Char} (isField : IsSelfField value.toList field)
    (split : text.toList = name ++ rest) (stops : StopsWord rest)
    (unsealed : isSealed (squeeze rest) = false) :
    standsFor? body place text = some (.ofList field) := by
  have compactValue : compact value = .ofList ("self.".toList ++ field) := by
    have here := @IsSelfField.compactChars _ _ [] isField
    have none : squeeze [] = [] := rfl
    rw [List.append_nil, none, List.append_nil] at here
    rw [compact, here]
  have present : compact value ≠ "" := by
    rw [compactValue]
    simp
  have compactText : (compact text).toList = name ++ squeeze rest := by
    rw [compact, String.toList_ofList, split, compactChars_word isName.ne_nil isName.letters]
  have word := takeWhile_word isName.letters stops.squeeze
  have behind := dropWhile_word isName.letters stops.squeeze
  have leading : leadingName? (compact text).toList = some ⟨[], name, squeeze rest⟩ := by
    obtain ⟨c, more, rfl, start⟩ := isName.start
    rw [compactText, leadingName?_of_start (c := c) rfl start, behind, word,
      if_neg (by simp [unsealed])]
  have notLone : String.ofList name ≠ "_" := by
    intro same
    exact isName.other (by simpa using congrArg String.toList same)
  have replaced : replaceFront (compact text) (compact value) =
      .ofList ("self.".toList ++ (field ++ squeeze rest)) := by
    rw [replaceFront, leading, compactValue, ← String.toList_inj]
    simp only [String.toList_append, String.toList_ofList, List.nil_append, List.append_assoc]
  have substituted : substitute? (bindings body) place (compact text) =
      some (.ofList ("self.".toList ++ (field ++ squeeze rest))) := by
    rw [substitute?_eq, frontName?, leading, Option.map_some, Option.bind_some,
      bound.boundAt? notLone present earlier, Option.map_some, replaced]
  rw [standsFor?, resolve, maxBindingSteps, resolveSteps, substituted]
  dsimp only
  rw [resolveSteps_of_selfField selfFree, String.toList_ofList]
  exact selfField?_of_field isField.ne_nil isField.letters stops.squeeze

end Self

end Receivers

end ProgramIdl
