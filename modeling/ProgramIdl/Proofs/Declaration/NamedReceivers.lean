import ProgramIdl.Proofs.Declaration.Receivers
import ProgramIdl.Proofs.Syntax.Chains.Roots

/-!
# Receivers that start with a name

A receiver that starts with a name stands for no field if no local has the name, or if what stands
behind the name shows that it is no local: it calls a function or a macro, or goes on with a path.  It
has to stand close behind, though, since a blank that is left in front of a call hides it.
-/

set_option autoImplicit false

namespace ProgramIdl

open ProgramIdl.Text
open ProgramIdl.Syntax

/-- What stands behind a name calls a function or a macro, or goes on with a path. -/
def Seals (trees : List Tree) : Prop :=
  BeginsWith '(' trees ∨ BeginsWith '!' trees ∨ startsWithSymbol [':', ':'] trees = true

/-- A name that is one word, with what follows it close behind: no blank or comment of the source keeps
them apart once the text is compact. -/
def Tight (trees : List Tree) : Prop :=
  ∃ name next rest, trees = .leaf name :: next :: rest ∧ (∀ c ∈ name.text, isWordChar c = true) ∧
    (next.first.lead = [] ∨
      next.isMark ':' = true ∧ Blank (next.first.lead.map Lexeme.text).flatten)

section Named

variable {body : List Fragment} {start : Nat} {name : Token} {tail : List Tree}

theorem isSealed_of_head? {text : List Char} (other : ∀ c ∈ text.head?, c ∉ ['!', '(', ':']) :
    isSealed text = false := by
  cases text with
  | nil => rfl
  | cons c rest =>
      have here := other c rfl
      simp only [List.mem_cons, not_or] at here
      have noColon : (':' == c) = false := by simpa using Ne.symm here.2.2.1
      simp [isSealed, List.isPrefixOf, here, noColon]

/-- What follows a tight name seals it. -/
theorem Tight.isSealed (tight : Tight (.leaf name :: tail)) (edged : EdgedTrees tail)
    (seals : Seals tail) : isSealed (squeeze (Tree.spelled tail)) = true := by
  obtain ⟨_, next, rest, same, _, close⟩ := tight
  obtain ⟨_, rfl⟩ := List.cons.inj same
  have single {c : Char} (begins : BeginsWith c (next :: rest)) (noColon : c ≠ ':')
      (visible : isBlank c = false) (absent : ∀ mark ∈ closedMarks, c ∉ mark) :
      ∃ more, squeeze (Tree.spelled (next :: rest)) = c :: more := by
    obtain ⟨_, _, split, text⟩ := begins
    obtain ⟨rfl, rfl⟩ := List.cons.inj split
    obtain ⟨others, tokens⟩ := exists_allTokens_cons next rest
    rcases close with joint | ⟨colon, _⟩
    · have alone := squeeze_visible visible absent
        (others.map Token.spelling).flatten
      rw [Tree.spelled, tokens, List.map_cons, List.flatten_cons, Token.spelling, joint, text]
      exact ⟨_, alone⟩
    · obtain ⟨token, rfl, isColon⟩ := exists_of_isMark colon
      have other := (edged.text_of_mark isColon).1
      exact absurd (List.cons.inj (text.symm.trans other)).1 noColon
  rcases seals with call | macroCall | colons
  · obtain ⟨more, squeezed⟩ := single call (by decide) (by decide) (by decide)
    rw [squeezed]
    rfl
  · obtain ⟨more, squeezed⟩ := single macroCall (by decide) (by decide) (by decide)
    rw [squeezed]
    rfl
  · obtain ⟨_, _, behind, split, _, spelled⟩ := exists_spelled_of_colons edged colons
    obtain ⟨rfl, rfl⟩ := List.cons.inj split
    have blank : Blank (next.first.lead.map Lexeme.text).flatten := by
      rcases close with joint | ⟨_, blank⟩
      · rw [joint]
        exact List.forall_mem_nil _
      · exact blank
    obtain ⟨more, squeezed⟩ := exists_squeeze_colons blank behind
    rw [spelled, squeezed]
    simp [isSealed]

/-- A receiver that starts with an unbound name, or with a tight one, stands for no field. -/
theorem standsFor?_of_name (edged : EdgedTrees (.leaf name :: tail)) (kind : name.kind = .word)
    (stops : StopsWord (Tree.spelled tail))
    (free : Unbound body (.ofList (name.text.takeWhile isWordChar)) ∨
      (∀ c ∈ name.text, isWordChar c = true) ∧ isSealed (squeeze (Tree.spelled tail)) = true)
    (apart : name.name = "self" → (squeeze (Tree.spelled tail)).head? ≠ some '.') :
    standsFor? body start (sourceText (.leaf name :: tail)) = none := by
  have visible := (edged.tokens name List.mem_cons_self).visible_of_word kind
  have chars := toList_sourceText name tail
  have inName : ∀ c ∈ (sourceText (.leaf name :: tail)).toList.head?, c ∈ name.text := by
    rw [chars, List.head?_append_of_ne_nil _ name.text_ne]
    exact fun c => List.mem_of_head?
  have word : (sourceText (.leaf name :: tail)).toList.takeWhile isWordChar =
      name.text.takeWhile isWordChar := by rw [chars, stops.takeWhile_append]
  have behind : (sourceText (.leaf name :: tail)).toList.dropWhile isWordChar =
      name.text.dropWhile isWordChar ++ Tree.spelled tail := by rw [chars, stops.dropWhile_append]
  refine standsFor?_of_free (fun c head => (visible c (inName c head)).1)
    (fun head => (visible _ (inName _ head)).2.2 rfl) ?_ ?_
  · rw [word, behind]
    rcases free with unbound | ⟨letters, closed⟩
    · exact .inl unbound
    · refine .inr (.inr ?_)
      rwa [List.dropWhile_eq_nil_iff.mpr letters, List.nil_append]
  · rw [word, behind]
    intro isSelf
    refine head?_squeeze_ne_point (fun c listed => ?_) fun whole => apart ?_
    · have seen := visible c ((List.dropWhile_suffix isWordChar).subset listed)
      exact ⟨seen.1, seen.2.1⟩
    · have split := List.takeWhile_append_dropWhile (p := isWordChar) (l := name.text)
      rw [whole, List.append_nil, isSelf] at split
      rw [Token.name, ← split]
      rfl

theorem Seals.append {trees : List Tree} (seals : Seals trees) (others : List Tree) :
    Seals (trees ++ others) := by
  rcases seals with call | macroCall | colons
  · exact .inl (call.append others)
  · exact .inr (.inl (macroCall.append others))
  · obtain ⟨first, second, rest, rfl, stays⟩ := exists_of_startsWithPair colons
    exact .inr (.inr (stays (rest ++ others)))

theorem Seals.exists_beginsWith {trees : List Tree} (seals : Seals trees) (edged : EdgedTrees trees) :
    ∃ c ∈ ['(', '!', ':'], BeginsWith c trees := by
  rcases seals with call | macroCall | colons
  · exact ⟨'(', by decide, call⟩
  · exact ⟨'!', by decide, macroCall⟩
  · obtain ⟨tree, others, _, rfl, text, _⟩ := exists_spelled_of_colons edged colons
    exact ⟨':', by decide, tree, others, rfl, text⟩

theorem Seals.stopsWord {trees : List Tree} (seals : Seals trees) (edged : EdgedTrees trees) :
    StopsWord (Tree.spelled trees) := by
  obtain ⟨c, listed, begins⟩ := seals.exists_beginsWith edged
  have marks : ∀ c ∈ ['(', '!', ':'], isWordChar c = false := forall_mem_of_all (by decide)
  exact begins.stopsWord edged (marks c listed)

/-- The word that some trees start with: all of the name at their front, if it is made of the letters
of words. -/
def frontWord : List Tree → String
  | .leaf name :: _ => .ofList (name.text.takeWhile isWordChar)
  | _ => ""

/-- A receiver that starts with a call, a macro call or a path stands for no field. -/
theorem standsFor?_of_seals {others : List Tree}
    (edged : EdgedTrees (.leaf name :: (tail ++ others))) (kind : name.kind = .word)
    (seals : Seals tail)
    (free : Unbound body (frontWord [.leaf name]) ∨ Tight (.leaf name :: (tail ++ others))) :
    standsFor? body start (sourceText (.leaf name :: tail)) = none := by
  have edgedTail : EdgedTrees tail := edged.tail.left
  have edgedFront : EdgedTrees (.leaf name :: tail) := edged.left
  refine standsFor?_of_name edgedFront kind
    (seals.stopsWord edgedTail) ?_ ?_
  · rcases free with unbound | ⟨_, next, rest, same, letters, close⟩
    · exact .inl unbound
    · obtain ⟨nameSame, behind⟩ := List.cons.inj same
      obtain rfl := Tree.leaf.inj nameSame
      obtain ⟨c, _, tree, more, rfl, _⟩ := seals.exists_beginsWith edgedTail
      obtain rfl := (List.cons.inj behind).1
      exact .inr ⟨letters, Tight.isSealed ⟨name, tree, more, rfl, letters, close⟩ edgedTail seals⟩
  · obtain ⟨c, listed, begins⟩ := seals.exists_beginsWith edgedTail
    have visible : ∀ c ∈ ['(', '!', ':'], isBlank c = false ∧ c ≠ '.' :=
      forall_mem_of_all (by decide)
    intro _ head
    rcases begins.head?_squeeze edgedTail (visible c listed).1 _ head with
      same | space | slash | blank
    · exact (visible c listed).2 same.symm
    · cases space
    · cases slash
    · cases blank

/-- A receiver that starts with a mark stands for no field. -/
theorem standsFor?_of_mark {first : Tree} (edged : EdgedTrees (first :: tail))
    (mark : ∃ c ∈ ['<', ':'], first.isMark c = true) :
    standsFor? body start (sourceText (first :: tail)) = none := by
  obtain ⟨c, listed, isMark⟩ := mark
  obtain ⟨token, rfl, kind⟩ := exists_of_isMark isMark
  have text := (edged.text_of_mark kind).1
  have marks : ∀ c ∈ ['<', ':'], isBlank c = false ∧ c ≠ '&' ∧ isWordChar c = false :=
    forall_mem_of_all (by decide)
  obtain ⟨visible, unsigned, noLetter⟩ := marks c listed
  have chars : (sourceText (.leaf token :: tail)).toList = c :: Tree.spelled tail := by
    rw [toList_sourceText, text]
    rfl
  have flush : Flush (sourceText (.leaf token :: tail)).toList := by
    rw [chars]
    intro d found
    obtain rfl := Option.some.inj found
    exact visible
  have word : (sourceText (.leaf token :: tail)).toList.takeWhile isWordChar = [] := by
    rw [chars, List.takeWhile_cons_of_neg (by simp [noLetter])]
  refine standsFor?_of_free flush ?_ (.inr (.inl word)) ?_
  · rw [chars]
    exact fun same => unsigned (Option.some.inj same)
  · rw [word]
    exact nofun

end Named

end ProgramIdl
