import ProgramIdl.Proofs.Syntax.Agreement
import ProgramIdl.Proofs.Syntax.Chains.Reading
import ProgramIdl.Proofs.Syntax.Edges

/-!
# Roots of chains

A chain may start with a name, with a function that is called, or with a macro call.  What stands
behind the first name of any of them is told by its first character, and so is each link of a chain.
-/

set_option autoImplicit false

namespace ProgramIdl.Syntax

open ProgramIdl.Text
open ProgramIdl.Syntax.Parser
open ProgramIdl.Syntax.Grammar

/-! ## Texts of trees -/

theorem EdgedTrees.left {trees others : List Tree} (edged : EdgedTrees (trees ++ others)) :
    EdgedTrees trees := by
  refine ⟨fun token listed => edged.tokens token ?_, allOpened_iff.mpr fun tree listed => ?_⟩
  · rw [allTokens_append]
    exact List.mem_append_left _ listed
  · exact allOpened_iff.mp edged.opened tree (List.mem_append_left _ listed)

theorem EdgedTrees.right {trees others : List Tree} (edged : EdgedTrees (trees ++ others)) :
    EdgedTrees others := by
  refine ⟨fun token listed => edged.tokens token ?_, allOpened_iff.mpr fun tree listed => ?_⟩
  · rw [allTokens_append]
    exact List.mem_append_right _ listed
  · exact allOpened_iff.mp edged.opened tree (List.mem_append_right _ listed)

theorem EdgedTrees.tail {tree : Tree} {trees : List Tree} (edged : EdgedTrees (tree :: trees)) :
    EdgedTrees trees :=
  @EdgedTrees.right [tree] trees edged

theorem exists_allTokens_cons (tree : Tree) (trees : List Tree) :
    ∃ others, Tree.allTokens (tree :: trees) = tree.first :: others := by
  cases tree with
  | leaf token => exact ⟨_, rfl⟩
  | group delimiter opening inner closing => exact ⟨_, rfl⟩

/-- Further trees only add to the text of some. -/
theorem toList_sourceText_append (tree : Tree) (trees others : List Tree) :
    (sourceText (tree :: trees ++ others)).toList =
      (sourceText (tree :: trees)).toList ++ Tree.spelled others := by
  obtain ⟨tokens, same⟩ := exists_allTokens_cons tree trees
  rw [sourceText, sourceText, allTokens_append, same]
  simp [Tree.spelled]

theorem EdgedTrees.text_of_mark {token : Token} {trees : List Tree}
    (edged : EdgedTrees (.leaf token :: trees)) {c : Char} (kind : token.kind = .mark c) :
    token.text = [c] ∧ isWordChar c = false :=
  (edged.tokens token List.mem_cons_self).mark kind

theorem EdgedTrees.text_of_group {delimiter : Delimiter} {opening closing : Token}
    {inner trees : List Tree} (edged : EdgedTrees (.group delimiter opening inner closing :: trees)) :
    opening.text = [delimiter.openingChar] :=
  (edged.tokens opening List.mem_cons_self).opening edged.opened.1.1

/-! ## Links -/

theorem Link.ReadBy.beginsWith_of_call {g : Grammar} {parentheses : Tree}
    {arguments : List (String × List Fragment)} (read : (Link.call parentheses arguments).ReadBy g)
    (edged : EdgedTrees [parentheses]) : BeginsWith '(' [parentheses] := by
  cases read with
  | call found =>
      obtain ⟨opening, inner, closing, same, _⟩ := exists_of_inside found
      obtain rfl := (List.cons.inj same).1
      exact ⟨_, _, rfl, edged.text_of_group⟩

/-- A link is told by its first character. -/
theorem Link.ReadBy.exists_beginsWith {g : Grammar} {link : Link} (read : link.ReadBy g)
    (edged : EdgedTrees link.trees) :
    ∃ c, BeginsWith c link.trees ∧ (c ∈ ['?', '.', '['] ∨
      c = '(' ∧ ∃ parentheses arguments, link = .call parentheses arguments) := by
  cases read with
  | question kind => exact ⟨'?', ⟨_, _, rfl, (edged.text_of_mark kind).1⟩, .inl (by decide)⟩
  | member kind => exact ⟨'.', ⟨_, _, rfl, (edged.text_of_mark kind).1⟩, .inl (by decide)⟩
  | generic kind _ => exact ⟨'.', ⟨_, _, rfl, (edged.text_of_mark kind).1⟩, .inl (by decide)⟩
  | index found =>
      obtain ⟨opening, inner, closing, same, _⟩ := exists_of_inside found
      obtain rfl := (List.cons.inj same).1
      exact ⟨'[', ⟨_, _, rfl, edged.text_of_group⟩, .inl (by decide)⟩
  | call found => exact ⟨'(', (Link.ReadBy.call found).beginsWith_of_call edged, .inr ⟨rfl, _, _, rfl⟩⟩

/-- The first of some links is a call. -/
def CallsFirst (links : List Link) : Prop :=
  ∃ parentheses arguments rest, links = .call parentheses arguments :: rest

theorem CallsFirst.append {links : List Link} (called : CallsFirst links) (others : List Link) :
    CallsFirst (links ++ others) := by
  obtain ⟨parentheses, arguments, rest, rfl⟩ := called
  exact ⟨parentheses, arguments, rest ++ others, rfl⟩

/-- Some links begin with a mark, and none that a call begins with if their first one is no call. -/
theorem exists_beginsWith_of_links {g : Grammar} {links : List Link} (some_ : links ≠ [])
    (read : ∀ link ∈ links, link.ReadBy g) (edged : EdgedTrees (links.flatMap Link.trees)) :
    ∃ c, BeginsWith c (links.flatMap Link.trees) ∧
      (c ∈ ['?', '.', '['] ∨ c = '(' ∧ CallsFirst links) := by
  cases links with
  | nil => exact absurd rfl some_
  | cons link rest =>
      rw [List.flatMap_cons] at edged ⊢
      obtain ⟨c, begins, kinds⟩ :=
        (read link List.mem_cons_self).exists_beginsWith edged.left
      refine ⟨c, begins.append _, kinds.imp_right ?_⟩
      rintro ⟨rfl, parentheses, arguments, rfl⟩
      exact ⟨rfl, parentheses, arguments, rest, rfl⟩

/-! ## Paths and macro calls -/

theorem read_of_all {α : Type} {parser : Parser α} {trees : List Tree} {value : α}
    (read : all parser trees = some value) : parser trees = some (value, []) := by
  unfold all at read
  split at read
  · rename_i found
    obtain rfl := Option.some.inj read
    exact found
  · cases read

theorem exists_of_isMark {tree : Tree} {c : Char} (mark : tree.isMark c = true) :
    ∃ token, tree = .leaf token ∧ token.kind = .mark c := by
  cases tree with
  | leaf token => exact ⟨token, rfl, of_decide_eq_true mark⟩
  | group _ _ _ _ => cases mark

/-- The text of some trees with a double colon in front. -/
theorem exists_spelled_of_colons {trees : List Tree} (edged : EdgedTrees trees)
    (colons : startsWithSymbol [':', ':'] trees = true) :
    ∃ tree others rest, trees = tree :: others ∧ tree.first.text = [':'] ∧
      Tree.spelled trees = (tree.first.lead.map Lexeme.text).flatten ++ ':' :: ':' :: rest := by
  match trees, colons with
  | first :: second :: others, colons =>
      have both : first.isMark ':' = true ∧ second.first.isJoint = true ∧
          second.isMark ':' = true := by simpa [startsWithSymbol] using colons
      obtain ⟨isFirst, joint, isSecond⟩ := both
      obtain ⟨colon, rfl, kind⟩ := exists_of_isMark isFirst
      obtain ⟨further, rfl, kind'⟩ := exists_of_isMark isSecond
      have text := (edged.text_of_mark kind).1
      have text' := (edged.tail.text_of_mark kind').1
      have noLead : further.lead = [] := List.isEmpty_iff.mp joint
      refine ⟨.leaf colon, .leaf further :: others, Tree.spelled others, rfl, text, ?_⟩
      simp [Tree.spelled, Tree.allTokens, Tree.tokens, Token.spelling, Tree.first, text, text', noLead]
  | [first], colons => simp [startsWithSymbol] at colons

/-- What stands behind the first name of a path. -/
theorem front_of_plainPath {trees rest : List Tree} (read : plainPath trees = some ((), rest)) :
    ∃ first more, trees = first :: more ∧ (first.isMark ':' = true ∨
      ∃ name, first = .leaf name ∧ name.kind = .word ∧
        (more = rest ∨ startsWithSymbol [':', ':'] more = true)) := by
  obtain ⟨⟨colons, left⟩, colonsRead, atSegment⟩ := Option.bind_eq_some_iff.mp read
  obtain ⟨⟨name, behind⟩, segmentRead, furtherRead⟩ := Option.bind_eq_some_iff.mp atSegment
  by_cases starts : startsWithSymbol [':', ':'] trees = true
  · obtain ⟨first, second, others, rfl, _⟩ := exists_of_startsWithPair starts
    have isMark : first.isMark ':' = true := by
      simp only [startsWithSymbol, Bool.and_eq_true] at starts
      exact starts.1
    exact ⟨first, second :: others, rfl, .inl isMark⟩
  · have missing : symbol "::" trees = none := if_neg starts
    obtain rfl : trees = left := by
      simp only [maybe, missing] at colonsRead
      exact (Prod.mk.inj (Option.some.inj colonsRead)).2
    obtain ⟨rfl, isSegment⟩ := exists_of_token segmentRead
    have word : (Tree.leaf name).isKind .word = true := (Bool.and_eq_true_iff.mp isSegment).1
    refine ⟨.leaf name, behind, rfl, .inr ⟨name, rfl, of_decide_eq_true word, ?_⟩⟩
    by_cases further : startsWithSymbol [':', ':'] behind = true
    · exact .inr further
    · have stuck : (symbol "::" *> (skip segment <|> angles)) behind = none := by
        have missing : symbol "::" behind = none := if_neg further
        change (symbol "::" behind).bind _ = none
        rw [missing, Option.bind_none]
      obtain ⟨⟨_, left⟩, manyRead, same⟩ := Option.bind_eq_some_iff.mp furtherRead
      rw [many, upTo_of_failed stuck] at manyRead
      obtain ⟨_, rfl⟩ := Prod.mk.inj (Option.some.inj manyRead)
      exact .inl (Prod.mk.inj (Option.some.inj same)).2

/-- What stands behind the first name of a path in an expression. -/
theorem front_of_path {g : Grammar} {trees rest : List Tree} (read : path g trees = some ((), rest)) :
    ∃ first more, trees = first :: more ∧ ((∃ c ∈ ['<', ':'], first.isMark c = true) ∨
      ∃ name, first = .leaf name ∧ name.kind = .word ∧
        (more = rest ∨ startsWithSymbol [':', ':'] more = true)) := by
  change (if headIs (Tree.isMark '<') trees then _ else plainPath : Parser Unit) trees = _ at read
  split at read
  · rename_i starts
    cases trees with
    | nil => cases starts
    | cons first more => exact ⟨first, more, rfl, .inl ⟨'<', by decide, starts⟩⟩
  · obtain ⟨first, more, rfl, kinds⟩ := front_of_plainPath read
    exact ⟨first, more, rfl, kinds.imp_left fun colon => ⟨':', by decide, colon⟩⟩

/-- What stands behind the first name of a macro call. -/
theorem front_of_macroCall {trees rest : List Tree} {fragment : Fragment}
    (read : macroCall trees = some (fragment, rest)) :
    ∃ first more, trees = first :: more ∧ (first.isMark ':' = true ∨
      ∃ name, first = .leaf name ∧ name.kind = .word ∧
        (headIs (Tree.isMark '!') more = true ∨ startsWithSymbol [':', ':'] more = true)) := by
  cases trees with
  | nil => cases read
  | cons tree others =>
      change (if tree.isWord "macro_rules" then failure else _ : Parser Fragment) (tree :: others) = _
        at read
      split at read
      · cases read
      · obtain ⟨⟨⟨_, path⟩, behind⟩, pathRead, atMark⟩ := Option.bind_eq_some_iff.mp read
        obtain ⟨⟨_, left⟩, found, same⟩ := Option.map_eq_some_iff.mp pathRead
        obtain ⟨_, rfl⟩ := Prod.mk.inj same
        obtain ⟨⟨_, atGroup⟩, argumentsRead, _⟩ := Option.bind_eq_some_iff.mp atMark
        obtain ⟨⟨bang, _⟩, markRead, _⟩ := Option.bind_eq_some_iff.mp argumentsRead
        obtain ⟨rfl, isMark⟩ := exists_of_token markRead
        obtain ⟨first, more, split, kinds⟩ := front_of_plainPath found
        refine ⟨first, more, split, kinds.imp_right ?_⟩
        rintro ⟨name, rfl, kind, same | colons⟩
        · exact ⟨name, rfl, kind, .inl (same ▸ isMark)⟩
        · exact ⟨name, rfl, kind, .inr colons⟩

end ProgramIdl.Syntax
