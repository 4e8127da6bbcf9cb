import ProgramIdl.Syntax.Tree

/-!
# Trees of runs of tokens

A run of tokens whose delimiters match is gathered into the same trees wherever it stands, and the
trees hold its tokens in order.
-/

set_option autoImplicit false

namespace ProgramIdl.Syntax

/-! ## Runs inside others -/

/-- Some open groups inside others that are open around them; the outermost one has trees in front of
it. -/
def OpenGroup.within (pending : List OpenGroup) (before : List Tree) : List OpenGroup → List OpenGroup
  | [] => pending
  | [group] => { group with before := group.before ++ before } :: pending
  | group :: next :: outer => group :: within pending before (next :: outer)

/-- The trees of the innermost group; outside all groups there are trees in front of them. -/
def Tree.within (before : List Tree) (inner : List OpenGroup) (current : List Tree) : List Tree :=
  if inner.isEmpty then current ++ before else current

theorem gather_within {tokens more : List Token} {inner pending : List OpenGroup}
    {current before trees : List Tree} (read : gather inner current tokens = some trees) :
    gather (OpenGroup.within pending before inner) (Tree.within before inner current)
        (tokens ++ more) =
      gather pending (trees.reverse ++ before) more := by
  induction tokens generalizing inner current with
  | nil =>
      cases inner with
      | nil =>
          obtain rfl := Option.some.inj read
          simp [OpenGroup.within, Tree.within]
      | cons _ _ => cases read
  | cons token rest inductionHypothesis =>
      rw [List.cons_append, gather]
      rw [gather] at read
      cases kind : token.kind with
      | opening delimiter =>
          rw [kind] at read
          have later := inductionHypothesis read
          cases inner with
          | nil => exact later
          | cons group outer => exact later
      | closing delimiter =>
          rw [kind] at read
          cases inner with
          | nil => cases read
          | cons group outer =>
              dsimp only at read
              split at read
              · rename_i same
                have later := inductionHypothesis read
                cases outer with
                | nil =>
                    simp only [OpenGroup.within, Tree.within, List.isEmpty_cons, Bool.false_eq_true,
                      if_false, if_pos same]
                    exact later
                | cons next outer =>
                    simp only [OpenGroup.within, Tree.within, List.isEmpty_cons, Bool.false_eq_true,
                      if_false, if_pos same] at later ⊢
                    exact later
              · cases read
      | blank | comment | word | lifetime | literal | mark =>
          rw [kind] at read
          have later := inductionHypothesis read
          cases inner with
          | nil => exact later
          | cons group outer => exact later

/-- A run whose delimiters match is gathered in front of what follows. -/
theorem gather_append {tokens more : List Token} {trees before : List Tree}
    {pending : List OpenGroup} (read : gather [] [] tokens = some trees) :
    gather pending before (tokens ++ more) = gather pending (trees.reverse ++ before) more :=
  gather_within read

/-- A run whose delimiters match is gathered behind other trees. -/
theorem gather_behind {tokens : List Token} {trees : List Tree} (read : gather [] [] tokens = some trees)
    (before : List Tree) : gather [] before tokens = some (before.reverse ++ trees) := by
  have alone := @gather_append tokens [] trees before [] read
  rw [List.append_nil] at alone
  rw [alone, gather, List.isEmpty_nil, if_pos rfl, List.reverse_append, List.reverse_reverse]

/-- Two runs one behind the other. -/
theorem gather_joined {tokens more : List Token} {trees others : List Tree}
    (first : gather [] [] tokens = some trees) (second : gather [] [] more = some others) :
    gather [] [] (tokens ++ more) = some (trees ++ others) := by
  rw [gather_append first, List.append_nil, gather_behind second, List.reverse_reverse]

/-- A run between two delimiters is a group. -/
theorem gather_group {tokens more : List Token} {inner before : List Tree} {pending : List OpenGroup}
    {delimiter : Delimiter} {opening closing : Token} (read : gather [] [] tokens = some inner)
    (openingKind : opening.kind = .opening delimiter)
    (closingKind : closing.kind = .closing delimiter) :
    gather pending before (opening :: (tokens ++ closing :: more)) =
      gather pending (.group delimiter opening inner closing :: before) more := by
  rw [gather, openingKind]
  dsimp only
  rw [gather_append read, gather, closingKind]
  simp

/-! ## The tokens of trees -/

/-- The tokens in front of a place, given the groups that are open there. -/
def gathered (current : List Tree) : List OpenGroup → List Token
  | [] => Tree.allTokens current.reverse
  | group :: outer =>
      gathered group.before outer ++ group.opening :: Tree.allTokens current.reverse

theorem allTokens_append (trees more : List Tree) :
    Tree.allTokens (trees ++ more) = Tree.allTokens trees ++ Tree.allTokens more := by
  induction trees with
  | nil => rfl
  | cons tree trees inductionHypothesis =>
      rw [List.cons_append, Tree.allTokens, Tree.allTokens, inductionHypothesis, List.append_assoc]

theorem gathered_cons (tree : Tree) (current : List Tree) (pending : List OpenGroup) :
    gathered (tree :: current) pending = gathered current pending ++ tree.tokens := by
  cases pending <;> simp [gathered, allTokens_append, Tree.allTokens]

theorem allTokens_of_gather_within {tokens : List Token} {pending : List OpenGroup}
    {current trees : List Tree} (read : gather pending current tokens = some trees) :
    Tree.allTokens trees = gathered current pending ++ tokens := by
  induction tokens generalizing pending current with
  | nil =>
      cases pending with
      | nil =>
          obtain rfl := Option.some.inj read
          simp [gathered]
      | cons _ _ => cases read
  | cons token rest inductionHypothesis =>
      rw [gather] at read
      cases kind : token.kind with
      | opening delimiter =>
          rw [kind] at read
          rw [inductionHypothesis read]
          simp [gathered, Tree.allTokens]
      | closing delimiter =>
          rw [kind] at read
          cases pending with
          | nil => cases read
          | cons group outer =>
              dsimp only at read
              split at read
              · rw [inductionHypothesis read, gathered_cons]
                simp [gathered, Tree.tokens]
              · cases read
      | blank | comment | word | lifetime | literal | mark =>
          rw [kind] at read
          rw [inductionHypothesis read, gathered_cons]
          simp [Tree.tokens]

/-- The trees of some tokens hold these tokens. -/
theorem allTokens_of_gather {tokens : List Token} {trees : List Tree}
    (read : gather [] [] tokens = some trees) : Tree.allTokens trees = tokens :=
  allTokens_of_gather_within read

end ProgramIdl.Syntax
