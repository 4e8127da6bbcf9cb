import ProgramIdl.Proofs.Syntax.Chains.Basic

/-!
# Reading chains

The links behind a root are read one at a time, and each puts its call in front of those that have
been read.  So what is read of an operand is a chain (`operand_yields`, `blockChain_yields`).
-/

set_option autoImplicit false

namespace ProgramIdl.Syntax

open ProgramIdl.Syntax.Parser
open ProgramIdl.Syntax.Grammar

/-! ## Steps of a parser -/

namespace Parser

variable {α : Type} {parser other : Parser α} {trees rest : List Tree}

theorem exists_of_token {condition : Tree → Bool} {found : Token}
    (read : token condition trees = some (found, rest)) :
    trees = .leaf found :: rest ∧ condition (.leaf found) = true := by
  unfold token at read
  split at read
  · split at read
    · rename_i holds
      obtain ⟨rfl, rfl⟩ := Prod.mk.inj (Option.some.inj read)
      exact ⟨rfl, holds⟩
    · cases read
  · cases read

theorem exists_of_orElse {result : α × List Tree} (read : (parser <|> other) trees = some result) :
    parser trees = some result ∨ other trees = some result := by
  change (parser trees).orElse (fun _ => other trees) = some result at read
  cases found : parser trees with
  | none =>
      rw [found] at read
      exact .inr read
  | some first =>
      rw [found] at read
      exact .inl read

theorem inside_single {delimiter : Delimiter} {tree : Tree} {value : α}
    (read : inside delimiter parser (tree :: rest) = some (value, rest)) :
    inside delimiter parser [tree] = some (value, []) := by
  obtain ⟨opening, inner, closing, same, found⟩ := exists_of_inside read
  obtain rfl := (List.cons.inj same).1
  simp [inside, all, found]

end Parser

/-- A symbol of two marks takes two trees, whatever is behind them. -/
theorem exists_of_startsWithPair {c d : Char} {trees : List Tree}
    (starts : startsWithSymbol [c, d] trees = true) :
    ∃ first second rest, trees = first :: second :: rest ∧
      ∀ other, startsWithSymbol [c, d] (first :: second :: other) = true := by
  match trees, starts with
  | first :: second :: rest, starts =>
      refine ⟨first, second, rest, rfl, fun other => ?_⟩
      simpa [startsWithSymbol] using starts
  | [first], starts => simp [startsWithSymbol] at starts

/-! ## Longer chains -/

theorem Link.trees_ne_nil (link : Link) : link.trees ≠ [] := by
  cases link <;> nofun

namespace Chain

/-- A chain with one more link. -/
def concat (chain : Chain) (link : Link) : Chain :=
  { chain with links := chain.links ++ [link] }

theorem trees_concat (chain : Chain) (link : Link) :
    (chain.concat link).trees = chain.trees ++ link.trees := by
  simp [concat, trees]

theorem inside_concat (chain : Chain) (link : Link) :
    (chain.concat link).inside = chain.inside ++ link.inside := by
  simp [concat, inside]

/-- The call of a further link comes before the calls of a chain. -/
theorem calls_concat (chain : Chain) (link : Link) :
    (chain.concat link).calls =
      link.calls (chain.concat link).start (chain.concat link).line chain.trees
          (fieldBehind? chain.root none chain.links) ++ chain.calls := by
  have front : (chain.concat link).calls =
      link.calls (chain.concat link).start (chain.concat link).line chain.trees
          (fieldBehind? chain.root none chain.links) ++
        callsBehind (chain.concat link).start (chain.concat link).line chain.root none
          chain.links :=
    callsBehind_concat chain.links link
  rw [front, List.append_cancel_left_eq, calls]
  cases some_ : chain.trees with
  | nil =>
      -- A chain without trees has no links that could make a call.
      have noLinks : chain.links = [] := by
        obtain ⟨_, none⟩ := List.append_eq_nil_iff.mp some_
        rw [List.flatMap_eq_nil_iff] at none
        exact List.eq_nil_iff_forall_not_mem.mpr fun link listed =>
          link.trees_ne_nil (none link listed)
      rw [noLinks]
      rfl
  | cons first rest =>
      rw [start, start, line, line, trees_concat, some_]
      rfl

/-- A chain begins where the trees begin that it is read from. -/
theorem start_of_split {chain : Chain} {first : Tree} {others rest : List Tree}
    (split : first :: others = chain.trees ++ rest) (some_ : chain.trees ≠ []) :
    chain.start = first.first.start ∧ chain.line = first.first.line := by
  have head : chain.trees.head? = some first := by
    rw [← List.head?_append_of_ne_nil _ some_, ← split, List.head?_cons]
  rw [start, line, head]
  exact ⟨rfl, rfl⟩

end Chain

/-- The chain that has been read in front of the trees that are left. -/
structure ReadsChain (g : Grammar) (whole start : List Tree) (chain : Chain)
    (expression : Expression) (left : List Tree) : Prop where
  split : start = chain.trees ++ left
  fragments : expression.fragments = chain.calls ++ chain.inside
  field : expression.field = fieldBehind? chain.root none chain.links
  links : ∀ link ∈ chain.links, link.ReadBy g
  chained : Chained whole chain.inside

section Links

variable {g : Grammar} {whole start left rest : List Tree} {chain : Chain}
  {expression longer : Expression}

theorem ReadsChain.concat {link : Link}
    (reads : ReadsChain g whole start chain expression (link.trees ++ rest)) (linkRead : link.ReadBy g)
    (fragments : longer.fragments = link.calls (chain.concat link).start (chain.concat link).line
      chain.trees expression.field ++ (expression.fragments ++ link.inside))
    (field : longer.field = link.field? chain.trees) (chained : Chained whole link.inside) :
    ReadsChain g whole start (chain.concat link) longer rest where
  split := by rw [reads.split, Chain.trees_concat, List.append_assoc]
  fragments := by
    rw [fragments, Chain.calls_concat, Chain.inside_concat, reads.field, reads.fragments]
    simp only [List.append_assoc]
  field := by rw [field, Chain.concat, fieldBehind?_concat, Chain.trees]
  links := List.forall_mem_append.mpr ⟨reads.links, List.forall_mem_singleton.mpr linkRead⟩
  chained := by
    rw [Chain.inside_concat]
    exact reads.chained.append chained

variable (argumentsYield : Yields whole (fun read => Chained whole read.2) (argument g))
  (expressionYields : Yields whole (fun read => Chained whole read.fragments) (g.expression true))

/-- What has been taken since the start of a chain are its trees. -/
theorem ReadsChain.taken (reads : ReadsChain g whole start chain expression left) :
    start.take (start.length - left.length) = chain.trees := by
  rw [reads.split, List.length_append, Nat.add_sub_cancel, List.take_left]

/-- A member, or a method with generic arguments, is one more link. -/
theorem member_concat (reads : ReadsChain g whole start chain expression left)
    (read : member start expression left = some (longer, rest)) :
    ∃ link, ReadsChain g whole start (chain.concat link) longer rest := by
  obtain ⟨⟨point, behindPoint⟩, pointRead, atName⟩ := Option.bind_eq_some_iff.mp read
  obtain ⟨rfl, isPoint⟩ := exists_of_token pointRead
  obtain ⟨⟨name, behindName⟩, nameRead, result⟩ := Option.bind_eq_some_iff.mp atName
  have kind : point.kind = .mark '.' := of_decide_eq_true isPoint
  obtain rfl : behindPoint = .leaf name :: behindName := by
    rcases exists_of_orElse nameRead with wordRead | positionRead
    · exact (exists_of_token wordRead).1
    · exact (exists_of_token positionRead).1
  dsimp only at result
  split at result
  · rename_i awaited
    obtain ⟨rfl, rfl⟩ := Prod.mk.inj (Option.some.inj result)
    refine ⟨.member point name, reads.concat (.member kind) ?_ ?_ chained_nil⟩
    · simp [Link.calls, Link.inside]
    · exact (if_pos awaited).symm
  · rename_i plain
    change (if startsWithSymbol [':', ':'] behindName then _ else _ : Parser _) behindName = _
      at result
    split at result
    · rename_i colons
      obtain ⟨⟨_, behindColons⟩, colonsRead, atAngles⟩ := Option.bind_eq_some_iff.mp result
      obtain ⟨⟨_, behindAngles⟩, anglesRead, found⟩ := Option.bind_eq_some_iff.mp atAngles
      obtain ⟨rfl, rfl⟩ := Prod.mk.inj (Option.some.inj found)
      obtain ⟨first, second, others, rfl, stays⟩ := exists_of_startsWithPair colons
      obtain rfl : behindColons = others := by
        unfold symbol at colonsRead
        split at colonsRead
        · exact (Prod.mk.inj (Option.some.inj colonsRead)).2.symm
        · cases colonsRead
      obtain ⟨arguments, rfl⟩ := (yields_angles _ _ _ .all anglesRead).1
      refine ⟨.generic point name (first :: second :: arguments),
        reads.concat (.generic kind (stays arguments)) ?_ rfl chained_nil⟩
      simp [Link.calls, Link.inside]
    · obtain ⟨rfl, rfl⟩ := Prod.mk.inj (Option.some.inj result)
      refine ⟨.member point name, reads.concat (.member kind) ?_ ?_ chained_nil⟩
      · simp [Link.calls, Link.inside]
      · rw [reads.taken]
        exact (if_neg plain).symm

/-- Where there is no further link, nothing is taken. -/
theorem eq_of_link_none (read : link g start expression left = some (none, rest)) : rest = left := by
  change (if headIs (Tree.isMark '?') left then _ else _ : Parser _) left = _ at read
  split at read
  · obtain ⟨_, _, result⟩ := Option.bind_eq_some_iff.mp read
    cases (Prod.mk.inj (Option.some.inj result)).1
  split at read
  · obtain ⟨_, _, result⟩ := Option.bind_eq_some_iff.mp read
    dsimp only at result
    split at result
    · cases result
    · cases (Prod.mk.inj (Option.some.inj result)).1
  split at read
  · obtain ⟨_, _, result⟩ := Option.bind_eq_some_iff.mp read
    cases (Prod.mk.inj (Option.some.inj result)).1
  split at read
  · obtain ⟨_, _, result⟩ := Option.bind_eq_some_iff.mp read
    cases (Prod.mk.inj (Option.some.inj result)).1
  · exact (Prod.mk.inj (Option.some.inj read)).2.symm

include argumentsYield expressionYields

/-- A further link makes the chain longer. -/
theorem link_concat (reads : ReadsChain g whole start chain expression left)
    (stands : StandsIn whole left) (read : link g start expression left = some (some longer, rest)) :
    ∃ link, ReadsChain g whole start (chain.concat link) longer rest := by
  change (if headIs (Tree.isMark '?') left then _ else _ : Parser _) left = _ at read
  split at read
  · obtain ⟨⟨mark, behind⟩, markRead, result⟩ := Option.bind_eq_some_iff.mp read
    obtain ⟨rfl, isMark⟩ := exists_of_token markRead
    obtain ⟨same, rfl⟩ := Prod.mk.inj (Option.some.inj result)
    obtain rfl := Option.some.inj same
    refine ⟨.question mark, reads.concat (.question (of_decide_eq_true isMark)) ?_ rfl chained_nil⟩
    simp [Link.calls, Link.inside]
  split at read
  · obtain ⟨⟨arguments, behind⟩, argumentsRead, result⟩ := Option.bind_eq_some_iff.mp read
    have inner := (argumentsYield.commaSeparated.inside _ _ _ stands argumentsRead).2
    obtain ⟨opening, content, closing, rfl, _⟩ := exists_of_inside argumentsRead
    dsimp only at result
    rw [reads.taken] at result
    have extended : start =
        (chain.concat (.call (.group .parenthesis opening content closing) arguments)).trees ++
          behind := by
      rw [reads.split, Chain.trees_concat, List.append_assoc]
      rfl
    split at result
    · cases result
    · rename_i first others
      obtain ⟨same, rfl⟩ := Prod.mk.inj (Option.some.inj result)
      obtain rfl := Option.some.inj same
      obtain ⟨place, line⟩ := Chain.start_of_split extended (by simp [Chain.trees_concat, Link.trees])
      refine ⟨.call (.group .parenthesis opening content closing) arguments,
        reads.concat (.call (inside_single argumentsRead)) ?_ rfl (chained_flatMap inner)⟩
      rw [Link.calls, Link.inside, place, line]
      rfl
  split at read
  · obtain ⟨⟨index, behind⟩, indexRead, result⟩ := Option.bind_eq_some_iff.mp read
    have inner := (expressionYields.inside _ _ _ stands indexRead).2
    obtain ⟨opening, content, closing, rfl, _⟩ := exists_of_inside indexRead
    obtain ⟨same, rfl⟩ := Prod.mk.inj (Option.some.inj result)
    obtain rfl := Option.some.inj same
    exact ⟨.index _ index.fragments, reads.concat (.index (inside_single indexRead)) rfl rfl inner⟩
  split at read
  · obtain ⟨⟨expression, behind⟩, memberRead, result⟩ := Option.bind_eq_some_iff.mp read
    obtain ⟨same, rfl⟩ := Prod.mk.inj (Option.some.inj result)
    obtain rfl := Option.some.inj same
    exact member_concat reads memberRead
  · obtain ⟨same, _⟩ := Prod.mk.inj (Option.some.inj read)
    cases same

/-- The links behind a chain make it longer and leave its root as it is. -/
theorem links_concat {count : Nat} (reads : ReadsChain g whole start chain expression left)
    (stands : StandsIn whole left) (read : links g start count expression left = some (longer, rest)) :
    ∃ full : Chain, full.root = chain.root ∧ full.inRoot = chain.inRoot ∧
      ReadsChain g whole start full longer rest := by
  induction count generalizing chain expression left with
  | zero =>
      obtain ⟨rfl, rfl⟩ := Prod.mk.inj (Option.some.inj read)
      exact ⟨chain, rfl, rfl, reads⟩
  | succ count inductionHypothesis =>
      obtain ⟨⟨found, behind⟩, linkRead, result⟩ := Option.bind_eq_some_iff.mp read
      cases found with
      | none =>
          obtain ⟨rfl, rfl⟩ := Prod.mk.inj (Option.some.inj result)
          obtain rfl := eq_of_link_none linkRead
          exact ⟨chain, rfl, rfl, reads⟩
      | some next =>
          obtain ⟨link, extended⟩ :=
            link_concat argumentsYield expressionYields reads stands linkRead
          have here := reads.split
          rw [extended.split, Chain.trees_concat, List.append_assoc,
            List.append_cancel_left_eq] at here
          exact @inductionHypothesis behind (chain.concat link) next extended
            (stands.suffix ⟨link.trees, here⟩) result

/-- What is read behind a root is a chain. -/
theorem links_readIn {depth : Nat} (isOfDepth : g = ofDepth depth) {rootDepth count : Nat}
    {front : List Tree} {fragments : List Fragment} (stands : StandsIn whole (front ++ left))
    (root : ReadsRoot (ofDepth rootDepth) (front ++ left) fragments left)
    (inRoot : Chained whole fragments)
    (read : links g (front ++ left) count { fragments := fragments } left = some (longer, rest)) :
    ∃ chain : Chain, chain.root = front ∧ chain.inRoot = fragments ∧ chain.ReadIn whole ∧
      chain.links.flatMap Link.trees ++ rest = left ∧
        ReadsChain g whole (front ++ left) chain longer rest := by
  have reads : ReadsChain g whole (front ++ left) ⟨front, fragments, []⟩ { fragments := fragments }
      left :=
    { split := by simp [Chain.trees]
      fragments := by simp [Chain.calls, callsBehind, Chain.inside]
      field := rfl
      links := nofun
      chained := by simpa [Chain.inside] using inRoot }
  obtain ⟨chain, sameRoot, sameInRoot, found⟩ := links_concat argumentsYield expressionYields reads
    (stands.suffix ⟨front, rfl⟩) read
  have behind : chain.links.flatMap Link.trees ++ rest = left := by
    have both := found.split
    rw [Chain.trees, sameRoot, List.append_assoc, List.append_cancel_left_eq] at both
    exact both.symm
  refine ⟨chain, sameRoot, sameInRoot, ⟨?_, depth, isOfDepth ▸ found.links⟩, behind, found⟩
  exact ⟨rootDepth, rest, by rwa [← found.split], by rwa [← found.split, behind, sameInRoot]⟩

/-- The calls of what is read behind a root are those of a chain. -/
theorem links_chained {depth : Nat} (isOfDepth : g = ofDepth depth) {rootDepth count : Nat}
    {fragments : List Fragment} (stands : StandsIn whole start) (suffix : left <:+ start)
    (root : ReadsRoot (ofDepth rootDepth) start fragments left) (inRoot : Chained whole fragments)
    (read : links g start count { fragments := fragments } left = some (longer, rest)) :
    rest <:+ left ∧ Chained whole longer.fragments := by
  obtain ⟨front, rfl⟩ := suffix
  obtain ⟨chain, _, _, readIn, behind, found⟩ :=
    links_readIn argumentsYield expressionYields isOfDepth stands root inRoot read
  rw [found.fragments]
  exact ⟨⟨_, behind⟩, readIn.chained found.chained⟩

end Links

end ProgramIdl.Syntax
