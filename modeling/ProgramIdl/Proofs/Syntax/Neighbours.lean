import ProgramIdl.Proofs.Syntax.Agreement.Closing.Item

/-!
# Items among other items

An item that can be read on its own is read the same among others, with everything in front of it
that belongs to it, unless what follows starts with a semicolon or a group.
-/

set_option autoImplicit false

namespace ProgramIdl.Syntax

open ProgramIdl.Syntax.Parser

variable {α β : Type}

theorem Parser.bind_of_failed {parser : Parser α} {next : α → Parser β} {trees : List Tree}
    (failed : parser trees = none) : (parser >>= next) trees = none := by
  change (parser trees).bind _ = none
  rw [failed]
  rfl

theorem Follows.nil : Follows [] :=
  ⟨rfl, fun _ => rfl⟩

theorem Follows.append {trees more : List Tree} (follows : Follows trees) (others : Follows more) :
    Follows (trees ++ more) := by
  cases trees with
  | nil => exact others
  | cons tree rest => exact ⟨follows.mark, follows.group⟩

namespace Grammar

/-! ## Attributes in front of a group -/

section Attributes

variable {stop : Stop} {g : Grammar}

theorem isQuiet_of_inside {delimiter : Delimiter} {parser : Parser α} {body : Tree}
    (read : (inside delimiter parser [body]).isSome = true) : body.isQuiet = true := by
  obtain ⟨⟨_, left⟩, found⟩ := Option.isSome_iff_exists.mp read
  obtain ⟨opening, inner, closing, split⟩ := inside_eq_some found
  obtain ⟨rfl, _⟩ := List.cons.inj split
  rfl

theorem settles_outerAttribute : Settles (outerAttribute g) := by
  intro trees value left read
  match trees with
  | [] | [_] => cases read
  | hash :: body :: rest =>
      rw [outerAttribute_cons] at read
      split at read
      · rename_i starts
        obtain ⟨rfl, rfl⟩ := Prod.mk.inj (Option.some.inj read)
        exact ⟨[hash, body], rfl,
          settled_pair (isQuiet_of_isMark starts.1 (by decide)) (isQuiet_of_inside starts.2)⟩
      · cases read

theorem settles_innerAttribute : Settles (innerAttribute g) := by
  intro trees value left read
  match trees with
  | [] | [_] | [_, _] => cases read
  | hash :: bang :: body :: rest =>
      rw [innerAttribute_cons] at read
      split at read
      · rename_i starts
        obtain ⟨rfl, rfl⟩ := Prod.mk.inj (Option.some.inj read)
        have quiet := settled_pair (isQuiet_of_isMark starts.1 (by decide))
          (isQuiet_of_isMark starts.2.1 (by decide))
        exact ⟨[hash, bang] ++ [body], rfl, quiet.append (settled_quiet (isQuiet_of_inside starts.2.2))⟩
      · cases read

/-- An attribute may be all there is in front of other trees. -/
theorem steady_outerAttribute (same : stop.here = stop.there) : SteadyBefore stop true (outerAttribute g) where
  settles := settles_outerAttribute
  continues front closed := by
    match front with
    | [] =>
        have plain : stop.there.isMark '#' = false := rfl
        rw [Stop.long_nil, outerAttribute_of_not_mark g plain]
        exact .failed
    | [hash] =>
        simp only [Stop.short_cons, Stop.short_nil, Stop.long_cons, Stop.long_nil,
          outerAttribute_cons, same]
        split
        · exact .past rfl
        · exact .failed
    | hash :: body :: front =>
        simp only [Stop.short_cons, Stop.long_cons, outerAttribute_cons]
        split
        · exact .within closed.tail.tail
        · exact .failed

theorem steady_innerAttribute (same : stop.here = stop.there) : SteadyBefore stop true (innerAttribute g) where
  settles := settles_innerAttribute
  continues front closed := by
    have plain (c : Char) : stop.there.isMark c = false := rfl
    match front with
    | [] =>
        rw [Stop.long_nil]
        cases stop.rest with
        | nil => exact .failed
        | cons next rest =>
            rw [innerAttribute_of_not_marks g (.inl (plain _))]
            exact .failed
    | [hash] =>
        rw [Stop.long_cons, Stop.long_nil, innerAttribute_of_not_marks g (.inr (plain _))]
        exact .failed
    | [hash, bang] =>
        simp only [Stop.short_cons, Stop.short_nil, Stop.long_cons, Stop.long_nil,
          innerAttribute_cons, same]
        split
        · exact .past rfl
        · exact .failed
    | hash :: bang :: body :: front =>
        simp only [Stop.short_cons, Stop.long_cons, innerAttribute_cons]
        split
        · exact .within closed.tail.tail.tail
        · exact .failed

theorem progresses_outerAttribute : Progresses (outerAttribute g) := by
  intro trees value left read
  match trees with
  | [] | [_] => cases read
  | hash :: body :: rest =>
      rw [outerAttribute_cons] at read
      split at read
      · obtain ⟨rfl, rfl⟩ := Prod.mk.inj (Option.some.inj read)
        simp only [List.length_cons]
        omega
      · cases read

theorem progresses_innerAttribute : Progresses (innerAttribute g) := by
  intro trees value left read
  match trees with
  | [] | [_] | [_, _] => cases read
  | hash :: bang :: body :: rest =>
      rw [innerAttribute_cons] at read
      split at read
      · obtain ⟨rfl, rfl⟩ := Prod.mk.inj (Option.some.inj read)
        simp only [List.length_cons]
        omega
      · cases read

theorem steady_attributes (same : stop.here = stop.there) : SteadyBefore stop true (attributes g) :=
  (((steady_outerAttribute same).orElse (steady_innerAttribute same)).many
    (progresses_outerAttribute.orElse progresses_innerAttribute)).thenPure List.flatten

end Attributes

/-! ## Items with what stands in front of them -/

/-- What is read behind some attributes, with the first tree's comments and line. -/
def annotatedBehind (notes : Annotations) (parser : Parser α) : Parser (Annotated α) := do
  match ← get with
  | [] => failure
  | tree :: _ =>
      let value ← parser
      return ⟨notes ++ tree.first.comments, tree.first.line, value⟩

theorem annotatedBehind_cons (notes : Annotations) (parser : Parser α) (tree : Tree)
    (rest : List Tree) :
    annotatedBehind notes parser (tree :: rest) =
      (parser (tree :: rest)).map fun read =>
        (⟨notes ++ tree.first.comments, tree.first.line, read.1⟩, read.2) := by
  change (parser (tree :: rest)).bind _ = _
  cases parser (tree :: rest) <;> rfl

theorem annotated_eq (g : Grammar) (parser : Parser α) :
    annotated g [] parser = attributes g >>= fun notes => annotatedBehind notes parser := rfl

/-- The trees behind the attributes are read as they are. -/
theorem exists_of_annotatedBehind {notes : Annotations} {parser : Parser α} {trees left : List Tree}
    {value : Annotated α} (read : annotatedBehind notes parser trees = some (value, left)) :
    ∃ tree rest item, trees = tree :: rest ∧ parser trees = some (item, left) ∧
      value = ⟨notes ++ tree.first.comments, tree.first.line, item⟩ := by
  cases trees with
  | nil => cases read
  | cons tree rest =>
      rw [annotatedBehind_cons] at read
      obtain ⟨⟨item, _⟩, readItem, same⟩ := Option.map_eq_some_iff.mp read
      obtain ⟨rfl, rfl⟩ := Prod.mk.inj same
      exact ⟨tree, rest, item, rfl, readItem, rfl⟩

theorem concludes_annotated {whole : List Tree} {braces : Bool} {g : Grammar} {parser : Parser α}
    (ends : Concludes whole braces parser) : Concludes whole braces (annotated g [] parser) := by
  rw [annotated_eq]
  refine .bind (fun _ _ _ _ _ _ => steady_attributes rfl) rfl fun notes => ?_
  refine ⟨rfl, fun within read => ?_, fun {front inner rest delimiter opening closing value} within read
    follows => ?_⟩
  · obtain ⟨_, _, _, _, readItem, _⟩ := exists_of_annotatedBehind read
    exact ends.settled within readItem
  · obtain ⟨tree, behind, item, split, readItem, rfl⟩ := exists_of_annotatedBehind read
    have long := ends.continues within readItem follows
    cases front with
    | nil =>
        obtain ⟨rfl, _⟩ := List.cons.inj split
        rw [List.nil_append] at long ⊢
        rw [annotatedBehind_cons, long]
        rfl
    | cons first front =>
        obtain ⟨rfl, _⟩ := List.cons.inj split
        rw [List.cons_append] at long ⊢
        rw [annotatedBehind_cons, long]
        rfl

section Alike

variable {like : Likeness} {grouped : Bool} {bound smaller : Nat} {g h : Grammar}
  {related : α → β → Prop} {parser : Parser α} {parser' : Parser β}

theorem annotated_closes (grammars : Agree like bound g h) (near : smaller ≤ bound + 1)
    (closes : Closes like grouped smaller related parser parser') :
    Closes like grouped smaller (AnnotatedAlike like.kept related) (annotated g [] parser)
      (annotated h [] parser') := by
  rw [annotated_eq, annotated_eq]
  refine .bind (fun _ => (attributes_agrees grammars).below near) fun notes notes' notesAlike => ?_
  intro pairs alike light value read
  obtain ⟨tree, rest, item, split, readItem, rfl⟩ := exists_of_annotatedBehind read
  have closed := closes pairs alike light item readItem
  cases alike with
  | nil => cases split
  | @cons _ first first' pairs trees joint behind =>
      obtain ⟨rfl, _⟩ := List.cons.inj split
      have final := notesAlike.append (NotesAlike.of_tokens trees.first_token)
      generalize whole : (first, first') :: pairs = all at closed
      cases closed with
      | group allowed => exact .group allowed
      | @semicolon front token token' kind kind' stops =>
          refine .semicolon kind kind' fun rest => ?_
          obtain ⟨item', items, read'⟩ := stops rest
          have head : ∃ more, rights front (.leaf token' :: rest) = first' :: more := by
            cases front with
            | nil =>
                obtain ⟨same, _⟩ := List.cons.inj whole
                obtain ⟨_, rfl⟩ := Prod.mk.inj same
                exact ⟨_, rfl⟩
            | cons pair front =>
                obtain ⟨rfl, _⟩ := List.cons.inj whole
                exact ⟨_, rfl⟩
          obtain ⟨more, starts⟩ := head
          rw [starts] at read' ⊢
          refine ⟨⟨notes' ++ first'.first.comments, first'.first.line, item'⟩, ⟨final, items⟩, ?_⟩
          rw [annotatedBehind_cons, read']
          rfl

/-- Like lists are read as a whole together. -/
theorem exists_of_first {least : Nat} {pairs : List (Tree × Tree)} (alike : AllAlike like false pairs)
    (light : weight pairs < bound) (agrees : Agrees like false least bound related parser parser')
    {value : α} (read : parser (pairs.map Prod.fst) = some (value, [])) :
    ∃ value', related value value' ∧ parser' (pairs.map Prod.snd) = some (value', []) := by
  rw [← lefts_nil_tail] at read
  obtain ⟨value', taken, values, _, _, none, read'⟩ :=
    (agrees pairs [] [] .nil alike light).of_read read
  rw [lefts_nil_tail, eq_comm, List.map_eq_nil_iff] at none
  rw [none, rights, List.append_nil] at read'
  exact ⟨value', values, read'⟩

theorem exists_of_second {pairs : List (Tree × Tree)} (alike : AllAlike like false pairs)
    (light : weight pairs < bound) (agrees : Agrees like false 1 bound related parser parser')
    {value' : β} (read : parser' (pairs.map Prod.snd) = some (value', [])) :
    ∃ value, related value value' ∧ parser (pairs.map Prod.fst) = some (value, []) := by
  have outcome := agrees pairs [] [] .nil alike light
  rw [lefts_nil_tail, rights, List.append_nil, read] at outcome
  generalize parser (pairs.map Prod.fst) = result at outcome ⊢
  generalize ends : some (value', []) = result' at outcome
  cases outcome with
  | failed => cases ends
  | read values _ _ =>
      obtain ⟨rfl, none⟩ := Prod.mk.inj (Option.some.inj ends)
      rw [rights, List.append_nil, eq_comm, List.map_eq_nil_iff] at none
      rw [none]
      exact ⟨_, values, rfl⟩

/-- What ends with a semicolon does not end with a group. -/
theorem never_of_closes {pairs : List (Tree × Tree)} (alike : AllAlike like false pairs)
    (light : weight pairs < bound) (closes : Closes like false bound related parser parser')
    (agrees : Agrees like false 1 bound related parser parser') :
    Never (pairs.map Prod.snd) parser' := by
  intro front delimiter opening inner closing value' within read
  obtain ⟨before, split⟩ := within
  obtain ⟨taken, left, rfl, rfl, same⟩ := List.map_eq_append_iff.mp split.symm
  have alikeLeft := alike.drop taken.length
  rw [List.drop_left] at alikeLeft
  have lightLeft : weight left < bound := by
    rw [weight_append] at light
    omega
  rw [← same] at read
  obtain ⟨value, _, readFirst⟩ := exists_of_second alikeLeft lightLeft agrees read
  cases closes left alikeLeft lightLeft value readFirst with
  | group allowed => cases allowed
  | semicolon _ _ _ =>
      rw [List.map_append] at same
      have last := (List.append_inj' same rfl).2
      simp at last

end Alike

/-- Two lists of like trees, the second in front of what does not belong to it: if the first is an
item, then so is the second. -/
theorem annotated_itemRule {like : Likeness} {pairs : List (Tree × Tree)}
    (alike : AllAlike like false pairs) {depth depth' : Nat} (enough : weight pairs ≤ depth)
    (enough' : weight pairs ≤ depth') {item : Annotated ParsedItem}
    (read : annotated (ofDepth depth) [] (itemRule (ofDepth depth)) (pairs.map Prod.fst) =
      some (item, [])) {rest : List Tree} (follows : Follows rest) :
    ∃ item', AnnotatedAlike like.kept (ParsedAlike like.kept) item item' ∧
      annotated (ofDepth depth') [] (itemRule (ofDepth depth')) (pairs.map Prod.snd ++ rest) =
        some (item', rest) := by
  have grammars := @ofDepth_agree like (weight pairs) depth depth' enough enough'
  have light : weight pairs < weight pairs + 1 := Nat.lt_succ_self _
  have closed := annotated_closes grammars (Nat.le_refl _) (itemRule_closes grammars) pairs alike light
    item read
  cases closed with
  | @semicolon front token token' _ _ stops =>
      obtain ⟨item', items, read'⟩ := stops rest
      refine ⟨item', items, ?_⟩
      rw [← read']
      simp [rights]
  | @group front delimiter opening closing inner other _ =>
      obtain ⟨item', items, read'⟩ := exists_of_first alike light
        (annotated_agrees grammars (Nat.le_refl _) .nil (itemRule_agrees grammars)) read
      have last := alike.drop front.length
      rw [List.drop_left] at last
      cases last with
      | cons trees _ _ =>
          cases trees with
          | @group _ _ _ opening' _ closing' inside _ _ _ _ =>
              have concludes := @concludes_annotated _ _ _ (ofDepth depth') _ <| concludes_itemRule
                (never_of_closes alike light (valueRule_closes grammars) (valueRule_agrees grammars))
                (never_of_closes alike light useRule_closes useRule_agrees)
                (never_of_closes alike light (typeAliasRule_closes grammars)
                  (typeAliasRule_agrees grammars))
              simp only [List.map_append, List.map_cons, List.map_nil] at read' concludes ⊢
              have long := concludes.continues List.suffix_rfl read' follows
              refine ⟨item', items, ?_⟩
              simpa using long

/-! ## The heads of modules -/

/-- What stands in front of the block of a module. -/
def moduleHead (g : Grammar) : Parser Unit := do
  let _ ← attributes g
  visibility
  let _ ← word "mod"
  skip name

section Heads

variable {like : Likeness} {opened : Bool} {bound : Nat} {g h : Grammar} {trees between more : List Tree}

theorem moduleHead_agrees (grammars : Agree like bound g h) :
    Agrees like opened 1 (bound + 1) Anything (moduleHead g) (moduleHead h) := by
  refine (attributes_agrees grammars).bind fun _ _ _ => visibility_agrees.bind fun _ _ _ => ?_
  exact (agrees_word (by decide)).bindAfter fun _ _ _ => agrees_name.zero.skip

/-- An attribute does not depend on what stands behind it. -/
theorem attribute_append {notes : List String} {left : List Tree}
    (read : (outerAttribute g <|> innerAttribute g) trees = some (notes, left)) :
    (outerAttribute g <|> innerAttribute g) (trees ++ more) = some (notes, left ++ more) := by
  change (outerAttribute g trees).orElse (fun _ => innerAttribute g trees) = _ at read
  change (outerAttribute g (trees ++ more)).orElse (fun _ => innerAttribute g (trees ++ more)) = _
  cases trees with
  | nil => cases read
  | cons hash trees =>
      cases trees with
      | nil => cases read
      | cons bang trees =>
          simp only [List.cons_append, outerAttribute_cons] at read ⊢
          split at read
          · rename_i starts
            obtain ⟨rfl, rfl⟩ := Prod.mk.inj (Option.some.inj read)
            rw [if_pos starts]
            rfl
          · rename_i outer
            rw [if_neg outer]
            cases trees with
            | nil => cases read
            | cons body trees =>
                simp only [List.cons_append, innerAttribute_cons, Option.orElse_none] at read ⊢
                split at read
                · rename_i starts
                  obtain ⟨rfl, rfl⟩ := Prod.mk.inj (Option.some.inj read)
                  rw [if_pos starts]
                · cases read

/-- No attribute starts with another tree than a hash. -/
theorem attribute_other (other : headIs (Tree.isMark '#') trees = false) :
    (outerAttribute g <|> innerAttribute g) trees = none := by
  change (outerAttribute g trees).orElse (fun _ => innerAttribute g trees) = none
  cases trees with
  | nil => rfl
  | cons tree rest =>
      rw [outerAttribute_of_not_mark g other, Option.orElse_none]
      cases rest with
      | nil => rfl
      | cons next rest => exact innerAttribute_of_not_marks g (.inl other) rest

/-- Repetitions in front of something that cannot be repeated. -/
theorem upTo_append {parser : Parser α} (progresses : Progresses parser)
    (append : ∀ {trees value left}, parser trees = some (value, left) →
      parser (trees ++ more) = some (value, left ++ more))
    {values : List α} {count count' : Nat} (enough : trees.length ≤ count)
    (enough' : trees.length ≤ count') (read : upTo parser count trees = some (values, between))
    (some_ : between ≠ []) (stops : parser (between ++ more) = none) :
    upTo parser count' (trees ++ more) = some (values, between ++ more) := by
  induction count generalizing trees count' values with
  | zero =>
      obtain ⟨_, rfl⟩ := Prod.mk.inj (Option.some.inj read)
      exact absurd (List.length_eq_zero_iff.mp (Nat.le_zero.mp enough)) some_
  | succ count inductionHypothesis =>
      cases found : parser trees with
      | none =>
          rw [upTo_of_failed found] at read
          obtain ⟨rfl, rfl⟩ := Prod.mk.inj (Option.some.inj read)
          exact upTo_of_failed stops _
      | some result =>
          obtain ⟨value, left⟩ := result
          have shorter := progresses _ _ _ found
          rw [upTo_of_read found] at read
          obtain ⟨⟨rest, _⟩, readRest, same⟩ := Option.bind_eq_some_iff.mp read
          obtain ⟨rfl, rfl⟩ := Prod.mk.inj (Option.some.inj same)
          obtain ⟨count', rfl⟩ : ∃ less, count' = less + 1 := ⟨count' - 1, by omega⟩
          rw [upTo_of_read (append found)]
          change (upTo parser count' (left ++ more)).bind _ = _
          rw [inductionHypothesis (by omega) (by omega) readRest]
          rfl

theorem attributes_append {notes : Annotations} (read : attributes g trees = some (notes, between))
    (some_ : between ≠ []) (other : headIs (Tree.isMark '#') (between ++ more) = false) :
    attributes g (trees ++ more) = some (notes, between ++ more) := by
  obtain ⟨⟨all, left⟩, readAll, same⟩ := Option.bind_eq_some_iff.mp read
  obtain ⟨rfl, rfl⟩ := Prod.mk.inj (Option.some.inj same)
  change (many (outerAttribute g <|> innerAttribute g) (trees ++ more)).bind _ = _
  rw [many, upTo_append (progresses_outerAttribute.orElse progresses_innerAttribute) attribute_append
    (Nat.le_refl _) (by simp) readAll some_ (attribute_other other)]
  rfl

theorem visibility_cons (tree : Tree) (rest : List Tree) :
    visibility (tree :: rest) =
      if tree.isWord "pub" then
        skip (maybe <| inside .parenthesis do
          skip (word "crate") <|> skip (word "self") <|> skip (word "super") <|>
            (word "in" *> plainPath)) rest
      else some ((), tree :: rest) := by
  change (maybe (word "pub") (tree :: rest)).bind _ = _
  rw [maybe, word]
  cases tree with
  | group _ _ _ _ => rfl
  | leaf token =>
      rw [Parser.token]
      by_cases isPub : Tree.isWord "pub" (.leaf token) = true
      · rw [if_pos isPub, if_pos isPub]
        rfl
      · rw [if_neg isPub, if_neg isPub]
        rfl

theorem maybe_inside_append {delimiter : Delimiter} {parser : Parser α} {found : Option α}
    {left : List Tree} (read : maybe (inside delimiter parser) trees = some (found, left))
    (some_ : left ≠ []) :
    maybe (inside delimiter parser) (trees ++ more) = some (found, left ++ more) := by
  obtain ⟨missing, first⟩ := takesOne_inside delimiter parser
  cases trees with
  | nil =>
      rw [maybe, missing] at read
      exact absurd (Prod.mk.inj (Option.some.inj read)).2.symm some_
  | cons tree rest =>
      obtain ⟨result, reads⟩ := first tree
      rw [maybe, reads] at read
      rw [List.cons_append, maybe, reads]
      cases result with
      | none =>
          obtain ⟨rfl, rfl⟩ := Prod.mk.inj (Option.some.inj read)
          rfl
      | some value =>
          obtain ⟨rfl, rfl⟩ := Prod.mk.inj (Option.some.inj read)
          rfl

theorem visibility_append {left : List Tree} (read : visibility trees = some ((), left))
    (some_ : left ≠ []) : visibility (trees ++ more) = some ((), left ++ more) := by
  cases trees with
  | nil => exact absurd (Prod.mk.inj (Option.some.inj read)).2.symm some_
  | cons tree rest =>
      rw [visibility_cons] at read
      rw [List.cons_append, visibility_cons]
      split at read
      · rename_i isPub
        rw [if_pos isPub]
        obtain ⟨⟨found, middle⟩, readScope, same⟩ := Option.bind_eq_some_iff.mp read
        obtain ⟨_, rfl⟩ := Prod.mk.inj (Option.some.inj same)
        change (maybe _ (rest ++ more)).bind _ = _
        rw [maybe_inside_append readScope some_]
        rfl
      · rename_i other
        obtain ⟨_, rfl⟩ := Prod.mk.inj (Option.some.inj read)
        rw [if_neg other]
        rfl

theorem isMark_of_isWord {tree : Tree} {name : String} (is : tree.isWord name = true) (c : Char) :
    tree.isMark c = false := by
  cases tree with
  | group _ _ _ _ => rfl
  | leaf token =>
      have kind : token.kind = .word ∧ token.text = name.toList := by simpa [Tree.isWord] using is
      simp [Tree.isMark, kind]

/-- A visibility leaves what starts without one, and otherwise starts with a word. -/
theorem head_of_visibility {left : List Tree} (read : visibility trees = some ((), left)) :
    trees = left ∨ ∃ tree rest, trees = tree :: rest ∧ tree.isWord "pub" = true := by
  cases trees with
  | nil => exact .inl (Prod.mk.inj (Option.some.inj read)).2
  | cons tree rest =>
      rw [visibility_cons] at read
      split at read
      · rename_i isPub
        exact .inr ⟨tree, rest, rfl, isPub⟩
      · exact .inl (Prod.mk.inj (Option.some.inj read)).2

/-- In front of the block of a module stand attributes, a visibility, a keyword and a name. -/
theorem exists_of_moduleHead (read : moduleHead g trees = some ((), [])) :
    ∃ notes between keyword called, attributes g trees = some (notes, between) ∧
      visibility between = some ((), [.leaf keyword, .leaf called]) ∧
      Tree.isWord "mod" (.leaf keyword) = true ∧ name [.leaf called] = some (called, []) := by
  obtain ⟨⟨notes, between⟩, readNotes, read⟩ := Option.bind_eq_some_iff.mp read
  obtain ⟨⟨_, left⟩, readVisibility, read⟩ := Option.bind_eq_some_iff.mp read
  obtain ⟨⟨keyword, behind⟩, readKeyword, read⟩ := Option.bind_eq_some_iff.mp read
  obtain ⟨⟨called, last⟩, readName, same⟩ := Option.bind_eq_some_iff.mp read
  obtain ⟨_, rfl⟩ := Prod.mk.inj (Option.some.inj same)
  obtain ⟨rfl, isKeyword⟩ := token_eq_some readKeyword
  obtain ⟨rfl, _⟩ := token_eq_some readName
  exact ⟨notes, between, keyword, called, readNotes, readVisibility, isKeyword, readName⟩

/-- The trees behind the attributes of a module start with a word. -/
theorem exists_of_keyword {keyword called : Token}
    (read : visibility trees = some ((), [.leaf keyword, .leaf called]))
    (isKeyword : Tree.isWord "mod" (.leaf keyword) = true) :
    ∃ tree rest, trees = tree :: rest ∧ ∀ c, tree.isMark c = false := by
  rcases head_of_visibility read with rfl | ⟨tree, rest, rfl, isPub⟩
  · exact ⟨_, _, rfl, isMark_of_isWord isKeyword⟩
  · exact ⟨tree, rest, rfl, isMark_of_isWord isPub⟩

/-- Behind a visibility, its keyword tells a module from other items. -/
theorem itemRule_module {keyword : Token} {behind : List Tree}
    (plain : headIs (Tree.isMark ';') trees = false)
    (read : visibility trees = some ((), .leaf keyword :: behind))
    (isKeyword : Tree.isWord "mod" (.leaf keyword) = true) :
    itemRule g trees = moduleRule g (.leaf keyword :: behind) := by
  obtain ⟨kind, text⟩ : keyword.kind = .word ∧ keyword.text = "mod".toList := by
    simpa [Tree.isWord] using isKeyword
  have other (name : String) (differ : "mod" ≠ name) : Tree.isWord name (.leaf keyword) = false :=
    isWord_other isKeyword differ
  have noLiteral : Tree.isKind .literal (.leaf keyword) = false := by simp [Tree.isKind, kind]
  have function : startsFunction (.leaf keyword :: behind) = false := by
    simp [startsFunction, behindQualifiers, headIsWord, headIs, other, noLiteral]
  have macroRules : startsMacroRules (.leaf keyword :: behind) = false := by
    rw [startsMacroRules_eq]
    simp [headIs, other]
  have contextual (name : String) (differ : "mod" ≠ name) :
      startsContextual name (.leaf keyword :: behind) = false := by
    rw [startsContextual_eq]
    simp [headIs, other name differ]
  have record : headIsWord ["struct"] (.leaf keyword :: behind) = false := by
    simp [headIsWord, headIs, other]
  have enumeration : headIsWord ["enum"] (.leaf keyword :: behind) = false := by
    simp [headIsWord, headIs, other]
  have value : headIsWord ["const", "static"] (.leaf keyword :: behind) = false := by
    simp [headIsWord, headIs, other]
  have starts : headIsWord ["mod"] (.leaf keyword :: behind) = true := by
    simp [headIsWord, headIs, isKeyword]
  change (if headIs (Tree.isMark ';') trees = true then _ else _ : Parser ParsedItem) trees = _
  rw [plain]
  change (visibility trees).bind _ = _
  rw [read]
  change (if startsFunction (.leaf keyword :: behind) = true then _ else _ : Parser ParsedItem) _ = _
  rw [function, macroRules, contextual _ (by decide), contextual _ (by decide), record, enumeration,
    value, starts]
  rfl

/-- A module in front of other trees, given the items of its block. -/
theorem annotated_module (read : moduleHead g trees = some ((), [])) {opening closing : Token}
    {inner : List Tree} {items : List (Annotated ParsedItem)} (readItems : all g.items inner = some items)
    (rest : List Tree) :
    ∃ notes line, annotated g [] (itemRule g) (trees ++ .group .brace opening inner closing :: rest) =
      some (⟨notes, line, ⟨.module (plainItems items), itemFragments items⟩⟩, rest) := by
  obtain ⟨notes, between, keyword, called, readNotes, readVisibility, isKeyword, readName⟩ :=
    exists_of_moduleHead read
  obtain ⟨tree, behind, rfl, noMark⟩ := exists_of_keyword readVisibility isKeyword
  have block : moduleRule g (.leaf keyword :: .leaf called :: .group .brace opening inner closing :: rest) =
      some (⟨.module (plainItems items), itemFragments items⟩, rest) := by
    change (word "mod" _).bind _ = _
    rw [word, Parser.token, if_pos isKeyword]
    change (name _).bind _ = _
    obtain ⟨_, isName⟩ := token_eq_some readName
    rw [name, Parser.token, if_pos isName]
    change (inside .brace g.items _).bind _ = _
    rw [inside, if_pos rfl, readItems]
    rfl
  have readItem : itemRule g (tree :: behind ++ .group .brace opening inner closing :: rest) =
      some (⟨.module (plainItems items), itemFragments items⟩, rest) := by
    refine Eq.trans ?_ block
    exact itemRule_module (noMark ';') (visibility_append readVisibility (by simp)) isKeyword
  refine ⟨notes ++ tree.first.comments, tree.first.line, ?_⟩
  rw [annotated_eq]
  change (attributes g _).bind _ = _
  rw [attributes_append readNotes (by simp) (noMark '#')]
  change annotatedBehind notes (itemRule g) (tree :: (behind ++ _)) = _
  rw [annotatedBehind_cons]
  rw [List.cons_append] at readItem
  rw [readItem]
  rfl


/-! ## What follows an item -/

theorem follows_of_isMark {c : Char} {tree : Tree} (is : tree.isMark c = true) (other : c ≠ ';')
    (rest : List Tree) : Follows (tree :: rest) := by
  cases tree with
  | group _ _ _ _ => cases is
  | leaf token =>
      have kind : token.kind = .mark c := by simpa [Tree.isMark] using is
      exact ⟨by simpa [headIs, Tree.isMark, kind] using other, fun _ => rfl⟩

theorem follows_of_isWord {name : String} {tree : Tree} (is : tree.isWord name = true)
    (rest : List Tree) : Follows (tree :: rest) := by
  cases tree with
  | group _ _ _ _ => cases is
  | leaf token => exact ⟨isMark_of_isWord is ';', fun _ => rfl⟩

/-- Without a hash in front there are no attributes. -/
theorem attributes_other (other : headIs (Tree.isMark '#') trees = false) :
    attributes g trees = some ([], trees) := by
  change (many (outerAttribute g <|> innerAttribute g) trees).bind _ = _
  cases trees with
  | nil => rfl
  | cons tree rest =>
      rw [many, List.length_cons, upTo_of_failed (attribute_other other)]
      rfl

/-- Attributes that are followed by what follows an item follow an item. -/
theorem follows_of_attributes {notes : Annotations} (read : attributes g trees = some (notes, between))
    (follows : Follows between) : Follows trees := by
  cases trees with
  | nil => exact .nil
  | cons tree rest =>
      cases hash : tree.isMark '#' with
      | true => exact follows_of_isMark hash (by decide) rest
      | false =>
          rw [@attributes_other _ (tree :: rest) hash] at read
          obtain ⟨_, rfl⟩ := Prod.mk.inj (Option.some.inj read)
          exact follows

theorem follows_moduleHead (read : moduleHead g trees = some ((), [])) : Follows (trees ++ more) := by
  obtain ⟨notes, between, keyword, called, readNotes, readVisibility, isKeyword, _⟩ :=
    exists_of_moduleHead read
  have follows : Follows trees := by
    refine follows_of_attributes readNotes ?_
    rcases head_of_visibility readVisibility with rfl | ⟨tree, rest, rfl, isPub⟩
    · exact follows_of_isWord isKeyword _
    · exact follows_of_isWord isPub rest
  cases trees with
  | nil => cases read
  | cons tree rest => exact ⟨follows.mark, follows.group⟩

/-- No item starts with a group. -/
theorem itemRule_group (delimiter : Delimiter) (opening closing : Token) (inner rest : List Tree) :
    itemRule g (.group delimiter opening inner closing :: rest) = none := by
  have macroRules : startsMacroRules (.group delimiter opening inner closing :: rest) = false := by
    rw [startsMacroRules_eq]
    rfl
  have contextual (name : String) :
      startsContextual name (.group delimiter opening inner closing :: rest) = false := by
    rw [startsContextual_eq]
    rfl
  change (if startsMacroRules (.group delimiter opening inner closing :: rest) = true then _ else _ :
    Parser ParsedItem) _ = _
  rw [macroRules, contextual, contextual]
  change macroCallRule (.group delimiter opening inner closing :: rest) = none
  rw [macroCallRule]
  exact bind_of_failed (macroCall_group delimiter opening closing inner rest)

/-- An item follows another one unless it is no more than a semicolon. -/
theorem follows_annotated {item : Annotated ParsedItem} {left : List Tree}
    (read : annotated g [] (itemRule g) trees = some (item, left))
    (plain : headIs (Tree.isMark ';') trees = false) : Follows trees := by
  obtain ⟨⟨notes, between⟩, readNotes, readItem⟩ := Option.bind_eq_some_iff.mp read
  refine ⟨plain, fun delimiter => ?_⟩
  cases trees with
  | nil => rfl
  | cons tree rest =>
      cases tree with
      | leaf token => rfl
      | group other opening inner closing =>
          rw [attributes_other rfl] at readNotes
          obtain ⟨_, rfl⟩ := Prod.mk.inj (Option.some.inj readNotes)
          change annotatedBehind _ _ _ = _ at readItem
          rw [annotatedBehind_cons, itemRule_group] at readItem
          cases readItem

end Heads

end Grammar

end ProgramIdl.Syntax
