import ProgramIdl.Syntax.Parser

/-!
# Angle brackets

The search for the bracket that closes an open one looks at one tree after the other.  Trees are
settled if every bracket that they open is closed among them and none of the others is: the search
passes over them as if they were not there.
-/

set_option autoImplicit false

namespace ProgramIdl.Syntax

open ProgramIdl.Syntax.Parser

/-! ## The search -/

/-- What a tree does to the search, given whether it stands behind a dash. -/
inductive AngleStep (dash : Bool) (tree : Tree) : Prop where
  | opens (mark : tree.isMark '<' = true)
      (step : ∀ depth rest, closeAngles depth dash (tree :: rest) = closeAngles (depth + 1) false rest)
  | closes (ends : ∀ rest, closeAngles 0 dash (tree :: rest) = some rest)
      (step : ∀ depth rest,
        closeAngles (depth + 1) dash (tree :: rest) = closeAngles depth false rest)
  | stops (step : ∀ depth rest, closeAngles depth dash (tree :: rest) = none)
  | passes (next : Bool)
      (step : ∀ depth rest, closeAngles depth dash (tree :: rest) = closeAngles depth next rest)

theorem angleStep (dash : Bool) (tree : Tree) : AngleStep dash tree := by
  by_cases opens : tree.isMark '<' = true
  · exact .opens opens fun depth rest => by simp only [closeAngles, opens, if_true]
  · by_cases closes : (tree.isMark '>' && !(dash && tree.first.isJoint)) = true
    · refine .closes (fun rest => ?_) fun depth rest => ?_
      · simp only [closeAngles, opens, closes, if_true]
        rfl
      · simp only [closeAngles, opens, closes, if_true]
        rfl
    · by_cases stops : tree.isMark ';' = true
      · exact .stops fun depth rest => by simp only [closeAngles, opens, closes, stops]; rfl
      · exact .passes (tree.isMark '-') fun depth rest => by
          simp only [closeAngles, opens, closes, stops]
          rfl

section Search

variable {depth : Nat} {dash : Bool} {trees left : List Tree}

/-- Only what stands in front of the bracket that closes is looked at. -/
theorem exists_of_closeAngles (closed : closeAngles depth dash trees = some left) :
    ∃ taken, trees = taken ++ left ∧ closeAngles depth dash taken = some [] := by
  induction trees generalizing depth dash with
  | nil => cases closed
  | cons tree rest inductionHypothesis =>
      cases angleStep dash tree with
      | opens mark step =>
          obtain ⟨taken, rfl, ends⟩ := inductionHypothesis ((step _ _).symm.trans closed)
          exact ⟨tree :: taken, rfl, (step _ _).trans ends⟩
      | closes ends step =>
          cases depth with
          | zero =>
              obtain rfl := Option.some.inj ((ends rest).symm.trans closed)
              exact ⟨[tree], rfl, ends []⟩
          | succ depth =>
              obtain ⟨taken, rfl, ends⟩ := inductionHypothesis ((step _ _).symm.trans closed)
              exact ⟨tree :: taken, rfl, (step _ _).trans ends⟩
      | stops step => cases (step _ _).symm.trans closed
      | passes next step =>
          obtain ⟨taken, rfl, ends⟩ := inductionHypothesis ((step _ _).symm.trans closed)
          exact ⟨tree :: taken, rfl, (step _ _).trans ends⟩

/-- Where more brackets are open, the search goes on behind the one that closes. -/
theorem closeAngles_deeper (closed : closeAngles depth dash trees = some []) (more : Nat)
    (rest : List Tree) :
    closeAngles (depth + more + 1) dash (trees ++ rest) = closeAngles more false rest := by
  induction trees generalizing depth dash with
  | nil => cases closed
  | cons tree trees inductionHypothesis =>
      rw [List.cons_append]
      cases angleStep dash tree with
      | opens mark step =>
          rw [step, ← inductionHypothesis ((step _ _).symm.trans closed)]
          congr 1
          omega
      | closes ends step =>
          cases depth with
          | zero =>
              obtain rfl := Option.some.inj ((ends trees).symm.trans closed)
              rw [Nat.zero_add, step, List.nil_append]
          | succ depth =>
              rw [← inductionHypothesis ((step _ _).symm.trans closed), step]
              congr 1
              omega
      | stops step => cases (step _ _).symm.trans closed
      | passes next step => rw [step, inductionHypothesis ((step _ _).symm.trans closed)]

theorem closeAngles_append (closed : closeAngles depth dash trees = some left) (rest : List Tree) :
    closeAngles depth dash (trees ++ rest) = some (left ++ rest) := by
  induction trees generalizing depth dash with
  | nil => cases closed
  | cons tree trees inductionHypothesis =>
      rw [List.cons_append]
      cases angleStep dash tree with
      | opens mark step => rw [step, inductionHypothesis ((step _ _).symm.trans closed)]
      | closes ends step =>
          cases depth with
          | zero =>
              obtain rfl := Option.some.inj ((ends trees).symm.trans closed)
              exact ends _
          | succ depth => rw [step, inductionHypothesis ((step _ _).symm.trans closed)]
      | stops step => cases (step _ _).symm.trans closed
      | passes next step => rw [step, inductionHypothesis ((step _ _).symm.trans closed)]

/-- If an outer bracket is closed, then so is an inner one. -/
theorem exists_closeAngles_of_le {inner : Nat} (closed : closeAngles depth dash trees = some left)
    (within : inner ≤ depth) : ∃ behind, closeAngles inner dash trees = some behind := by
  induction trees generalizing depth inner dash with
  | nil => cases closed
  | cons tree rest inductionHypothesis =>
      have further {depth inner : Nat} {next : Bool} (within : inner ≤ depth)
          (closed : closeAngles depth next rest = some left)
          (step : closeAngles inner dash (tree :: rest) = closeAngles inner next rest) :
          ∃ behind, closeAngles inner dash (tree :: rest) = some behind := by
        obtain ⟨behind, found⟩ := inductionHypothesis closed within
        exact ⟨behind, step.trans found⟩
      cases angleStep dash tree with
      | opens mark step =>
          obtain ⟨behind, found⟩ :=
            inductionHypothesis ((step _ _).symm.trans closed) (Nat.succ_le_succ within)
          exact ⟨behind, (step _ _).trans found⟩
      | closes ends step =>
          cases inner with
          | zero => exact ⟨rest, ends rest⟩
          | succ inner =>
              obtain ⟨depth, rfl⟩ : ∃ less, depth = less + 1 := ⟨depth - 1, by omega⟩
              obtain ⟨behind, found⟩ :=
                inductionHypothesis ((step _ _).symm.trans closed) (Nat.le_of_succ_le_succ within)
              exact ⟨behind, (step _ _).trans found⟩
      | stops step => cases (step _ _).symm.trans closed
      | passes next step =>
          obtain ⟨behind, found⟩ := inductionHypothesis ((step _ _).symm.trans closed) within
          exact ⟨behind, (step _ _).trans found⟩

end Search

/-! ## Settled trees -/

theorem Tree.isMark_other {tree : Tree} {c d : Char} (mark : tree.isMark c = true) (differ : c ≠ d) :
    tree.isMark d = false := by
  cases tree with
  | group _ _ _ _ => rfl
  | leaf token =>
      have kind : token.kind = .mark c := by simpa [Tree.isMark] using mark
      simpa [Tree.isMark, kind] using differ

/-- Every bracket that is opened among the trees is closed among them. -/
def AnglesClosed (trees : List Tree) : Prop :=
  ∀ before tree behind, trees = before ++ tree :: behind → tree.isMark '<' = true →
    ∃ left, closeAngles 0 false behind = some left

/-- Trees that the search passes over, since they close the brackets that they open and no others. -/
structure Settled (trees : List Tree) : Prop where
  closed : AnglesClosed trees
  passed (depth : Nat) (dash : Bool) (rest : List Tree) :
    closeAngles depth dash (trees ++ rest) = closeAngles depth (dash && trees.isEmpty) rest

theorem AnglesClosed.behind {before trees : List Tree} (closed : AnglesClosed (before ++ trees)) :
    AnglesClosed trees := by
  rintro front tree behind rfl
  exact closed (before ++ front) tree behind (by simp)

theorem AnglesClosed.tail {tree : Tree} {trees : List Tree} (closed : AnglesClosed (tree :: trees)) :
    AnglesClosed trees :=
  @AnglesClosed.behind [tree] trees closed

theorem AnglesClosed.append {trees more : List Tree} (closed : AnglesClosed trees)
    (others : AnglesClosed more) : AnglesClosed (trees ++ more) := by
  intro before tree behind split opens
  rcases List.append_eq_append_iff.mp split with ⟨middle, rfl, rfl⟩ | ⟨middle, rfl, found⟩
  · exact others middle tree behind rfl opens
  · cases middle with
    | nil => exact others [] tree behind found.symm opens
    | cons first middle =>
        obtain ⟨rfl, rfl⟩ := List.cons.inj found
        obtain ⟨left, ends⟩ := closed before _ middle rfl opens
        exact ⟨_, closeAngles_append ends more⟩

theorem anglesClosed_of_unopened {trees : List Tree}
    (unopened : ∀ tree ∈ trees, tree.isMark '<' = false) : AnglesClosed trees := by
  rintro before tree behind rfl opens
  rw [unopened tree (by simp)] at opens
  cases opens

theorem Settled.nil : Settled [] where
  closed before tree behind split := by simp at split
  passed depth dash rest := by simp

theorem Settled.append {trees more : List Tree} (settled : Settled trees) (others : Settled more) :
    Settled (trees ++ more) where
  closed := settled.closed.append others.closed
  passed depth dash rest := by
    rw [List.append_assoc, settled.passed, others.passed, Bool.and_assoc]
    cases trees with
    | nil => rfl
    | cons tree trees => simp

/-- A tree that is no mark which the search looks at. -/
def Tree.isQuiet (tree : Tree) : Bool :=
  !(['<', '>', ';', '-'].any tree.isMark)

theorem closeAngles_quiet {tree : Tree} (quiet : tree.isQuiet = true) (depth : Nat) (dash : Bool)
    (rest : List Tree) : closeAngles depth dash (tree :: rest) = closeAngles depth false rest := by
  simp only [Tree.isQuiet, List.any_cons, List.any_nil, Bool.or_false, Bool.not_or, Bool.and_eq_true,
    Bool.not_eq_true'] at quiet
  obtain ⟨opens, closes, stops, dashes⟩ := quiet
  simp [closeAngles, opens, closes, stops, dashes]

theorem settled_quiet {tree : Tree} (quiet : tree.isQuiet = true) : Settled [tree] where
  closed := anglesClosed_of_unopened fun other listed => by
    obtain rfl := List.mem_singleton.mp listed
    simp only [Tree.isQuiet, List.any_cons, Bool.not_or, Bool.and_eq_true, Bool.not_eq_true'] at quiet
    exact quiet.1
  passed depth dash rest := by simpa using closeAngles_quiet quiet depth dash rest

/-- The bracket of an arrow closes nothing. -/
theorem settled_arrow {dash tip : Tree} (isDash : dash.isMark '-' = true)
    (isTip : tip.isMark '>' = true) (joint : tip.first.isJoint = true) : Settled [dash, tip] where
  closed := anglesClosed_of_unopened fun tree listed => by
    rw [List.mem_cons, List.mem_singleton] at listed
    rcases listed with rfl | rfl
    · exact Tree.isMark_other isDash (by decide)
    · exact Tree.isMark_other isTip (by decide)
  passed depth flag rest := by
    have noDash {d : Char} (differ : '-' ≠ d) := Tree.isMark_other isDash differ
    have noTip {d : Char} (differ : '>' ≠ d) := Tree.isMark_other isTip differ
    simp [closeAngles, isDash, isTip, joint, @noDash '<' (by decide), @noDash '>' (by decide),
      @noDash ';' (by decide), @noTip '<' (by decide), @noTip ';' (by decide),
      @noTip '-' (by decide)]

/-- An open bracket with the trees up to the one that closes it. -/
theorem settled_angles {tree : Tree} {trees : List Tree} (opens : tree.isMark '<' = true)
    (closed : closeAngles 0 false trees = some []) (inner : AnglesClosed trees) :
    Settled (tree :: trees) where
  closed := by
    intro before other behind split mark
    obtain ⟨rfl, same⟩ | ⟨front, rfl, later⟩ := List.cons_eq_append_iff.mp split
    · obtain ⟨rfl, rfl⟩ := List.cons.inj same
      exact ⟨[], closed⟩
    · exact inner front other behind later mark
  passed depth dash rest := by
    have deeper := closeAngles_deeper closed depth rest
    simp only [List.cons_append, closeAngles, opens, if_true, List.isEmpty_cons, Bool.and_false]
    rw [← deeper, Nat.zero_add]

/-- Brackets inside closed ones are closed. -/
theorem anglesClosed_of_closeAngles {depth : Nat} {dash : Bool} {trees : List Tree}
    (closed : closeAngles depth dash trees = some []) : AnglesClosed trees := by
  intro before tree behind split opens
  induction trees generalizing depth dash before with
  | nil => cases closed
  | cons first rest inductionHypothesis =>
      obtain ⟨rfl, same⟩ | ⟨front, rfl, later⟩ := List.cons_eq_append_iff.mp split
      · obtain ⟨rfl, rfl⟩ := List.cons.inj same
        simp only [closeAngles, opens, if_true] at closed
        exact exists_closeAngles_of_le closed (Nat.zero_le _)
      · cases angleStep dash first with
        | opens mark step => exact inductionHypothesis ((step _ _).symm.trans closed) front later
        | closes ends step =>
            cases depth with
            | zero =>
                obtain rfl := Option.some.inj ((ends rest).symm.trans closed)
                simp at later
            | succ depth => exact inductionHypothesis ((step _ _).symm.trans closed) front later
        | stops step => cases (step _ _).symm.trans closed
        | passes next step => exact inductionHypothesis ((step _ _).symm.trans closed) front later

end ProgramIdl.Syntax
