/-!
# Sets of code points

A character class is a list of closed ranges of code points, ascending and apart.  Membership walks
the list and stops at the first range that lies beyond the code point, which is why the order
matters: `contains_iff` needs it.
-/

set_option autoImplicit false

namespace ProgramIdl.Text

/-- Closed ranges of code points. -/
abbrev CodePoints := List (Nat × Nat)

namespace CodePoints

/-- The ranges are ascending, apart, and none of them is empty. -/
def WellFormed : CodePoints → Prop
  | [] => True
  | [range] => range.1 ≤ range.2
  | range :: next :: rest => range.1 ≤ range.2 ∧ range.2 < next.1 ∧ WellFormed (next :: rest)

/-- Membership of a code point, given ascending ranges. -/
def contains : CodePoints → Nat → Bool
  | [], _ => false
  | (low, high) :: rest, point =>
      if point < low then false
      else if point ≤ high then true
      else contains rest point

theorem WellFormed.tail {range : Nat × Nat} {rest : CodePoints}
    (ascending : WellFormed (range :: rest)) : WellFormed rest := by
  cases rest with
  | nil => trivial
  | cons next rest => exact ascending.2.2

theorem WellFormed.lt_of_mem {range : Nat × Nat} {rest : CodePoints}
    (ascending : WellFormed (range :: rest)) :
    ∀ later ∈ rest, range.2 < later.1 := by
  induction rest generalizing range with
  | nil => intro later member; cases member
  | cons next rest inductionHypothesis =>
      intro later member
      rcases List.mem_cons.1 member with rfl | member
      · exact ascending.2.1
      · have nextFirst := inductionHypothesis ascending.tail later member
        have nextProper : next.1 ≤ next.2 := by
          cases rest with
          | nil => exact ascending.2.2
          | cons _ _ => exact ascending.2.2.1
        have apart := ascending.2.1
        omega

theorem contains_iff {ranges : CodePoints} (ascending : WellFormed ranges) (point : Nat) :
    contains ranges point = true ↔ ∃ range ∈ ranges, range.1 ≤ point ∧ point ≤ range.2 := by
  induction ranges with
  | nil => simp [contains]
  | cons range rest inductionHypothesis =>
      obtain ⟨low, high⟩ := range
      have later := ascending.lt_of_mem
      simp only [contains, List.mem_cons, exists_eq_or_imp]
      split
      · rename_i below
        constructor
        · intro impossible
          cases impossible
        · rintro (inside | ⟨range, member, inside⟩)
          · omega
          · have := later range member
            have : low ≤ high := by
              cases rest with
              | nil => cases member
              | cons _ _ => exact ascending.1
            simp only at *
            omega
      · split
        · rename_i above within
          simp only [true_iff]
          exact Or.inl ⟨by omega, within⟩
        · rename_i above beyond
          rw [inductionHypothesis ascending.tail]
          constructor
          · exact Or.inr
          · rintro (inside | inside)
            · omega
            · exact inside

end CodePoints

end ProgramIdl.Text
