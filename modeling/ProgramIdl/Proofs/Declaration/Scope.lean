import ProgramIdl.Proofs.Declaration.Leaves
import ProgramIdl.Proofs.Declaration.Substitution

/-!
# Local names and their scope

In a body whose `let` statements stand one behind the other, a name means the latest `let` of it that
ends before the place where it stands.  `MeansAt` follows names that way.  Names are resolved
differently, though: every name of a chain is looked up where the chain starts.  The two agree if no
name of the chain is bound again in between (`resolve_meansAt`), and differ otherwise
(`not_meansAt_rebound`).
-/

set_option autoImplicit false

namespace ProgramIdl

open ProgramIdl.Syntax

/-! ## Lexical scope -/

/-- A `let` statement: what it binds, and the place where it begins. -/
structure LetStatement extends Binding where
  start : Nat
  deriving DecidableEq

/-- Statements that stand one behind the other. -/
def Straight (lets : List LetStatement) : Prop :=
  (∀ statement ∈ lets, statement.start < statement.stop) ∧
    lets.Pairwise fun statement later => statement.stop ≤ later.start

/-- A statement that gives the name at the front of a text its meaning at a place: of those that bind
the name and end before the place, it ends last. -/
structure InForce (lets : List LetStatement) (place : Nat) (text : String)
    (statement : LetStatement) : Prop where
  listed : statement ∈ lets
  named : frontName? text = some statement.name
  ended : statement.stop ≤ place
  latest : ∀ other ∈ lets, other.name = statement.name → other.stop ≤ place →
    other.stop ≤ statement.stop

/-- What a text means at a place: the name at its front is replaced by the value of the
statement in force, and the name in front of that value means what it means where that statement
begins.  The chain lists the texts on the way, each with its place. -/
inductive MeansAt (lets : List LetStatement) : Nat → String → List (Nat × String) → String → Prop
  | free {place : Nat} {text : String}
      (unbound : ∀ statement ∈ lets, frontName? text = some statement.name →
        place < statement.stop) :
      MeansAt lets place text [] text
  | bound {place : Nat} {text result : String} {statement : LetStatement}
      {chain : List (Nat × String)} (inForce : InForce lets place text statement)
      (value : MeansAt lets statement.start (replaceFront text statement.value) chain result) :
      MeansAt lets place text ((statement.start, replaceFront text statement.value) :: chain)
        result

/-- The name at the front of a text is bound between the place of the text and a later one. -/
def Rebound (lets : List LetStatement) (place later : Nat) (text : String) : Prop :=
  ∃ statement ∈ lets, frontName? text = some statement.name ∧ place < statement.stop ∧
    statement.stop ≤ later

section Straight

variable {lets : List LetStatement} {place later : Nat} {text : String} {statement : LetStatement}

/-- In a straight sequence, what stands behind a statement ends later. -/
theorem Straight.stop_lt (straight : Straight lets) {before behind : List LetStatement}
    (split : lets = before ++ statement :: behind) : ∀ other ∈ behind,
      statement.stop < other.stop := by
  intro other member
  obtain ⟨proper, ordered⟩ := straight
  rw [split, List.pairwise_append, List.pairwise_cons] at ordered
  have starts := ordered.2.1.1 other member
  have ends := proper other (by simp [split, member])
  omega

theorem Straight.exists_inForce (straight : Straight lets) (listed : statement ∈ lets)
    (named : frontName? text = some statement.name) (ended : statement.stop ≤ place) :
    ∃ latest, InForce lets place text latest := by
  -- The last of the candidates in the list is the one that ends last.
  have some_ : (lets.reverse.find? fun other =>
      other.name = statement.name ∧ other.stop ≤ place).isSome := by
    rw [List.find?_isSome]
    exact ⟨statement, List.mem_reverse.mpr listed, by simp [ended]⟩
  obtain ⟨latest, found⟩ := Option.isSome_iff_exists.mp some_
  obtain ⟨fits, behind, before, split, none⟩ := List.find?_eq_some_iff_append.mp found
  simp only [decide_eq_true_eq] at fits
  have order : lets = before.reverse ++ latest :: behind.reverse := by
    rw [← List.reverse_inj, split]
    simp
  refine ⟨latest, by simp [order], by rw [named, fits.1], fits.2, ?_⟩
  intro other member sameName otherEnded
  rw [order] at member
  rcases List.mem_append.mp member with early | late
  · have ordered := straight.2
    rw [order, List.pairwise_append] at ordered
    have starts := ordered.2.2 other early latest (by simp)
    have ends := straight.1 latest (by simp [order])
    omega
  · rcases List.mem_cons.mp late with rfl | late
    · omega
    · have rejected := none other (List.mem_reverse.mp late)
      simp [sameName, fits.1, otherEnded] at rejected

/-- Every text means something. -/
theorem Straight.exists_meansAt (straight : Straight lets) (place : Nat) (text : String) :
    ∃ chain result, MeansAt lets place text chain result := by
  induction place using Nat.strongRecOn generalizing text with
  | ind place inductionHypothesis =>
      by_cases bound : ∃ statement ∈ lets, frontName? text = some statement.name ∧
          statement.stop ≤ place
      · obtain ⟨candidate, listed, named, ended⟩ := bound
        obtain ⟨statement, inForce⟩ := straight.exists_inForce listed named ended
        have starts := straight.1 statement inForce.listed
        have ends := inForce.ended
        obtain ⟨chain, result, value⟩ := inductionHypothesis statement.start (by omega)
          (replaceFront text statement.value)
        exact ⟨_, result, .bound inForce value⟩
      · refine ⟨[], text, .free fun statement listed named => ?_⟩
        by_contra ended
        exact bound ⟨statement, listed, named, by omega⟩

/-! ## Resolving names -/

theorem boundAt?_eq (lets : List LetStatement) (name : String) (place : Nat) :
    boundAt? (lets.map (·.toBinding)) name place =
      (lets.reverse.find? fun statement =>
        statement.stop ≤ place && statement.name = name).map (·.value) := by
  rw [boundAt?, List.findRev?_eq_find?_reverse, ← List.map_reverse, List.find?_map, Option.map_map]
  rfl

/-- A statement that is in force where a text stands is found from a later place, if the name is not
bound again before that place. -/
theorem Straight.boundAt?_of_inForce (straight : Straight lets)
    (inForce : InForce lets place text statement) (order : place ≤ later)
    (kept : ¬ Rebound lets place later text) :
    boundAt? (lets.map (·.toBinding)) statement.name later = some statement.value := by
  obtain ⟨before, behind, split⟩ := List.append_of_mem inForce.listed
  have ended := inForce.ended
  have found : (lets.reverse.find? fun other =>
      other.stop ≤ later && other.name = statement.name) = some statement := by
    rw [List.find?_eq_some_iff_append]
    refine ⟨by simpa using Nat.le_trans ended order, behind.reverse, before.reverse,
      by simp [split], ?_⟩
    intro other member
    have listed : other ∈ lets := by simp [split, List.mem_reverse.mp member]
    have ends := straight.stop_lt split other (List.mem_reverse.mp member)
    by_contra candidate
    simp only [Bool.not_eq_true', Bool.not_eq_false, Bool.and_eq_true, decide_eq_true_eq]
      at candidate
    by_cases early : other.stop ≤ place
    · have := inForce.latest other listed candidate.2 early
      omega
    · exact kept ⟨other, listed, by rw [inForce.named, candidate.2], by omega, candidate.1⟩
  rw [boundAt?_eq, found]
  rfl

theorem boundAt?_of_free
    (unbound : ∀ statement ∈ lets, frontName? text = some statement.name → place < statement.stop)
    (kept : ¬ Rebound lets place later text) {name : String}
    (named : frontName? text = some name) :
    boundAt? (lets.map (·.toBinding)) name later = none := by
  rw [boundAt?_eq, Option.map_eq_none_iff, List.find?_eq_none]
  intro statement listed candidate
  simp only [Bool.and_eq_true, decide_eq_true_eq] at candidate
  have sameName : frontName? text = some statement.name := by rw [named, candidate.2]
  have behind := unbound statement (List.mem_reverse.mp listed) sameName
  exact kept ⟨statement, List.mem_reverse.mp listed, sameName, behind, candidate.1⟩

/-- Resolving a text from a later place follows its chain, if no name of the chain is bound again
before that place. -/
theorem Straight.resolveSteps_eq (straight : Straight lets) {chain : List (Nat × String)}
    {result : String} (stands : MeansAt lets place text chain result) (order : place ≤ later)
    (kept : ¬ Rebound lets place later text)
    (keptBehind : ∀ step ∈ chain, ¬ Rebound lets step.1 later step.2) (steps : Nat)
    (enough : chain.length ≤ steps) :
    resolveSteps (lets.map (·.toBinding)) later steps text = result := by
  induction stands generalizing steps with
  | @free place text unbound =>
      exact resolveSteps_of_unbound (fun name named => boundAt?_of_free unbound kept named) steps
  | @bound place text result statement chain inForce value inductionHypothesis =>
      have replaced : substitute? (lets.map (·.toBinding)) later text =
          some (replaceFront text statement.value) := by
        rw [substitute?_eq, inForce.named, Option.bind_some,
          straight.boundAt?_of_inForce inForce order kept]
        rfl
      have starts := straight.1 statement inForce.listed
      have ends := inForce.ended
      cases steps with
      | zero => simp at enough
      | succ steps =>
          have keptNext := keptBehind (statement.start, replaceFront text statement.value)
            List.mem_cons_self
          have keptLater : ∀ step ∈ chain, ¬ Rebound lets step.1 later step.2 :=
            fun step member => keptBehind step (List.mem_cons_of_mem _ member)
          rw [List.length_cons] at enough
          rw [resolveSteps, replaced]
          exact inductionHypothesis (by omega) keptNext keptLater steps (by omega)

end Straight

/-- In a straight sequence of `let` statements every text stands for something, and resolving it
finds just that, if its chain has at most eight steps and no name on the way is bound again between
the place where it stands and the place from which it is resolved. -/
theorem resolve_meansAt {body : List Fragment} {lets : List LetStatement}
    (straight : Straight lets) (binds : bindings body = lets.map (·.toBinding)) (place : Nat)
    (text : String) :
    (∃ chain result, MeansAt lets place text chain result) ∧
    ∀ chain result, MeansAt lets place text chain result → chain.length ≤ 8 →
      (∀ step ∈ chain, ¬ Rebound lets step.1 place step.2) →
        resolve (bindings body) place text = result := by
  refine ⟨straight.exists_meansAt place text, ?_⟩
  intro chain result stands short kept
  have first : ¬ Rebound lets place place text := by
    rintro ⟨statement, _, _, starts, ends⟩
    omega
  have resolved := straight.resolveSteps_eq stands (Nat.le_refl place) first kept 8 short
  rw [resolve, binds]
  exact resolved

/-- The text of a function with a chain of two names, and what is read of it. -/
def keySource : String :=
  "impl Vault \x7b\nfn derive(&self) \x7b\nlet owner = self.owner;\nlet key = owner.address();\n"
    ++ "find_program_address(&[SEED, key.as_ref()], &ID);\n\x7d\n\x7d\n"

def keyBody : List Fragment :=
  [.binding "owner" "self.owner" 55, .binding "key" "owner.address()" 82,
    .call (.method "owner" "address") [] 66 4,
    .call (.path "find_program_address") ["&[SEED, key.as_ref()]", "&ID"] 83 5,
    .call (.method "key" "as_ref") [] 112 5]

def keyLets : List LetStatement :=
  [⟨⟨"owner", "self.owner", by decide, 55⟩, 32⟩, ⟨⟨"key", "owner.address()", by decide, 82⟩, 56⟩]

theorem resolve_meansAt_key : (itemsOf? keySource).map bodies = some [keyBody] ∧
    Straight keyLets ∧ bindings keyBody = keyLets.map (·.toBinding) ∧
      resolve (bindings keyBody) 83 "key.as_ref()" = "self.owner.address().as_ref()" := by
  have straight : Straight keyLets := by unfold Straight; decide
  have binds : bindings keyBody = keyLets.map (·.toBinding) := by decide +kernel
  have owner : InForce keyLets 56 "owner.address().as_ref()"
      ⟨⟨"owner", "self.owner", by decide, 55⟩, 32⟩ :=
    ⟨by decide, by decide +kernel, by decide, by decide⟩
  have key : InForce keyLets 83 "key.as_ref()"
      ⟨⟨"key", "owner.address()", by decide, 82⟩, 56⟩ :=
    ⟨by decide, by decide +kernel, by decide, by decide⟩
  have self : MeansAt keyLets 32 "self.owner.address().as_ref()" []
      "self.owner.address().as_ref()" := .free (by decide +kernel)
  have stands : MeansAt keyLets 83 "key.as_ref()"
      [(56, "owner.address().as_ref()"), (32, "self.owner.address().as_ref()")]
      "self.owner.address().as_ref()" := .bound key (.bound owner self)
  have kept : ∀ step ∈ [(56, "owner.address().as_ref()"), (32, "self.owner.address().as_ref()")],
      ¬ Rebound keyLets step.1 83 step.2 := by
    unfold Rebound
    decide +kernel
  have read : (itemsOf? keySource).map bodies = some [keyBody] := by
    unfold keySource
    rw [itemsOf?, trees?, String.toList_append, String.toList_ofList, String.toList_ofList]
    decide +kernel
  exact ⟨read, straight, binds,
    (resolve_meansAt straight binds 83 "key.as_ref()").2 _ _ stands (by decide) kept⟩

/-- The text of a function that binds one name twice, the second time by means of the first. -/
def reboundSource : String :=
  "impl Vault \x7b\nfn derive(&self) \x7b\nlet a = self.a;\nlet a = a.address();\n"
    ++ "find_program_address(&[SEED, a], &ID);\n\x7d\n\x7d\n"

def reboundBody : List Fragment :=
  [.binding "a" "self.a" 47, .binding "a" "a.address()" 68,
    .call (.method "a" "address") [] 56 4,
    .call (.path "find_program_address") ["&[SEED, a]", "&ID"] 69 5]

def reboundLets : List LetStatement :=
  [⟨⟨"a", "self.a", by decide, 47⟩, 32⟩, ⟨⟨"a", "a.address()", by decide, 68⟩, 48⟩]

/-- The inner of two statements that bind one name is never reached. -/
theorem not_meansAt_rebound : (itemsOf? reboundSource).map bodies = some [reboundBody] ∧
    Straight reboundLets ∧ bindings reboundBody = reboundLets.map (·.toBinding) ∧
      MeansAt reboundLets 69 "a" [(48, "a.address()"), (32, "self.a.address()")]
        "self.a.address()" ∧
      resolve (bindings reboundBody) 69 "a" ≠ "self.a.address()" := by
  have inner : InForce reboundLets 48 "a.address()" ⟨⟨"a", "self.a", by decide, 47⟩, 32⟩ :=
    ⟨by decide, by decide +kernel, by decide, by decide⟩
  have outer : InForce reboundLets 69 "a" ⟨⟨"a", "a.address()", by decide, 68⟩, 48⟩ :=
    ⟨by decide, by decide +kernel, by decide, by decide⟩
  have self : MeansAt reboundLets 32 "self.a.address()" [] "self.a.address()" :=
    .free (by decide +kernel)
  have read : (itemsOf? reboundSource).map bodies = some [reboundBody] := by
    unfold reboundSource
    rw [itemsOf?, trees?, String.toList_append, String.toList_ofList, String.toList_ofList]
    decide +kernel
  refine ⟨read, by unfold Straight; decide, by decide +kernel, ?_, by decide +kernel⟩
  exact .bound outer (.bound inner self)

end ProgramIdl
