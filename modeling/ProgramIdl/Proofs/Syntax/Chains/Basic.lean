import ProgramIdl.Proofs.Syntax.Yields
import ProgramIdl.Syntax.Grammar.Item

/-!
# Chains of calls

A chain is a root with the links behind it: questions, members, indices and calls.  The fragments of a
chain are its calls, the last written one first, and then what is inside its root and its links.  So
the fragments of a body are the calls of its chains, a chain in front of those inside it, with other
fragments between them (`ChainsIn`).
-/

set_option autoImplicit false

namespace ProgramIdl.Syntax

open ProgramIdl.Syntax.Parser
open ProgramIdl.Syntax.Grammar

/-! ## Links -/

/-- A link of a chain, with what has been read inside it. -/
inductive Link where
  | question (mark : Token)
  /-- A field, an element of a tuple, an awaited value, or a method without generic arguments. -/
  | member (point name : Token)
  /-- A method with generic arguments, the double colon in front of them included. -/
  | generic (point name : Token) (arguments : List Tree)
  | index (brackets : Tree) (inside : List Fragment)
  | call (parentheses : Tree) (arguments : List (String × List Fragment))

namespace Link

def trees : Link → List Tree
  | .question mark => [.leaf mark]
  | .member point name => [.leaf point, .leaf name]
  | .generic point name arguments => .leaf point :: .leaf name :: arguments
  | .index brackets _ => [brackets]
  | .call parentheses _ => [parentheses]

/-- The fragments inside a link. -/
def inside : Link → List Fragment
  | .index _ inside => inside
  | .call _ arguments => arguments.flatMap Prod.snd
  | _ => []

/-- The member that a call directly behind the link calls, with the text of the trees in front. -/
def field? (front : List Tree) : Link → Option (String × String)
  | .member _ name => if name.name = "await" then none else some (sourceText front, name.name)
  | _ => none

/-- The call that a link makes, in a chain that begins at a place. -/
def calls (start line : Nat) (front : List Tree) (field : Option (String × String)) :
    Link → List Fragment
  | .call _ arguments =>
      [.call (calleeOf { field := field } (sourceText front)) (arguments.map Prod.fst) start line]
  | _ => []

/-- The trees of some links are what the grammar reads as such links. -/
inductive ReadBy (g : Grammar) : Link → Prop where
  | question {mark : Token} (kind : mark.kind = .mark '?') : ReadBy g (.question mark)
  | member {point name : Token} (kind : point.kind = .mark '.') : ReadBy g (.member point name)
  | generic {point name : Token} {arguments : List Tree} (kind : point.kind = .mark '.')
      (colons : startsWithSymbol [':', ':'] arguments = true) :
      ReadBy g (.generic point name arguments)
  | index {brackets : Tree} {index : Expression}
      (read : Parser.inside .bracket (g.expression true) [brackets] = some (index, [])) :
      ReadBy g (.index brackets index.fragments)
  | call {parentheses : Tree} {arguments : List (String × List Fragment)}
      (read : Parser.inside .parenthesis (commaSeparated (argument g)) [parentheses] =
        some (arguments, [])) :
      ReadBy g (.call parentheses arguments)

end Link

/-- The member that a call behind some links calls, given the trees and the member in front of
them. -/
def fieldBehind? (front : List Tree) (field : Option (String × String)) :
    List Link → Option (String × String)
  | [] => field
  | link :: rest => fieldBehind? (front ++ link.trees) (link.field? front) rest

/-- The calls that some links make, the last one first. -/
def callsBehind (start line : Nat) (front : List Tree) (field : Option (String × String)) :
    List Link → List Fragment
  | [] => []
  | link :: rest =>
      callsBehind start line (front ++ link.trees) (link.field? front) rest ++
        link.calls start line front field

section Behind

variable {start line : Nat} {front : List Tree} {field : Option (String × String)}

theorem fieldBehind?_concat (links : List Link) (link : Link) :
    fieldBehind? front field (links ++ [link]) =
      link.field? (front ++ links.flatMap Link.trees) := by
  induction links generalizing front field with
  | nil => simp [fieldBehind?]
  | cons first links inductionHypothesis =>
      rw [List.cons_append, fieldBehind?, inductionHypothesis, List.flatMap_cons, List.append_assoc]

theorem callsBehind_concat (links : List Link) (link : Link) :
    callsBehind start line front field (links ++ [link]) =
      link.calls start line (front ++ links.flatMap Link.trees) (fieldBehind? front field links) ++
        callsBehind start line front field links := by
  induction links generalizing front field with
  | nil => simp [callsBehind, fieldBehind?]
  | cons first links inductionHypothesis =>
      rw [List.cons_append, callsBehind, inductionHypothesis, List.flatMap_cons, fieldBehind?,
        callsBehind, List.append_assoc, List.append_assoc]

end Behind

/-! ## Chains -/

/-- The root of a chain, with the fragments inside it, and the links behind the root. -/
structure Chain where
  root : List Tree
  inRoot : List Fragment
  links : List Link

namespace Chain

def trees (chain : Chain) : List Tree :=
  chain.root ++ chain.links.flatMap Link.trees

/-- The place where a chain begins. -/
def start (chain : Chain) : Nat :=
  (chain.trees.head?.map fun tree => tree.first.start).getD 0

def line (chain : Chain) : Nat :=
  (chain.trees.head?.map fun tree => tree.first.line).getD 0

/-- The calls of a chain, the last one first. -/
def calls (chain : Chain) : List Fragment :=
  callsBehind chain.start chain.line chain.root none chain.links

/-- The fragments inside the root and the links of a chain. -/
def inside (chain : Chain) : List Fragment :=
  chain.inRoot ++ chain.links.flatMap Link.inside

end Chain

/-- What the grammar reads as the root of a chain. -/
def ReadsRoot (g : Grammar) (trees : List Tree) (inRoot : List Fragment) (rest : List Tree) : Prop :=
  (∃ structs, primary g structs trees = some (inRoot, rest)) ∨
    ∃ fragment, bracedMacro trees = some (fragment, rest) ∧ inRoot = [fragment]

/-- The trees of a chain stand in others, and the grammar reads them as its root and its links. -/
structure Chain.ReadIn (whole : List Tree) (chain : Chain) : Prop where
  root : ∃ depth rest, StandsIn whole (chain.trees ++ rest) ∧
    ReadsRoot (ofDepth depth) (chain.trees ++ rest) chain.inRoot
      (chain.links.flatMap Link.trees ++ rest)
  links : ∃ depth, ∀ link ∈ chain.links, link.ReadBy (ofDepth depth)

/-- A fragment that is no call. -/
def Fragment.NoCall (fragment : Fragment) : Prop :=
  ∀ callee arguments start line, fragment ≠ .call callee arguments start line

/-- The chains of some fragments, in order: the calls of a chain come first, then what is inside
it. -/
inductive ChainsIn (whole : List Tree) : List Chain → List Fragment → Prop where
  | nil : ChainsIn whole [] []
  | other {fragment : Fragment} {chains : List Chain} {rest : List Fragment}
      (noCall : fragment.NoCall) (behind : ChainsIn whole chains rest) :
      ChainsIn whole chains (fragment :: rest)
  | chain {chain : Chain} {chains : List Chain} {rest : List Fragment} (read : chain.ReadIn whole)
      (inside : chain.inside <+: rest) (behind : ChainsIn whole chains rest) :
      ChainsIn whole (chain :: chains) (chain.calls ++ rest)

/-- Every call among some fragments is one of a chain. -/
def Chained (whole : List Tree) (fragments : List Fragment) : Prop :=
  ∃ chains, ChainsIn whole chains fragments

section Chained

variable {whole : List Tree} {first second : List Fragment} {chains others : List Chain}

theorem ChainsIn.append (front : ChainsIn whole chains first) (back : ChainsIn whole others second) :
    ChainsIn whole (chains ++ others) (first ++ second) := by
  induction front with
  | nil => exact back
  | other noCall _ inductionHypothesis => exact .other noCall inductionHypothesis
  | chain read inside _ inductionHypothesis =>
      rw [List.cons_append, List.append_assoc]
      exact .chain read (inside.trans (List.prefix_append _ _)) inductionHypothesis

theorem chained_nil : Chained whole [] :=
  ⟨[], .nil⟩

theorem Chained.append (front : Chained whole first) (back : Chained whole second) :
    Chained whole (first ++ second) := by
  obtain ⟨chains, front⟩ := front
  obtain ⟨others, back⟩ := back
  exact ⟨chains ++ others, front.append back⟩

theorem Chained.cons {fragment : Fragment} (noCall : fragment.NoCall)
    (behind : Chained whole second) : Chained whole (fragment :: second) := by
  obtain ⟨chains, behind⟩ := behind
  exact ⟨chains, .other noCall behind⟩

theorem chained_flatMap {α : Type} {values : List α} {fragmentsOf : α → List Fragment}
    (each : ∀ value ∈ values, Chained whole (fragmentsOf value)) :
    Chained whole (values.flatMap fragmentsOf) := by
  induction values with
  | nil => exact chained_nil
  | cons value values inductionHypothesis =>
      rw [List.flatMap_cons]
      obtain ⟨here, later⟩ := List.forall_mem_cons.mp each
      exact here.append (inductionHypothesis later)

theorem chained_flatten {parts : List (List Fragment)} (each : ∀ part ∈ parts, Chained whole part) :
    Chained whole parts.flatten := by
  rw [← List.flatMap_id]
  exact chained_flatMap each

theorem chained_getD {found : Option (List Fragment)}
    (each : ∀ fragments ∈ found, Chained whole fragments) : Chained whole (found.getD []) := by
  cases found with
  | none => exact chained_nil
  | some fragments => exact each fragments rfl

theorem Chain.ReadIn.chained {chain : Chain} (read : chain.ReadIn whole)
    (inside : Chained whole chain.inside) : Chained whole (chain.calls ++ chain.inside) := by
  obtain ⟨chains, inside⟩ := inside
  exact ⟨chain :: chains, .chain read (List.prefix_refl _) inside⟩

end Chained

end ProgramIdl.Syntax
