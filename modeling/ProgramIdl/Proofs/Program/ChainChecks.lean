import ProgramIdl.Proofs.Declaration.NamedReceivers
import ProgramIdl.Proofs.Program.CheckNames
import ProgramIdl.Proofs.Syntax.Chains.Item

/-!
# Checks made by chains of calls

What is recorded of a body is recorded chain by chain.  The receivers of a chain all start with its
root, so they all stand for the same field of `self`, or for none: a chain that starts from a field
records each of its checks on that field, the last written one first, and any other records nothing.
-/

set_option autoImplicit false

namespace ProgramIdl

open ProgramIdl.Text
open ProgramIdl.Syntax
open ProgramIdl.Syntax.Grammar

/-! ## Recorded fragments -/

def isCheck (method : String) : Bool :=
  "assert_".toList.isPrefixOf method.toList

/-- What is recorded of a fragment of a body. -/
def check? (body : List Fragment) : Fragment → Option Assertion
  | .call (.method receiver method) arguments start _ =>
      if isCheck method then
        (standsFor? body start receiver).map fun field =>
          recordedCheck body start field method arguments
      else none
  | _ => none

theorem assertions_eq_filterMap (body : List Fragment) :
    assertions body = body.filterMap (check? body) :=
  rfl

/-- What is recorded of a chain. -/
def Syntax.Chain.recorded (body : List Fragment) (chain : Chain) : List Assertion :=
  chain.calls.filterMap (check? body)

/-- What is recorded of fragments is recorded of their chains. -/
theorem filterMap_check?_of_chainsIn {body : List Fragment} {whole : List Tree}
    {chains : List Chain} {fragments : List Fragment} (within : ChainsIn whole chains fragments) :
    fragments.filterMap (check? body) = chains.flatMap (Chain.recorded body) := by
  induction within with
  | nil => rfl
  | @other fragment _ _ noCall _ inductionHypothesis =>
      rw [← inductionHypothesis]
      refine List.filterMap_cons_none ?_
      cases fragment with
      | call callee arguments start line => exact absurd rfl (noCall callee arguments start line)
      | binding _ _ _ => rfl
      | macroCall _ _ _ _ => rfl
      | arm _ _ _ => rfl
  | chain _ _ _ inductionHypothesis =>
      rw [List.filterMap_append, inductionHypothesis, List.flatMap_cons, Chain.recorded]

/-! ## Methods of a chain -/

/-- The member that a call directly behind a link calls. -/
def Syntax.Link.member? : Link → Option String
  | .member _ name => if name.name = "await" then none else some name.name
  | _ => none

/-- The method that a link calls, with its arguments, given the member in front of the link. -/
def Syntax.Link.methods (member : Option String) : Link → List (String × List String)
  | .call _ arguments => member.toList.map fun name => (name, arguments.map Prod.fst)
  | _ => []

/-- The methods that some links call without generic arguments, in order. -/
def Syntax.methodsBehind (member : Option String) : List Link → List (String × List String)
  | [] => []
  | link :: rest => link.methods member ++ methodsBehind link.member? rest

/-- The methods of a chain that are called without generic arguments, in order. -/
def Syntax.Chain.methods (chain : Chain) : List (String × List String) :=
  methodsBehind none chain.links

/-- The checks among some methods, the last one first, on a field if there is one. -/
def checksOn (body : List Fragment) (start : Nat) (field : Option String)
    (methods : List (String × List String)) : List Assertion :=
  field.elim [] fun field =>
    (methods.filter fun method => isCheck method.1).reverse.map fun method =>
      recordedCheck body start field method.1 method.2

/-- The checks that a chain makes on a field, the last one first. -/
def Syntax.Chain.checks (body : List Fragment) (chain : Chain) (field : String) : List Assertion :=
  checksOn body chain.start (some field) chain.methods

section Methods

variable {body : List Fragment} {start line : Nat} {front : List Tree}
  {field : Option (String × String)} {found : Option String}

theorem checksOn_append (methods others : List (String × List String)) :
    checksOn body start found (methods ++ others) =
      checksOn body start found others ++ checksOn body start found methods := by
  cases found with
  | none => rfl
  | some field => simp [checksOn]

theorem Syntax.Link.snd_field? (link : Link) : (link.field? front).map Prod.snd = link.member? := by
  cases link with
  | member point name =>
      simp only [Link.field?, Link.member?]
      split <;> rfl
  | question _ => rfl
  | generic _ _ _ => rfl
  | index _ _ => rfl
  | call _ _ => rfl

/-- What one link records, if the receiver of the method that it calls stands for a field. -/
theorem filterMap_check?_calls {link : Link}
    (current : ∀ receiver name parentheses arguments, field = some (receiver, name) →
      link = .call parentheses arguments → standsFor? body start receiver = found) :
    (link.calls start line front field).filterMap (check? body) =
      checksOn body start found (link.methods (field.map Prod.snd)) := by
  have nothing : checksOn body start found [] = [] := by cases found <;> rfl
  cases link with
  | call parentheses arguments =>
      cases field with
      | none => exact nothing.symm
      | some both =>
          obtain ⟨receiver, name⟩ := both
          have same := current receiver name parentheses arguments rfl rfl
          simp only [Link.calls, calleeOf, List.filterMap_cons, List.filterMap_nil, check?, same,
            Link.methods, Option.map_some, Option.toList_some, List.map_cons, List.map_nil]
          by_cases checks : isCheck name = true
          · cases found <;> simp [checksOn, checks]
          · cases found <;> simp [checksOn, checks]
  | question _ => exact nothing.symm
  | member _ _ => exact nothing.symm
  | generic _ _ _ => exact nothing.symm
  | index _ _ => exact nothing.symm

/-- What some links record, if the receivers of the methods that they call stand for the same field, or
for none. -/
theorem filterMap_check?_callsBehind {links : List Link}
    (current : ∀ receiver name, field = some (receiver, name) → CallsFirst links →
      standsFor? body start receiver = found)
    (receivers : ∀ before point name behind, links = before ++ .member point name :: behind →
      CallsFirst behind →
        standsFor? body start (sourceText (front ++ before.flatMap Link.trees)) = found) :
    (callsBehind start line front field links).filterMap (check? body) =
      checksOn body start found (methodsBehind (field.map Prod.snd) links) := by
  induction links generalizing front field with
  | nil => cases found <;> rfl
  | cons link rest inductionHypothesis =>
      have here := @filterMap_check?_calls body start line front field found link ?_
      have later := @inductionHypothesis (front ++ link.trees) (link.field? front) ?_ ?_
      · rw [callsBehind, List.filterMap_append, here, later, methodsBehind, checksOn_append,
          link.snd_field?]
      · -- The method that a link leaves to be called is called on what stands in front of the link.
        intro receiver name left called
        cases link with
        | member point member =>
            rw [Link.field?] at left
            split at left
            · cases left
            · obtain ⟨rfl, rfl⟩ := Prod.mk.inj (Option.some.inj left)
              simpa using receivers [] point member rest rfl called
        | question _ => cases left
        | generic _ _ _ => cases left
        | index _ _ => cases left
        | call _ _ => cases left
      · intro before point name behind split called
        have whole := receivers (link :: before) point name behind (by rw [split]; rfl) called
        rwa [List.flatMap_cons, ← List.append_assoc] at whole
      · rintro receiver name parentheses arguments same rfl
        exact current receiver name same ⟨parentheses, arguments, rest, rfl⟩

/-- What a chain records, if its receivers stand for the same field, or for none. -/
theorem Syntax.Chain.recorded_eq {chain : Chain}
    (receivers : ∀ before point name behind, chain.links = before ++ .member point name :: behind →
      CallsFirst behind → standsFor? body chain.start
        (sourceText (chain.root ++ before.flatMap Link.trees)) = found) :
    chain.recorded body = checksOn body chain.start found chain.methods :=
  filterMap_check?_callsBehind nofun receivers

end Methods

/-! ## Roots -/

namespace Syntax.Chain

/-- A chain that starts from a field of `self` and does not call it. -/
def AtField (chain : Chain) (field : Token) : Prop :=
  ∃ self point links, chain.root = [.leaf self] ∧ chain.links = .member point field :: links ∧
    ¬ CallsFirst links ∧
      IsSelfField (sourceText [.leaf self, .leaf point, .leaf field]).toList field.text

/-- A chain that starts from a name and does not call it. -/
structure AtName (chain : Chain) (name : Token) : Prop where
  root : chain.root = [.leaf name]
  kind : name.kind = .word
  uncalled : ¬ CallsFirst chain.links

/-- A chain that starts from the call of a function. -/
structure AtFunction (chain : Chain) : Prop where
  root : ∃ depth, Parser.all (path (ofDepth depth)) chain.root = some ()
  called : CallsFirst chain.links

/-- A chain that starts from a macro call. -/
def AtMacro (chain : Chain) : Prop :=
  ∃ fragment, Parser.all macroCall chain.root = some fragment

end Syntax.Chain

section Roots

variable {whole : List Tree} {chain : Chain} {body : List Fragment}

theorem Syntax.Chain.ReadIn.edged (read : chain.ReadIn whole) (edged : EdgedTrees whole) :
    EdgedTrees chain.trees := by
  obtain ⟨_, rest, stands, _⟩ := read.root
  exact (stands.edged edged).left

theorem Syntax.Chain.trees_of_split {before behind : List Link}
    (split : chain.links = before ++ behind) :
    chain.trees = chain.root ++ before.flatMap Link.trees ++ behind.flatMap Link.trees := by
  rw [Chain.trees, split, List.flatMap_append, List.append_assoc]

variable (read : chain.ReadIn whole) (edged : EdgedTrees whole)

include read edged

/-- A chain records nothing if what stands behind its first name calls a function or a macro, or goes
on with a path. -/
theorem Syntax.Chain.recorded_of_seals {first : Tree} {more : List Tree}
    (root : chain.root = first :: more)
    (kinds : (∃ c ∈ ['<', ':'], first.isMark c = true) ∨ ∃ name, first = .leaf name ∧
      name.kind = .word ∧ ∀ before point member behind,
        chain.links = before ++ .member point member :: behind →
          Seals (more ++ before.flatMap Link.trees))
    (free : Unbound body (frontWord chain.root) ∨ Tight chain.trees) : chain.recorded body = [] := by
  have nothing : checksOn body chain.start none chain.methods = [] := rfl
  rw [← nothing]
  refine Chain.recorded_eq fun before point member behind split _ => ?_
  have edgedChain := read.edged edged
  rw [Chain.trees_of_split split, root] at edgedChain free
  rw [root, List.cons_append]
  rcases kinds with mark | ⟨name, rfl, kind, seals⟩
  · exact standsFor?_of_mark edgedChain.left mark
  · exact standsFor?_of_seals edgedChain kind (seals before point member behind split) free

/-- A chain that starts from the call of a function records nothing. -/
theorem Syntax.Chain.recorded_of_function (atFunction : chain.AtFunction)
    (free : Unbound body (frontWord chain.root) ∨ Tight chain.trees) : chain.recorded body = [] := by
  obtain ⟨depth, found⟩ := atFunction.root
  obtain ⟨parentheses, arguments, rest, links⟩ := atFunction.called
  obtain ⟨first, more, root, kinds⟩ := front_of_path (read_of_all found)
  have parenthesis : BeginsWith '(' [parentheses] := by
    have edgedChain := read.edged edged
    rw [Chain.trees, links, List.flatMap_cons] at edgedChain
    obtain ⟨depth, linksRead⟩ := read.links
    have call : (Link.call parentheses arguments).ReadBy (ofDepth depth) :=
      linksRead _ (by simp [links])
    exact call.beginsWith_of_call edgedChain.right.left
  refine Chain.recorded_of_seals read edged root (kinds.imp_right ?_) free
  rintro ⟨name, rfl, kind, behind⟩
  refine ⟨name, rfl, kind, fun before point member others split => ?_⟩
  rcases behind with rfl | colons
  · -- A path of one name: the call comes next, in front of any member.
    cases before with
    | nil =>
        rw [links] at split
        cases split
    | cons link before =>
        rw [links] at split
        obtain ⟨rfl, _⟩ := List.cons.inj split
        exact .inl (parenthesis.append _)
  · exact (Seals.append (.inr (.inr colons)) _)

/-- A chain that starts from a macro call records nothing. -/
theorem Syntax.Chain.recorded_of_macro (atMacro : chain.AtMacro)
    (free : Unbound body (frontWord chain.root) ∨ Tight chain.trees) : chain.recorded body = [] := by
  obtain ⟨fragment, found⟩ := atMacro
  obtain ⟨first, more, root, kinds⟩ := front_of_macroCall (read_of_all found)
  have edgedChain := read.edged edged
  rw [Chain.trees, root] at edgedChain
  refine Chain.recorded_of_seals read edged root
    (kinds.imp (fun colon => ⟨':', by decide, colon⟩) ?_) free
  rintro ⟨name, rfl, kind, behind⟩
  refine ⟨name, rfl, kind, fun before point member others split => Seals.append ?_ _⟩
  rcases behind with bang | colons
  · cases more with
    | nil => cases bang
    | cons tree others =>
        obtain ⟨token, rfl, isBang⟩ := exists_of_isMark bang
        have text := (edgedChain.tail.text_of_mark isBang).1
        exact .inr (.inl ⟨_, others, rfl, text⟩)
  · exact .inr (.inr colons)

/-- What stands behind a name or a field in front of the member that a chain calls. -/
theorem Syntax.Chain.opens_of_links {root : List Tree} {before behind : List Link}
    (trees : chain.trees = root ++ (before ++ behind).flatMap Link.trees)
    (listed : ∀ link ∈ before, link ∈ chain.links) (uncalled : ¬ CallsFirst before) :
    StopsWord (Tree.spelled (before.flatMap Link.trees)) ∧
      isSealed (squeeze (Tree.spelled (before.flatMap Link.trees))) = false := by
  cases none_ : before with
  | nil => exact ⟨rfl, rfl⟩
  | cons link rest =>
      obtain ⟨_, linksRead⟩ := read.links
      have edgedChain := read.edged edged
      rw [trees, List.flatMap_append] at edgedChain
      have edgedBefore := edgedChain.right.left
      obtain ⟨c, begins, kinds⟩ := exists_beginsWith_of_links (by simp [none_])
        (fun link found => linksRead link (listed link found)) edgedBefore
      have marks : ∀ c ∈ ['?', '.', '['], isWordChar c = false ∧ isBlank c = false ∧
          c ∉ ['!', '(', ':'] := forall_mem_of_all (by decide)
      rcases kinds with kind | ⟨_, called⟩
      · obtain ⟨noLetter, visible, other⟩ := marks c kind
        rw [← none_]
        refine ⟨begins.stopsWord edgedBefore noLetter, isSealed_of_head? fun d head => ?_⟩
        rcases begins.head?_squeeze edgedBefore visible d head with rfl | rfl | rfl | blank
        · exact other
        · decide
        · decide
        · intro sealing
          have seen : ∀ d ∈ ['!', '(', ':'], isSourceBlank d = false :=
            forall_mem_of_all (by decide)
          rw [seen d sealing] at blank
          cases blank
      · exact absurd called uncalled

/-- A chain that starts from a field of `self` records its checks on that field. -/
theorem Syntax.Chain.recorded_of_field {field : Token} (selfFree : Unbound body "self")
    (atField : chain.AtField field) : chain.recorded body = chain.checks body field.name := by
  obtain ⟨self, point, links, root, split, uncalled, isField⟩ := atField
  refine Chain.recorded_eq fun before dot name behind same called => ?_
  cases before with
  | nil =>
      rw [split] at same
      obtain ⟨_, rfl⟩ := List.cons.inj same
      exact absurd called uncalled
  | cons link before =>
      rw [split] at same
      obtain ⟨rfl, rfl⟩ := List.cons.inj same
      have trees : chain.trees = [.leaf self, .leaf point, .leaf field] ++
          (before ++ .member dot name :: behind).flatMap Link.trees := by
        rw [Chain.trees, root, split]
        rfl
      obtain ⟨stops, _⟩ := Chain.opens_of_links read edged trees
        (fun link listed => by simp [split, listed]) fun first => uncalled (first.append _)
      rw [root]
      exact standsFor?_of_selfField selfFree isField
        (toList_sourceText_append (.leaf self) [.leaf point, .leaf field] _) stops

/-- A chain that starts from a local bound to a field of `self` records its checks on that field. -/
theorem Syntax.Chain.recorded_of_local {name : Token} {value field : String} {stop : Nat}
    (selfFree : Unbound body "self") (atName : chain.AtName name) (isName : IsLocalName name.text)
    (bound : BoundOnce body name.name value stop) (earlier : stop ≤ chain.start)
    (isField : IsSelfField value.toList field.toList) :
    chain.recorded body = chain.checks body field := by
  refine Chain.recorded_eq fun before point member behind split _ => ?_
  have trees : chain.trees = [.leaf name] ++
      (before ++ .member point member :: behind).flatMap Link.trees := by
    rw [Chain.trees, atName.root, split]
  obtain ⟨stops, unsealed⟩ := Chain.opens_of_links read edged trees
    (fun link listed => by simp [split, listed])
    fun first => atName.uncalled (split ▸ first.append _)
  rw [atName.root, ← String.ofList_toList (s := field)]
  exact standsFor?_of_local selfFree isName bound earlier isField (toList_sourceText name _) stops
    unsealed

/-- A chain that starts from a name that is bound to nothing records nothing. -/
theorem Syntax.Chain.recorded_of_name {name : Token} (atName : chain.AtName name)
    (other : name.name ≠ "self") (unbound : Unbound body (frontWord chain.root)) :
    chain.recorded body = [] := by
  have nothing : checksOn body chain.start none chain.methods = [] := rfl
  rw [← nothing]
  refine Chain.recorded_eq fun before point member behind split _ => ?_
  have trees : chain.trees = [.leaf name] ++
      (before ++ .member point member :: behind).flatMap Link.trees := by
    rw [Chain.trees, atName.root, split]
  have edgedChain := read.edged edged
  obtain ⟨stops, _⟩ := Chain.opens_of_links read edged trees
    (fun link listed => by simp [split, listed])
    fun first => atName.uncalled (split ▸ first.append _)
  rw [trees, List.flatMap_append, ← List.append_assoc] at edgedChain
  rw [atName.root] at unbound ⊢
  exact standsFor?_of_name edgedChain.left atName.kind stops (.inl unbound) (absurd · other)

end Roots

/-! ## Files -/

/-- What a chain of a body records, by its root. -/
structure Syntax.Chain.Records (body : List Fragment) (chain : Chain) : Prop where
  ofField {field : Token} : Unbound body "self" → chain.AtField field →
    chain.recorded body = chain.checks body field.name
  ofLocal {name : Token} {value field : String} {stop : Nat} : Unbound body "self" →
    chain.AtName name → IsLocalName name.text → BoundOnce body name.name value stop →
      stop ≤ chain.start → IsSelfField value.toList field.toList →
        chain.recorded body = chain.checks body field
  ofName {name : Token} : chain.AtName name → name.name ≠ "self" →
    Unbound body (frontWord chain.root) → chain.recorded body = []
  ofFunction : chain.AtFunction → Unbound body (frontWord chain.root) ∨ Tight chain.trees →
    chain.recorded body = []
  ofMacro : chain.AtMacro → Unbound body (frontWord chain.root) ∨ Tight chain.trees →
    chain.recorded body = []

theorem Syntax.Chain.ReadIn.records {whole : List Tree} {chain : Chain} {body : List Fragment}
    (read : chain.ReadIn whole) (edged : EdgedTrees whole) : chain.Records body where
  ofField selfFree atField := Chain.recorded_of_field read edged selfFree atField
  ofLocal selfFree atName isName bound earlier isField :=
    Chain.recorded_of_local read edged selfFree atName isName bound earlier isField
  ofName atName other unbound := Chain.recorded_of_name read edged atName other unbound
  ofFunction atFunction free := Chain.recorded_of_function read edged atFunction free
  ofMacro atMacro free := Chain.recorded_of_macro read edged atMacro free

theorem Syntax.ChainsIn.readIn {whole : List Tree} {chains : List Chain} {fragments : List Fragment}
    (within : ChainsIn whole chains fragments) : ∀ chain ∈ chains, chain.ReadIn whole := by
  induction within with
  | nil => nofun
  | other _ _ inductionHypothesis => exact inductionHypothesis
  | chain read _ _ inductionHypothesis => exact List.forall_mem_cons.mpr ⟨read, inductionHypothesis⟩

/-- The calls in a body are those of its chains, and its checks are recorded chain by chain. -/
structure ChecksByChain (inner : List Tree) (body : List Fragment) (chains : List Chain) : Prop where
  within : ChainsIn inner chains body
  assertions : assertions body = chains.flatMap (Chain.recorded body)
  records : ∀ chain ∈ chains, chain.Records body

/-- An implementation in a text that checks the accounts of an instruction is declared in a file with
the checks of all its methods, and those of a method are recorded chain by chain. -/
def ScannedFile.DeclaresByChain (file : ScannedFile) (text : String) : Prop :=
  ∃ trees items, trees? text = some trees ∧ itemsOfTrees trees = some items ∧
    ∀ depth annotations line ofTrait target bodies,
      (depth, ⟨annotations, line, .implementation ofTrait target bodies⟩) ∈ leaves 0 items →
      typeName ofTrait = "ProcessAccountInfos" →
        Declaration.processor ⟨typeName target, ⟨file.path, line⟩, [],
            ⟨bodies.flatMap assertions⟩⟩ ∈ file.declarations ∧
          ∀ body ∈ bodies, ∃ inner chains, BlockIn trees inner body ∧
            ChecksByChain inner body chains

theorem declaresByChain_of_scan {path text : String} {file : ScannedFile}
    (outcome : (scan path text).outcome = .ok file) : file.DeclaresByChain text := by
  cases parsed : itemsOf? text with
  | none =>
      rw [scan, parsed] at outcome
      cases outcome
  | some items =>
      obtain ⟨trees, treesRead, itemsRead⟩ := Option.bind_eq_some_iff.mp parsed
      have read : file.ReadFrom items := ⟨path, text, parsed, outcome⟩
      refine ⟨trees, items, treesRead, itemsRead, ?_⟩
      intro depth annotations line ofTrait target bodies leaf processes
      refine ⟨read.declares_processor leaf processes, fun body listed => ?_⟩
      obtain ⟨inner, block, chains, within⟩ :=
        bodyIn_of_itemsOfTrees itemsRead 0 _ leaf body listed
      obtain ⟨opening, closing, rest, stands⟩ := block.stands
      have edged : EdgedTrees inner := stands.inside.edged (edgedTrees_of_trees? treesRead)
      refine ⟨inner, chains, block, within, ?_, ?_⟩
      · rw [assertions_eq_filterMap, filterMap_check?_of_chainsIn within]
      · exact fun chain member => (within.readIn chain member).records edged

/-! ## A blank in front of a macro's mark -/

/-- A method with a chain that starts from a local, and one that starts from a call of a macro of the
same name, with a blank in front of its mark. -/
def slotsSource : String :=
  "impl ProcessAccountInfos for Slots \x7b fn check(&self) \x7b " ++
    "let account = self.vault; account.assert_owner()?.assert_writable(); " ++
    "account !(1).assert_signer(); \x7d \x7d"

def slotsBody : List Fragment :=
  [.binding "account" "self.vault" 80,
    .call (.method "account.assert_owner()?" "assert_writable") [] 81 1,
    .call (.method "account" "assert_owner") [] 81 1,
    .call (.method "account !(1)" "assert_signer") [] 124 1, .macroCall "account" "(1)" 124 1]

def slotsFile : ScannedFile :=
  ⟨"src/lib.rs", [.processor ⟨"Slots", ⟨"src/lib.rs", 1⟩, [],
    ⟨[⟨"vault", "assert_writable", []⟩, ⟨"vault", "assert_owner", []⟩,
      ⟨"vault", "assert_signer", []⟩]⟩⟩]⟩

theorem slots_declaresByChain :
    (scan "src/lib.rs" slotsSource).outcome = .ok slotsFile ∧
      slotsFile.DeclaresByChain slotsSource := by
  have outcome : (scan "src/lib.rs" slotsSource).outcome = .ok slotsFile := by decide +kernel
  exact ⟨outcome, declaresByChain_of_scan outcome⟩

/-- The content of the block of the only method of an implementation. -/
def methodBlock? : List Tree → Option (List Tree)
  | [_, _, _, _, .group _ _ [_, _, _, .group .brace _ inner _] _] => some inner
  | _ => none

theorem exists_standsIn_of_methodBlock? {trees inner : List Tree}
    (found : methodBlock? trees = some inner) :
    ∃ opening closing rest, StandsIn trees (.group .brace opening inner closing :: rest) := by
  unfold methodBlock? at found
  split at found
  · obtain rfl := Option.some.inj found
    exact ⟨_, _, [], StandsIn.all.behind.behind.behind.behind.inside.behind.behind.behind⟩
  · cases found

theorem slotsSource_read :
    ∃ inner ∈ (trees? slotsSource).bind methodBlock?, inner.length = 23 ∧
      ((ofDepth 4).statements inner).map (fun read => (read.1, read.2.length)) =
        some (slotsBody, 0) ∧
      (primary (ofDepth 3) true (inner.drop 16)).map (fun read => (read.1, read.2.length)) =
        some (slotsBody.drop 4, 4) ∧
      (operand (ofDepth 3) true (inner.drop 16)).map (fun read => read.1.fragments) =
        some (slotsBody.drop 3) ∧
      (Parser.all macroCall ((inner.drop 16).take 3)).isSome = true := by
  decide +kernel

/-- Without the condition on what stands behind its first name, a chain that starts from a macro call
may record a check. -/
theorem exists_recorded_of_macro :
    ∃ trees inner chain, trees? slotsSource = some trees ∧ BlockIn trees inner slotsBody ∧
      Chain.ReadIn inner chain ∧ chain.AtMacro ∧ chain.recorded slotsBody ≠ [] := by
  obtain ⟨inner, found, length, statementsRead, primaryRead, operandRead, macroRead⟩ :=
    slotsSource_read
  obtain ⟨trees, treesRead, method⟩ := Option.bind_eq_some_iff.mp found
  obtain ⟨⟨body, none_⟩, bodyRead, same⟩ := Option.map_eq_some_iff.mp statementsRead
  obtain ⟨rfl, empty⟩ := Prod.mk.inj same
  obtain rfl := List.length_eq_zero_iff.mp empty
  have block : BlockIn trees inner slotsBody := ⟨exists_standsIn_of_methodBlock? method, 4, bodyRead⟩
  -- The chain is the operand in front of the last semicolon.
  have reads := readsChains_ofDepth 3
  have stands : StandsIn inner (inner.drop 16) := StandsIn.all.suffix (List.drop_suffix _ _)
  obtain ⟨⟨expression, rest⟩, read, fragments⟩ := Option.map_eq_some_iff.mp operandRead
  obtain ⟨⟨inRoot, left⟩, rootRead, linksRead⟩ := Option.bind_eq_some_iff.mp read
  obtain ⟨⟨front, split⟩, inRootChained⟩ := primary_yields reads true _ _ _ stands rootRead
  rw [rootRead, Option.map_some] at primaryRead
  obtain ⟨rfl, leftLength⟩ := Prod.mk.inj (Option.some.inj primaryRead)
  rw [← split] at stands rootRead linksRead macroRead
  obtain ⟨chain, root, inRoot, readIn, _, within⟩ := links_readIn (argument_yields reads)
    (reads.expression inner true) rfl stands (.inl ⟨true, rootRead⟩) inRootChained linksRead
  refine ⟨trees, inner, chain, treesRead, block, readIn, ?_, ?_⟩
  · have frontLength : front.length = 3 := by
      have lengths := congrArg List.length split
      rw [List.length_append, List.length_drop, length] at lengths
      dsimp only at leftLength
      omega
    rw [List.take_left' frontLength] at macroRead
    rw [Chain.AtMacro, root]
    exact Option.isSome_iff_exists.mp macroRead
  · -- The macro call is inside the root, so the call in front of it is one of the chain.
    have split := within.fragments.symm.trans fragments
    rw [Chain.inside, inRoot] at split
    cases calls : chain.calls with
    | nil =>
        rw [calls] at split
        cases (List.cons.inj split).1
    | cons call others =>
        rw [calls] at split
        obtain ⟨rfl, _⟩ := List.cons.inj split
        have recorded : (check? slotsBody
            (.call (.method "account !(1)" "assert_signer") [] 124 1)).isSome = true := by
          decide +kernel
        obtain ⟨check, found⟩ := Option.isSome_iff_exists.mp recorded
        rw [Chain.recorded, calls, List.filterMap_cons_some found]
        exact List.cons_ne_nil check _

end ProgramIdl
