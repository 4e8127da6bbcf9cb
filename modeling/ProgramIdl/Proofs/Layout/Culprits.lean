import ProgramIdl.Proofs.Layout.Requests

/-!
# The token that is blamed

Fields are gone through in depth: in order, and at the name of a struct through the fields of the struct
before the next field.  A token stops this if it cannot be read, or if it names a struct on the way to it.
The resolver goes through a struct only once, and yet it blames the first token that stops
(`TypeTable.resolveFields_eq_error_iff`), in the name of the declaration in which that token stands.
-/

set_option autoImplicit false

namespace ProgramIdl

/-- A field that is met in depth. -/
structure Spot where
  /-- The structs on the way to the field, innermost first. -/
  path : List String
  /-- The declaration that the field stands in. -/
  owner : Owner
  field : Field

/-- The failure that blames the token of a field. -/
def Spot.failure (spot : Spot) : Failure :=
  spot.owner.unsupported spot.field.type

namespace TypeTable

open Resolving ProgramIdl.Text

variable {table : TypeTable} {path : List String} {owner : Owner} {fields rest : List Field}
variable {field : Field} {place : List Nat} {position : Nat} {spot : Spot}

/-- No rule reads the token, or it names a struct on the way to it. -/
def Stops (table : TypeTable) (path : List String) (token : String) : Prop :=
  table.read token = .unknown ∨
    ∃ name fields, table.read token = .record name fields ∧ name ∈ path

/-- The fields that are met below a path, each at its place: its position in its declaration behind
the place of the field that leads there. -/
inductive Met (table : TypeTable) :
    List String → Owner → List Field → List Nat → Spot → Prop where
  | here {path : List String} {owner : Owner} {fields : List Field} {position : Nat} {field : Field}
      (listed : fields[position]? = some field) :
      Met table path owner fields [position] ⟨path, owner, field⟩
  | inside {path : List String} {owner : Owner} {fields declared : List Field} {position : Nat}
      {field : Field} {name : String} {place : List Nat} {spot : Spot}
      (listed : fields[position]? = some field)
      (reads : table.read field.type = .record name declared) (fresh : name ∉ path)
      (deeper : Met table (name :: path) ⟨name, table.sites.lookup name⟩ declared place spot) :
      Met table path owner fields (position :: place) spot

/-- Structs that can be reached from some fields, by the names that tokens of fields say. -/
inductive Reaches (table : TypeTable) (fields : List Field) : String → Prop where
  | named {field : Field} {name : String} {declared : List Field} (listed : field ∈ fields)
      (reads : table.read field.type = .record name declared) : Reaches table fields name
  | further {outer name : String} {between declared : List Field} {field : Field}
      (reached : Reaches table fields outer) (inner : table.records.lookup outer = some between)
      (listed : field ∈ between) (reads : table.read field.type = .record name declared) :
      Reaches table fields name

/-! ## What is met -/

theorem met_succ_iff : table.Met path owner (field :: rest) ((position + 1) :: place) spot ↔
    table.Met path owner rest (position :: place) spot := by
  constructor
  · intro met
    cases met with
    | here listed => exact .here (by simpa using listed)
    | inside listed reads fresh deeper => exact .inside (by simpa using listed) reads fresh deeper
  · intro met
    cases met with
    | here listed => exact .here (by simpa using listed)
    | inside listed reads fresh deeper => exact .inside (by simpa using listed) reads fresh deeper

theorem Met.exists_cons (met : table.Met path owner fields place spot) :
    ∃ position later, place = position :: later := by
  cases met with
  | here listed => exact ⟨_, _, rfl⟩
  | inside listed reads fresh deeper => exact ⟨_, _, rfl⟩

theorem Met.exists_listed (met : table.Met path owner fields (position :: place) spot) :
    ∃ field, fields[position]? = some field := by
  cases met with
  | here listed => exact ⟨_, listed⟩
  | inside listed _ _ _ => exact ⟨_, listed⟩

/-- At one place one field is met. -/
theorem Met.unique {other : Spot} (met : table.Met path owner fields place spot)
    (again : table.Met path owner fields place other) : other = spot := by
  induction met with
  | here listed =>
      cases again with
      | here listedToo =>
          rw [listed] at listedToo
          rw [Option.some.inj listedToo]
      | inside _ _ _ deeper =>
          obtain ⟨_, _, impossible⟩ := deeper.exists_cons
          cases impossible
  | inside listed reads fresh deeper inductionHypothesis =>
      cases again with
      | here _ =>
          obtain ⟨_, _, impossible⟩ := deeper.exists_cons
          cases impossible
      | inside listedToo readsToo _ deeperToo =>
          rw [listed] at listedToo
          obtain rfl := Option.some.inj listedToo
          rw [reads] at readsToo
          injection readsToo with sameName sameFields
          subst sameName sameFields
          exact inductionHypothesis deeperToo

/-- What is met is needed for all structs on the way to it. -/
theorem Met.needed (met : table.Met path owner fields place spot)
    (needed : ∀ field ∈ fields, table.Needed path field.type) :
    table.Needed spot.path spot.field.type := by
  induction met with
  | here listed => exact needed _ (List.mem_of_getElem? listed)
  | inside listed reads fresh deeper inductionHypothesis =>
      apply inductionHypothesis
      intro field inner
      exact (needed _ (List.mem_of_getElem? listed)).enter reads inner

/-- Whatever is met inside a field with a layout has a layout. -/
theorem Met.typed (met : table.Met path owner fields (position :: place) spot)
    (listed : fields[position]? = some field) (typed : ∃ layout, table.HasType field.type layout) :
    ∃ layout, table.HasType spot.field.type layout := by
  induction place generalizing path owner fields position field with
  | nil =>
      cases met with
      | here listedToo =>
          rw [listed] at listedToo
          rw [← Option.some.inj listedToo]
          exact typed
      | inside _ _ _ deeper =>
          obtain ⟨_, _, impossible⟩ := deeper.exists_cons
          cases impossible
  | cons next place inductionHypothesis =>
      cases met with
      | inside listedToo reads fresh deeper =>
          rw [listed] at listedToo
          obtain rfl := Option.some.inj listedToo
          obtain ⟨layout, has⟩ := typed
          have laid := (hasType_of_read_record reads).mp has
          have declared := (declared_of_read_record reads).2
          obtain ⟨inner, innerListed⟩ := deeper.exists_listed
          obtain ⟨smaller, hasToo, _⟩ :=
            laid.exists_smaller declared (List.mem_of_getElem? innerListed)
          exact inductionHypothesis deeper innerListed ⟨smaller, hasToo⟩

/-- The name of a struct that is not on the way to it does not stop: the struct is entered. -/
theorem not_stops_of_fresh {token name : String} {declared : List Field}
    (reads : table.read token = .record name declared) (fresh : name ∉ path) :
    ¬ table.Stops path token := by
  intro stops
  cases stops with
  | inl unknown =>
      rw [reads] at unknown
      cases unknown
  | inr cycle =>
      obtain ⟨_, _, readsToo, among⟩ := cycle
      rw [reads] at readsToo
      injection readsToo with sameName sameFields
      subst sameName
      exact fresh among

/-- A token that stops has no layout, since the struct that it names would lie inside itself. -/
theorem Stops.untyped {token : String} (stops : table.Stops path token)
    (needed : table.Needed path token) (layout : Layout) : ¬ table.HasType token layout := by
  intro typed
  cases stops with
  | inl unknown => exact not_hasType_of_read_unknown unknown layout typed
  | inr cycle =>
      obtain ⟨name, fields, reads, listed⟩ := cycle
      have laid := (hasType_of_read_record reads).mp typed
      obtain ⟨again, typedToo, smaller⟩ := needed name listed layout laid
      rw [typed.unique typedToo] at smaller
      exact Nat.lt_irrefl _ smaller

/-- What is met stands among the fields themselves, or in a struct that they reach. -/
theorem Met.stands (met : table.Met path owner fields place spot) :
    (spot.path = path ∧ spot.owner = owner ∧ spot.field ∈ fields) ∨
      ∃ name between declared, spot.path = name :: (between ++ path) ∧
        spot.owner = ⟨name, table.sites.lookup name⟩ ∧
        table.records.lookup name = some declared ∧ spot.field ∈ declared ∧
        table.Reaches fields name := by
  induction met with
  | here listed => exact .inl ⟨rfl, rfl, List.mem_of_getElem? listed⟩
  | @inside path owner fields declared position field name place spot listed reads fresh deeper
      inductionHypothesis =>
      have lookup := (declared_of_read_record reads).2
      have reached : table.Reaches fields name := .named (List.mem_of_getElem? listed) reads
      have onward : ∀ other, table.Reaches declared other → table.Reaches fields other := by
        intro other reaches
        induction reaches with
        | named listed reads => exact .further reached lookup listed reads
        | further _ inner listed reads further => exact .further further inner listed reads
      right
      cases inductionHypothesis with
      | inl direct =>
          obtain ⟨samePath, sameOwner, inner⟩ := direct
          exact ⟨name, [], declared, samePath, sameOwner, lookup, inner, reached⟩
      | inr deep =>
          obtain ⟨other, between, inner, samePath, sameOwner, found, among, reaches⟩ := deep
          refine ⟨other, between ++ [name], inner, ?_, sameOwner, found, among, onward _ reaches⟩
          simp [samePath]

/-! ## The first field that stops -/

/-- One place comes before another in depth: it leads there, or it turns off to an earlier field. -/
def Before (place other : List Nat) : Prop :=
  List.Lex (· < ·) place other

theorem before_cons_iff {position next : Nat} {place other : List Nat} :
    Before (position :: place) (next :: other) ↔
      position < next ∨ position = next ∧ Before place other := by
  constructor
  · intro before
    cases before with
    | rel lower => exact .inl lower
    | cons later => exact .inr ⟨rfl, later⟩
  · intro before
    cases before with
    | inl lower => exact .rel lower
    | inr same =>
        obtain ⟨rfl, later⟩ := same
        exact .cons later

theorem Before.asymm {place other : List Nat} (before : Before place other) : ¬ Before other place := by
  intro after
  induction before with
  | nil => cases after
  | cons later inductionHypothesis =>
      rw [before_cons_iff] at after
      cases after with
      | inl lower => exact Nat.lt_irrefl _ lower
      | inr same => exact inductionHypothesis same.2
  | rel lower =>
      rw [before_cons_iff] at after
      omega

/-- The first field that stops, in depth; the fields that are met before it have layouts, save those
that lead to it. -/
structure Foremost (table : TypeTable) (path : List String) (owner : Owner) (fields : List Field)
    (place : List Nat) (spot : Spot) : Prop where
  met : table.Met path owner fields place spot
  stops : table.Stops spot.path spot.field.type
  first : ∀ other spotToo, table.Met path owner fields other spotToo →
    table.Stops spotToo.path spotToo.field.type → other = place ∨ Before place other
  typed : ∀ other spotToo, table.Met path owner fields other spotToo → Before other place →
    ¬ other <+: place → ∃ layout, table.HasType spotToo.field.type layout

theorem Foremost.here (stops : table.Stops path field.type) :
    table.Foremost path owner (field :: rest) [0] ⟨path, owner, field⟩ := by
  refine ⟨.here rfl, stops, ?_, ?_⟩
  · intro other spotToo met _
    obtain ⟨position, later, rfl⟩ := met.exists_cons
    by_cases first : position = 0
    · subst first
      by_cases alone : later = []
      · exact .inl (by rw [alone])
      · obtain ⟨next, more, rfl⟩ := List.exists_cons_of_ne_nil alone
        exact .inr (.cons .nil)
    · exact .inr (.rel (Nat.pos_of_ne_zero first))
  · intro other spotToo met before
    obtain ⟨position, later, rfl⟩ := met.exists_cons
    rw [before_cons_iff] at before
    cases before with
    | inl lower => exact absurd lower (Nat.not_lt_zero position)
    | inr same => cases same.2

theorem Foremost.inside {name : String} {declared : List Field}
    (reads : table.read field.type = .record name declared) (fresh : name ∉ path)
    (foremost : table.Foremost (name :: path) ⟨name, table.sites.lookup name⟩ declared place spot) :
    table.Foremost path owner (field :: rest) (0 :: place) spot := by
  -- What is met at the first field is the field itself, or is met in its struct.
  have below : ∀ {later : List Nat} {other : Spot},
      table.Met path owner (field :: rest) (0 :: later) other → later ≠ [] →
        table.Met (name :: path) ⟨name, table.sites.lookup name⟩ declared later other := by
    intro later other met nonempty
    cases met with
    | here _ => exact absurd rfl nonempty
    | inside listed readsToo _ deeper =>
        obtain rfl := Option.some.inj listed
        rw [reads] at readsToo
        injection readsToo with sameName sameFields
        subst sameName sameFields
        exact deeper
  refine ⟨.inside rfl reads fresh foremost.met, foremost.stops, ?_, ?_⟩
  · intro other spotToo met stops
    obtain ⟨position, later, rfl⟩ := met.exists_cons
    by_cases first : position = 0
    · subst first
      by_cases nonempty : later = []
      · -- The field itself does not stop: its struct is entered.
        subst nonempty
        have itself := Met.unique (.here rfl) met
        subst itself
        exact absurd stops (not_stops_of_fresh reads fresh)
      · cases foremost.first later spotToo (below met nonempty) stops with
        | inl same => exact .inl (by rw [same])
        | inr after => exact .inr (.cons after)
    · exact .inr (.rel (Nat.pos_of_ne_zero first))
  · intro other spotToo met before apart
    obtain ⟨position, later, rfl⟩ := met.exists_cons
    rw [before_cons_iff] at before
    cases before with
    | inl lower => exact absurd lower (Nat.not_lt_zero position)
    | inr inner =>
        obtain ⟨rfl, before⟩ := inner
        by_cases nonempty : later = []
        · subst nonempty
          exact absurd (List.prefix_append [0] place) apart
        · apply foremost.typed later spotToo (below met nonempty) before
          intro leads
          exact apart (List.cons_prefix_cons.mpr ⟨rfl, leads⟩)

theorem Foremost.later (typed : ∃ layout, table.HasType field.type layout)
    (needed : ∀ listed ∈ field :: rest, table.Needed path listed.type)
    (foremost : table.Foremost path owner rest (position :: place) spot) :
    table.Foremost path owner (field :: rest) ((position + 1) :: place) spot := by
  refine ⟨met_succ_iff.mpr foremost.met, foremost.stops, ?_, ?_⟩
  · intro other spotToo met stops
    obtain ⟨place, later, rfl⟩ := met.exists_cons
    cases place with
    | zero =>
        obtain ⟨layout, has⟩ := met.typed rfl typed
        exact absurd has (stops.untyped (met.needed needed) layout)
    | succ place =>
        have first := foremost.first _ spotToo (met_succ_iff.mp met) stops
        simpa [before_cons_iff] using first
  · intro other spotToo met before apart
    obtain ⟨place, later, rfl⟩ := met.exists_cons
    cases place with
    | zero => exact met.typed rfl typed
    | succ place =>
        apply foremost.typed _ spotToo (met_succ_iff.mp met)
        · simpa [before_cons_iff] using before
        · intro leads
          apply apart
          simpa [List.cons_prefix_cons] using leads

/-! ## What the resolver blames -/

variable {pending : List String} {depth : Nat}

/-- A failure to lay out a token blames the first field that stops, below any field of this token. -/
def Blames (table : TypeTable) (pending : List String) (owner : Owner) (token : String) :
    Except Failure Layout → Prop
  | .ok _ => True
  | .error failure => ∀ field rest, field.type = token → ∃ place spot,
      table.Foremost pending owner (field :: rest) place spot ∧ failure = spot.failure

/-- A failure to lay out some fields, likewise. -/
def BlamesFields (table : TypeTable) (pending : List String) (owner : Owner) (fields : List Field) :
    Except Failure (List (Member Layout)) → Prop
  | .ok _ => True
  | .error failure => ∃ place spot,
      table.Foremost pending owner fields place spot ∧ failure = spot.failure

theorem blames_of_stops {token : String} (stops : table.Stops pending token) :
    table.Blames pending owner token (.error (owner.unsupported token)) := by
  intro field rest same
  subst same
  exact ⟨[0], ⟨pending, owner, field⟩, .here stops, rfl⟩

theorem layOutWith_blames {resolve : Owner → String → Resolving Layout}
    (answers : ∀ owner token, Meets table pending (resolve owner token)
      (table.Answers pending token))
    (blames : ∀ owner token, table.Needed pending token →
      Meets table pending (resolve owner token) (table.Blames pending owner token))
    (owner : Owner) {fields : List Field} (needed : ∀ field ∈ fields, table.Needed pending field.type) :
    Meets table pending (layOutWith resolve owner fields)
      (table.BlamesFields pending owner fields) := by
  induction fields with
  | nil => exact .pure trivial
  | cons field fields inductionHypothesis =>
      obtain ⟨head, tail⟩ := List.forall_mem_cons.mp needed
      rw [layOutWith]
      apply ((answers owner field.type).and (blames owner field.type head)).bind
      · intro layout found
        apply (inductionHypothesis tail).bind
        · intro members _
          exact .pure trivial
        · intro failure blamed
          obtain ⟨place, spot, foremost, same⟩ := blamed
          obtain ⟨position, later, rfl⟩ := foremost.met.exists_cons
          exact ⟨_, spot, foremost.later ⟨layout, found.1⟩ needed, same⟩
      · intro failure blamed
        exact blamed.2 field fields rfl

theorem resolveWithin_blames (room : table.Room pending depth) (owner : Owner) {token : String}
    (needed : table.Needed pending token) :
    Meets table pending (table.resolveWithin depth owner token)
      (table.Blames pending owner token) := by
  induction depth using Nat.strongRecOn generalizing pending owner token with
  | _ depth inductionHypothesis =>
  cases reads : table.read token with
  | known layout =>
      rw [resolveWithin, reads]
      exact .pure trivial
  | unknown =>
      rw [resolveWithin, reads]
      exact .throw (blames_of_stops (.inl reads))
  | record name fields =>
      obtain ⟨_, declared⟩ := declared_of_read_record reads
      intro memory sound same
      obtain ⟨after, samePending, _⟩ := resolveWithin_meets room owner token memory sound same
      refine ⟨after, samePending, ?_⟩
      rw [run_resolveWithin_record reads]
      cases memory.finished.lookup name with
      | some layout => trivial
      | none =>
          dsimp only
          by_cases listed : name ∈ memory.pending
          · rw [if_pos listed]
            rw [same] at listed
            exact blames_of_stops (.inr ⟨name, fields, reads, listed⟩)
          · rw [if_neg listed]
            rw [same] at listed
            cases depth with
            | zero => exact absurd rfl (room.depth_ne_zero declared listed)
            | succ depth =>
                have inner := room.enter declared listed
                have blames := (layOutWith_blames (resolveWithin_meets inner)
                  (fun owner _ => inductionHypothesis depth (Nat.lt_succ_self depth) inner owner)
                  ⟨name, table.sites.lookup name⟩
                  (fun _ => needed.enter reads)).within memory sound same
                dsimp only
                rcases ran : (within name (layOutWith (table.resolveWithin depth)
                  ⟨name, table.sites.lookup name⟩ fields)).run memory with ⟨outcome, behind⟩
                rw [ran] at blames
                cases outcome with
                | ok members => trivial
                | error failure =>
                    obtain ⟨place, spot, foremost, same⟩ := blames.2.2
                    intro field rest token
                    subst token
                    exact ⟨_, spot, foremost.inside reads listed, same⟩

theorem resolveFields_blames (table : TypeTable) (owner : Owner) (fields : List Field) :
    Meets table [] (table.resolveFields owner fields) (table.BlamesFields [] owner fields) :=
  layOutWith_blames table.resolve_meets
    (fun owner _ => resolveWithin_blames table.room_top owner) owner fun field _ =>
      needed_top field.type

/-- A field that stops leaves the fields without layouts. -/
theorem Met.untyped (met : table.Met [] owner fields place spot)
    (stops : table.Stops spot.path spot.field.type) (members : List (Member Layout)) :
    ¬ table.FieldsHaveType fields members := by
  intro typed
  obtain ⟨position, later, rfl⟩ := met.exists_cons
  obtain ⟨field, listed⟩ := met.exists_listed
  have each := exists_fieldsHaveType_iff.mp ⟨members, typed⟩ field (List.mem_of_getElem? listed)
  obtain ⟨layout, has⟩ := met.typed listed each
  have needed := met.needed fun field _ => needed_top field.type
  exact stops.untyped needed layout has

/-- A resolver that remembers nothing fails on some fields if one that is met in depth stops, and the
failure is that of the first of these. -/
theorem resolveFields_eq_error_iff {failure : Failure} :
    ((table.resolveFields owner fields).run {}).1 = .error failure ↔
      ∃ place spot, table.Foremost [] owner fields place spot ∧ failure = spot.failure := by
  have blames := (resolveFields_blames table owner fields).outcome
  constructor
  · intro failed
    rw [failed] at blames
    exact blames
  · intro described
    obtain ⟨place, spot, foremost, rfl⟩ := described
    cases outcome : ((table.resolveFields owner fields).run {}).1 with
    | ok members =>
        have typed := (table.resolveFields_finds owner fields).outcome.mp outcome
        exact absurd typed (foremost.met.untyped foremost.stops members)
    | error failure =>
        rw [outcome] at blames
        obtain ⟨placeToo, spotToo, foremostToo, rfl⟩ := blames
        have same : placeToo = place := by
          cases foremost.first _ _ foremostToo.met foremostToo.stops with
          | inl same => exact same
          | inr before =>
              cases foremostToo.first _ _ foremost.met foremost.stops with
              | inl same => exact same.symm
              | inr after => exact absurd after before.asymm
        subst same
        rw [foremost.met.unique foremostToo.met]

/-! ## Culprits -/

/-- No rule gives the token a layout: it spells no array of bytes with a known length, and it is no
qualified name of a builtin type or of a struct. -/
structure Unclassified (table : TypeTable) (token : String) : Prop where
  array : ∀ element length, SpellsArray token.toList element length → Qualified element ['u', '8'] →
    table.integer? (.ofList length) = none
  name : ∀ name, Qualified (trim token.toList) name →
    Layout.builtin? (.ofList name) = none ∧ table.records.lookup (.ofList name) = none

theorem exists_qualified_of_read_record {token name : String} {declared : List Field}
    (reads : table.read token = .record name declared) :
    ∃ segment, Qualified (trim token.toList) segment ∧ name = .ofList segment := by
  cases parts : arrayParts? token.toList with
  | some pair =>
      rw [read_of_spellsArray (arrayParts?_eq_some_iff.mp parts)] at reads
      split at reads
      · split at reads <;> cases reads
      · cases reads
  | none =>
      cases found : qualifiedName? (trim token.toList) with
      | none => simp [read, parts, found] at reads
      | some segment =>
          have qualified := qualifiedName?_trim_eq_some_iff.mp found
          rw [read_of_qualified qualified] at reads
          exact ⟨segment, qualified, (readName_eq_record_iff.mp reads).2.1.symm⟩

theorem unclassified_of_read_unknown {token : String} (unknown : table.read token = .unknown) :
    table.Unclassified token := by
  constructor
  · intro element length spelled bytes
    rw [read_of_spellsArray spelled, if_pos ((qualifiedName?_element_iff spelled).mpr bytes)] at unknown
    cases value : table.integer? (.ofList length) with
    | none => rfl
    | some value =>
        rw [value] at unknown
        cases unknown
  · intro name qualified
    rw [read_of_qualified qualified, readName] at unknown
    cases builtin : Layout.builtin? (.ofList name) with
    | some layout =>
        rw [builtin] at unknown
        cases unknown
    | none =>
        rw [builtin] at unknown
        cases declared : table.records.lookup (.ofList name) with
        | some fields =>
            rw [declared] at unknown
            cases unknown
        | none => exact ⟨rfl, rfl⟩

/-- A failure on some fields names the declaration, with its place, in which a token stands that no rule
reads or that leads back to a struct on the way to it.  The token is the first such one in depth. -/
theorem resolveFields_culprit {context token : String} {location : Option String}
    (failed : ((table.resolveFields owner fields).run {}).1 =
      .error (.unsupportedType context token location)) :
    ∃ place spot, table.Foremost [] owner fields place spot ∧
      spot.owner = ⟨context, location⟩ ∧ spot.field.type = token ∧
      ((owner = ⟨context, location⟩ ∧ spot.path = [] ∧ spot.field ∈ fields) ∨
        ∃ between declared, spot.path = context :: between ∧ table.Reaches fields context ∧
          location = table.sites.lookup context ∧ table.records.lookup context = some declared ∧
          spot.field ∈ declared) ∧
      (table.Unclassified token ∨
        ∃ name, Qualified (trim token.toList) name ∧ .ofList name ∈ spot.path) := by
  obtain ⟨place, spot, foremost, same⟩ := resolveFields_eq_error_iff.mp failed
  injection same with sameContext sameToken sameSite
  subst sameContext sameToken sameSite
  refine ⟨place, spot, foremost, rfl, rfl, ?_, ?_⟩
  · cases foremost.met.stands with
    | inl direct =>
        obtain ⟨top, sameOwner, listed⟩ := direct
        exact .inl ⟨sameOwner.symm, top, listed⟩
    | inr deep =>
        obtain ⟨name, between, declared, samePath, sameOwner, lookup, listed, reaches⟩ := deep
        rw [sameOwner]
        rw [List.append_nil] at samePath
        exact .inr ⟨between, declared, samePath, reaches, rfl, lookup, listed⟩
  · cases foremost.stops with
    | inl unknown => exact .inl (unclassified_of_read_unknown unknown)
    | inr cycle =>
        obtain ⟨name, declared, reads, listed⟩ := cycle
        obtain ⟨segment, qualified, rfl⟩ := exists_qualified_of_read_record reads
        exact .inr ⟨segment, qualified, listed⟩

/-! ### Two structs that contain each other -/

/-- A list of entries, whose entries hold the list again. -/
def knotTable : TypeTable where
  records := [("Entry", [⟨"key", "Address", []⟩, ⟨"within", "List", []⟩]),
    ("List", [⟨"length", "u16", []⟩, ⟨"first", "state::Entry", []⟩])]
  sites := [("Entry", "src/state.rs:4"), ("List", "src/state.rs:9")]

def knotFields : List Field :=
  [⟨"count", "u64", []⟩, ⟨"entries", "List", []⟩, ⟨"rest", "Map", []⟩]

/-- What an outcome fails with. -/
def failure? {α : Type} : Except Failure α → Option Failure
  | .ok _ => none
  | .error failure => some failure

theorem eq_error_of_failure? {α : Type} {outcome : Except Failure α} {failure : Failure}
    (failed : failure? outcome = some failure) : outcome = .error failure := by
  cases outcome with
  | ok value => cases failed
  | error other =>
      injection failed with same
      rw [same]

theorem resolveFields_culprit_knot :
    ((knotTable.resolveFields ⟨"Ledger", some "src/lib.rs:2"⟩ knotFields).run {}).1 =
      .error (.unsupportedType "Entry" "List" (some "src/state.rs:4")) ∧
    ∃ place spot, knotTable.Foremost [] ⟨"Ledger", some "src/lib.rs:2"⟩ knotFields place spot ∧
      spot.owner = ⟨"Entry", some "src/state.rs:4"⟩ ∧ spot.field.type = "List" := by
  have failed : ((knotTable.resolveFields ⟨"Ledger", some "src/lib.rs:2"⟩ knotFields).run {}).1 =
        .error (.unsupportedType "Entry" "List" (some "src/state.rs:4")) :=
    eq_error_of_failure? (by decide +kernel)
  obtain ⟨place, spot, foremost, sameOwner, sameToken, _⟩ := resolveFields_culprit failed
  exact ⟨failed, place, spot, foremost, sameOwner, sameToken⟩

end TypeTable

end ProgramIdl
