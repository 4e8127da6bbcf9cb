import ProgramIdl.Declaration.Basic
import ProgramIdl.Failure

/-!
# Notices

Beside its result, or the failure that ends it, a run leaves notices: debugging notices on its
progress, and warnings wherever something was taken for granted.
-/

set_option autoImplicit false

namespace ProgramIdl

/-- Something worth noting about a run. -/
inductive Notice where
  | generating (program : String) (files : Nat)
  | scanned (path : String) (declarations : Nat)
  | barrenSeedMacro (name : String)
  | nestedProgramId (address : String) (site : Site)
  | assembled (program : String) (accounts instructions events errors pdas : Nat)
  | scaffolded (name : String) (path : Path)
  | unknownSeed (expression : String)
  | unknownAccounts (instruction accounts : String)
  deriving DecidableEq, Repr

/-- How serious a notice is. -/
inductive Level where
  | debug
  | warning
  deriving DecidableEq, Repr

/-- The word for a level. -/
def Level.word : Level → String
  | .debug => "DEBUG"
  | .warning => "WARNING"

namespace Notice

/-- How serious a notice is. -/
def level : Notice → Level
  | .unknownSeed _ | .unknownAccounts _ _ => .warning
  | _ => .debug

/-- The channel on which a notice is logged. -/
def channel : Notice → String
  | .generating .. => "pina_idl.pipeline.generator"
  | .scanned .. | .barrenSeedMacro _ => "pina_idl.pipeline.scanner.scanner"
  | .nestedProgramId .. | .assembled .. | .unknownAccounts .. =>
      "pina_idl.pipeline.analyzer.assembler"
  | .unknownSeed _ => "pina_idl.pipeline.analyzer.seeds"
  | .scaffolded .. => "pina_idl.scaffold"

/-- The wording of a notice. -/
def message : Notice → String
  | .generating program files => s!"Generating IDL for {program} from {files} source files"
  | .scanned path declarations => s!"Scanned {path}: {declarations} declarations"
  | .barrenSeedMacro name => s!"Seed macro {name} has no arm returning a seed array"
  | .nestedProgramId address site =>
      s!"Ignoring declare_id!({address}) nested in a module at {site}"
  | .assembled program accounts instructions events errors pdas =>
      s!"Assembled {program}: {accounts} accounts, {instructions} instructions, {events} events, "
        ++ s!"{errors} errors, {pdas} pdas"
  | .scaffolded name path => s!"Scaffolded {name} at {path}"
  | .unknownSeed expression =>
      "Unrecognized PDA seed expression `" ++ expression ++ "`, keeping it as an opaque literal"
  | .unknownAccounts instruction accounts =>
      s!"Instruction {instruction} dispatches to unknown accounts struct {accounts}"

/-- A notice as a line of the log. -/
def line (notice : Notice) : String :=
  s!"{notice.level.word} {notice.channel}: {notice.message}"

end Notice

/-- What came of something that may fail, and the notices left on the way. -/
structure Reporting (α : Type) where
  notices : List Notice
  outcome : Except Failure α

namespace Reporting

variable {α β : Type}

/-- A result without notices. -/
def ofExcept (outcome : Except Failure α) : Reporting α :=
  ⟨[], outcome⟩

/-- One thing after another: the notices of both, unless the first fails. -/
def andThen (first : Reporting α) (next : α → Reporting β) : Reporting β :=
  match first.outcome with
  | .ok value => ⟨first.notices ++ (next value).notices, (next value).outcome⟩
  | .error failure => ⟨first.notices, .error failure⟩

instance : Monad Reporting where
  pure value := ⟨[], .ok value⟩
  bind := andThen

instance : MonadLift (Except Failure) Reporting where
  monadLift := ofExcept

instance : MonadExceptOf Failure Reporting where
  throw failure := ⟨[], .error failure⟩
  tryCatch first handle :=
    match first.outcome with
    | .ok _ => first
    | .error failure => ⟨first.notices ++ (handle failure).notices, (handle failure).outcome⟩

/-- The messages of the warnings. -/
def warnings (reporting : Reporting α) : List String :=
  (reporting.notices.filter fun notice => notice.level = .warning).map Notice.message

end Reporting

/-- Leaves a notice. -/
def report (notice : Notice) : Reporting Unit :=
  ⟨[notice], .ok ()⟩

end ProgramIdl
