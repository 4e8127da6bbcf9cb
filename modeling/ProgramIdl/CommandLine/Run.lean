import ProgramIdl.CommandLine.Options
import ProgramIdl.Generate
import ProgramIdl.Output
import ProgramIdl.Scaffold

/-!
# The command line

Two commands: one writes the schema of a program, the other lays out a new program.  A run leaves an
exit status, texts on both outputs, and a changed workspace.  Whatever cannot be understood ends with
status two and changes nothing.
-/

set_option autoImplicit false

namespace ProgramIdl.CommandLine

/-- What a run leaves. -/
structure Report where
  exit : UInt32 := 0
  output : String := ""
  errors : String := ""
  deriving DecidableEq, Repr

/-- A run that could not be understood. -/
def usageError (usage : String) : Report where
  exit := 2
  errors := s!"Usage: {usage}\n"

/-! ## Options -/

/-- The option that shows what a command does. -/
def helpForm : OptionForm :=
  { key := "help", long := "help" }

/-- The options in front of a command. -/
def mainForms : List OptionForm :=
  [{ key := "verbose", short := some 'v', long := "verbose" }, helpForm]

/-- The options of the command that writes a schema. -/
def idlForms : List OptionForm :=
  [{ key := "path", short := some 'p', long := "path", takesValue := true },
    { key := "output", short := some 'o', long := "output", takesValue := true },
    { key := "name", short := some 'n', long := "name", takesValue := true },
    { key := "pretty", long := "pretty" },
    { key := "compact", long := "compact" },
    { key := "force", short := some 'f', long := "force" },
    helpForm]

/-- The options of the command that lays out a program. -/
def initForms : List OptionForm :=
  [{ key := "path", short := some 'p', long := "path", takesValue := true },
    { key := "force", short := some 'f', long := "force" },
    helpForm]

/-- What the program does. -/
def mainHelp : String :=
  "\n".intercalate
    ["Usage: pina-idl [OPTIONS] COMMAND [ARGS]...",
      "",
      "  Extract IDL schemas from pina programs.",
      "",
      "Options:",
      "  -v, --verbose  Enable debug logging",
      "  --help         Show this message and exit.",
      "",
      "Commands:",
      "  idl   Generate the IDL schema of the program at PATH.",
      "  init  Scaffold a new pina program named NAME.",
      ""]

/-- What the command that writes a schema does. -/
def idlHelp : String :=
  "\n".intercalate
    ["Usage: pina-idl idl [OPTIONS]",
      "",
      "  Generate the IDL schema of the program at PATH.",
      "",
      "Options:",
      "  -p, --path DIRECTORY  Program directory",
      "  -o, --output FILE     Output file (default: stdout)",
      "  -n, --name TEXT       Program name override",
      "  --pretty / --compact  Indent the JSON output",
      "  -f, --force           Overwrite an existing output file",
      "  --help                Show this message and exit.",
      ""]

/-- What the command that lays out a program does. -/
def initHelp : String :=
  "\n".intercalate
    ["Usage: pina-idl init [OPTIONS] NAME",
      "",
      "  Scaffold a new pina program named NAME.",
      "",
      "Options:",
      "  -p, --path DIRECTORY  Target directory (default: ./NAME)",
      "  -f, --force           Overwrite existing files",
      "  --help                Show this message and exit.",
      ""]

/-! ## Paths -/

/-- The absolute path that an option names, with double points taken at their word. -/
def resolvePath (workspace : Workspace) (text : String) : Path :=
  Workspace.absolute (workspace.namedPlace (.ofString text))

/-- The directory that an option names; a file is none. -/
def directoryPath? (workspace : Workspace) (text : String) : Option Path :=
  let path := resolvePath workspace text
  if workspace.isFile path then none else some path

/-- The file that an option names; a directory is none. -/
def filePath? (workspace : Workspace) (text : String) : Option Path :=
  let path := resolvePath workspace text
  if workspace.isDirectory path then none else some path

/-! ## Commands -/

/-- The lines that some notices leave in the log. -/
def logText (verbose : Bool) (notices : List Notice) : String :=
  let shown := notices.filter fun notice => verbose || notice.level = .warning
  String.join (shown.map fun notice => notice.line ++ "\n")

/-- The run that a failure ends, behind the log. -/
def failed (log : String) (failure : Failure) : Report where
  exit := 1
  errors := log ++ "Error: " ++ failure.message ++ "\n"

/-- How the command that writes a schema was called. -/
structure IdlCall where
  path : Path
  output : Option Path := none
  name : Option String := none
  style : Json.Style := .pretty
  force : Bool := false
  deriving DecidableEq, Repr

/-- The style given last. -/
def styleOf (parsed : ParsedArguments) : Json.Style :=
  match parsed.options.findRev? fun option => option.key = "pretty" || option.key = "compact" with
  | some option => if option.key = "compact" then .compact else .pretty
  | none => .pretty

/-- How the command that writes a schema was called, if that can be understood. -/
def IdlCall.ofArguments? (workspace : Workspace) (parsed : ParsedArguments) : Option IdlCall := do
  let path ← directoryPath? workspace ((parsed.value? "path").getD ".")
  let output ←
    match parsed.value? "output" with
    | some text => (filePath? workspace text).map some
    | none => some none
  if parsed.operands.isEmpty then
    some {
      path := path
      output := output
      name := parsed.value? "name"
      style := styleOf parsed
      force := parsed.has "force" }
  else none

/-- The mode in which a file is written. -/
def outputMode (force : Bool) : OutputMode :=
  if force then .overwrite else .keep

/-- Writes the schema of a program; `unique` tells its temporary file from others. -/
def IdlCall.run (call : IdlCall) (verbose : Bool) (unique : String) : StateM Workspace Report :=
  do
    let schema :=
      Generate.schemaText { nameOverride := call.name } (← get) call.path call.style
    let log := logText verbose schema.notices
    match schema.outcome, call.output with
    | .error failure, _ => return failed log failure
    | .ok text, none => return { output := text, errors := log }
    | .ok text, some path =>
        match ← (Output.write { mode := outputMode call.force } unique path text).run with
        | .ok () => return { errors := log }
        | .error failure => return failed log failure

/-- How the command that lays out a program was called. -/
structure InitCall where
  path : Path
  name : String
  force : Bool := false
  deriving DecidableEq, Repr

/-- How the command that lays out a program was called, if that can be understood. -/
def InitCall.ofArguments? (workspace : Workspace) (parsed : ParsedArguments) : Option InitCall := do
  match parsed.operands with
  | [name] =>
      let path ←
        match parsed.value? "path" with
        | some text => directoryPath? workspace text
        | none => some (Workspace.absolute workspace.here ++ Path.ofString name)
      some { path := path, name := name, force := parsed.has "force" }
  | _ => none

/-- Lays out a program. -/
def InitCall.run (call : InitCall) (verbose : Bool) : StateM Workspace Report := do
  match ← (Scaffold.layOut call.path call.name call.force).run with
  | .error cause => return failed "" (.scaffold cause)
  | .ok _ =>
      return {
        output := Scaffold.nextSteps call.path.toString call.name ++ "\n"
        errors := logText verbose [.scaffolded call.name call.path] }

/-! ## Requests -/

/-- What the arguments ask for. -/
inductive Request where
  | help (text : String)
  | idl (verbose : Bool) (call : IdlCall)
  | init (verbose : Bool) (call : InitCall)
  deriving DecidableEq, Repr

/-- What a command is asked for: its help, or a call that `request?` understands. -/
def Request.ofCommand (forms : List OptionForm) (usage help : String)
    (request? : ParsedArguments → Option Request) (arguments : List String) :
    Except Report Request :=
  match parseArguments forms true arguments with
  | none => .error (usageError usage)
  | some parsed =>
      if parsed.has "help" then .ok (.help help)
      else
        match request? parsed with
        | some request => .ok request
        | none => .error (usageError usage)

/-- What the arguments ask for, or the end of a run that could not be understood. -/
def Request.ofArguments (workspace : Workspace) (arguments : List String) :
    Except Report Request :=
  let usage := usageError "pina-idl [OPTIONS] COMMAND [ARGS]..."
  match parseArguments mainForms false arguments with
  | none => .error usage
  | some parsed =>
      if parsed.has "help" then .ok (.help mainHelp)
      else
        let verbose := parsed.has "verbose"
        match parsed.operands with
        | "idl" :: rest =>
            Request.ofCommand idlForms "pina-idl idl [OPTIONS]" idlHelp
              (fun parsed => (IdlCall.ofArguments? workspace parsed).map (.idl verbose)) rest
        | "init" :: rest =>
            Request.ofCommand initForms "pina-idl init [OPTIONS] NAME" initHelp
              (fun parsed => (InitCall.ofArguments? workspace parsed).map (.init verbose)) rest
        | _ => .error usage

/-- Does what was asked for; `unique` tells temporary files from others. -/
def Request.run (unique : String) : Request → StateM Workspace Report
  | .help text => return { output := text }
  | .idl verbose call => call.run verbose unique
  | .init verbose call => call.run verbose

/-- Runs the command line; `unique` tells temporary files from others. -/
def run (unique : String) (arguments : List String) : StateM Workspace Report := do
  match Request.ofArguments (← get) arguments with
  | .error report => return report
  | .ok request => request.run unique

end ProgramIdl.CommandLine
