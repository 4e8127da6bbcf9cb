/-!
# Options

Command-line arguments are options and operands.  A long option starts with two hyphens and may hold
its value behind an equals sign; short options start with one hyphen and may stand together, the last
of them with its value.  A double hyphen alone ends the options.
-/

set_option autoImplicit false

namespace ProgramIdl.CommandLine

/-- An option that a command knows. -/
structure OptionForm where
  /-- What the option sets. -/
  key : String
  short : Option Char := none
  long : String
  takesValue : Bool := false
  deriving DecidableEq, Repr

/-- An option that was given: what it sets, and its value, which is empty if it takes none. -/
structure GivenOption where
  key : String
  value : String := ""
  deriving DecidableEq, Repr

/-- What an argument says. -/
inductive Argument where
  | operand
  /-- Options with all their values. -/
  | complete (options : List GivenOption)
  /-- Options of which the last one takes the next argument for its value. -/
  | awaiting (options : List GivenOption) (key : String)
  | unknown
  deriving DecidableEq, Repr

/-- What short options say that stand together. -/
def readShort (forms : List OptionForm) (before : List GivenOption) : List Char → Argument
  | [] => .complete before
  | c :: rest =>
      match forms.find? fun form => form.short = some c with
      | none => .unknown
      | some form =>
          if form.takesValue then
            if rest.isEmpty then .awaiting before form.key
            else .complete (before ++ [⟨form.key, .ofList rest⟩])
          else readShort forms (before ++ [⟨form.key, ""⟩]) rest

/-- What a long option says, given its name and the value behind its equals sign. -/
def readLong (form : OptionForm) : Option String → Argument
  | some value => if form.takesValue then .complete [⟨form.key, value⟩] else .unknown
  | none => if form.takesValue then .awaiting [] form.key else .complete [⟨form.key, ""⟩]

/-- The name of a long option, and the value behind its equals sign. -/
def splitValue (argument : List Char) : String × Option String :=
  let value :=
    match argument.dropWhile (· ≠ '=') with
    | _ :: value => some (.ofList value)
    | [] => none
  (.ofList (argument.takeWhile (· ≠ '=')), value)

/-- What an argument says. -/
def readArgument (forms : List OptionForm) (argument : String) : Argument :=
  match argument.toList with
  | '-' :: c :: rest =>
      if c = '-' then
        let (name, value) := splitValue rest
        match forms.find? fun form => form.long = name with
        | some form => readLong form value
        | none => .unknown
      else readShort forms [] (c :: rest)
  | _ => .operand

/-- Arguments taken apart. -/
structure ParsedArguments where
  options : List GivenOption := []
  operands : List String := []
  deriving DecidableEq, Repr

/-- Arguments with some options more in front. -/
def ParsedArguments.withOptions (options : List GivenOption) (parsed : ParsedArguments) :
    ParsedArguments :=
  { parsed with options := options ++ parsed.options }

/-- Arguments with one operand more in front. -/
def ParsedArguments.withOperand (operand : String) (parsed : ParsedArguments) : ParsedArguments :=
  { parsed with operands := operand :: parsed.operands }

/-- Takes arguments apart; there is no result if an option is unknown or lacks its value.  If options
and operands are not mixed, everything from the first operand on is an operand. -/
def parseArguments (forms : List OptionForm) (mixed : Bool) :
    List String → Option ParsedArguments
  | [] => some {}
  | argument :: rest =>
      if argument = "--" then some { operands := rest }
      else
        match readArgument forms argument with
        | .unknown => none
        | .operand =>
            if mixed then (parseArguments forms mixed rest).map (·.withOperand argument)
            else some { operands := argument :: rest }
        | .complete options => (parseArguments forms mixed rest).map (·.withOptions options)
        | .awaiting options key =>
            match rest with
            | [] => none
            | value :: rest =>
                (parseArguments forms mixed rest).map (·.withOptions (options ++ [⟨key, value⟩]))

/-- Whether an option was given. -/
def ParsedArguments.has (parsed : ParsedArguments) (key : String) : Bool :=
  parsed.options.any fun option => option.key = key

/-- The value given last to an option. -/
def ParsedArguments.value? (parsed : ParsedArguments) (key : String) : Option String :=
  (parsed.options.findRev? fun option => option.key = key).map (·.value)

end ProgramIdl.CommandLine
