import ProgramIdl.Path
import ProgramIdl.Text.Display
import ProgramIdl.Text.Utf8

/-!
# Failures

Everything that can stop the extraction of an interface description, and the wording of each cause.
The first failure ends a run.
-/

set_option autoImplicit false

namespace ProgramIdl

open ProgramIdl.Text

/-- Why a file or directory could not be read or written. -/
inductive IoCause where
  | missing (path : Path)
  | alreadyExists (path : Path)
  | notDirectory (path : Path)
  | isDirectory (path : Path)
  /-- A finished temporary file could not take the place of a directory. -/
  | cannotReplace (temporary target : Path)
  | undecodable (error : Utf8Error)
  | programNotDirectory
  | outputExists (path : Path)
  /-- Any other cause, in its own words. -/
  | stated (text : String)
  deriving DecidableEq, Repr

/-- Why a schema could not be written as text. -/
inductive SerializationCause where
  | notJson
  | tooManyDigits
  deriving DecidableEq, Repr

/-- Why a project could not be laid out. -/
inductive ScaffoldCause where
  | invalidName (name : String)
  | wouldOverwrite (path : Path)
  | notWritten (path : Path) (cause : IoCause)
  deriving DecidableEq, Repr

/-- Why no description was produced. -/
inductive Failure where
  | io (path : Path) (cause : IoCause)
  | malformed (path : Path) (line : Option Nat) (snippet : String)
  | unresolvedDiscriminator (name context : String) (location : Option String)
  | duplicateValue (enum : String) (value : Int) (first second : String)
  | outOfRange (enum variant : String) (value : Int) (width : Nat)
  | duplicateName (category name : String)
  | unsupportedType (context token : String) (location : Option String)
  | invalidAddress (address reason : String)
  | missingAddress (program : String)
  | serialization (cause : SerializationCause)
  | scaffold (cause : ScaffoldCause)
  /-- A discriminator value cannot be written on its number of bytes. -/
  | unencodable (value : Int) (width : Nat)
  /-- A text to be checked holds a whole number of too many digits. -/
  | unreadable (digits : Nat)
  deriving DecidableEq, Repr

/-- Why some bytes are no text. -/
def Text.Utf8Fault.message : Utf8Fault → String
  | .invalidStart => "invalid start byte"
  | .invalidContinuation => "invalid continuation byte"
  | .unexpectedEnd => "unexpected end of data"

/-- Where and why some bytes are no text. -/
def Text.Utf8Error.message (error : Utf8Error) : String :=
  let place :=
    match error.bytes with
    | [byte] => s!"byte 0x{String.ofList (hexDigits 2 byte.toNat)} in position {error.position}"
    | bytes => s!"bytes in position {error.position}-{error.position + bytes.length - 1}"
  s!"'utf-8' codec can't decode {place}: {error.fault.message}"

/-- A path between quotes. -/
def Path.quoted (path : Path) : String :=
  Text.quoted path.toString

/-- The wording of a cause. -/
def IoCause.message : IoCause → String
  | .missing path => s!"[Errno 2] No such file or directory: {path.quoted}"
  | .alreadyExists path => s!"[Errno 17] File exists: {path.quoted}"
  | .notDirectory path => s!"[Errno 20] Not a directory: {path.quoted}"
  | .isDirectory path => s!"[Errno 21] Is a directory: {path.quoted}"
  | .cannotReplace temporary target =>
      s!"[Errno 21] Is a directory: {temporary.quoted} -> {target.quoted}"
  | .undecodable error => error.message
  | .programNotDirectory => "program path is not a directory"
  | .outputExists path => s!"Output file already exists: {path}. Use --force to overwrite."
  | .stated text => text

/-- The wording of a cause. -/
def SerializationCause.message : SerializationCause → String
  | .notJson => "Generated schema is not valid JSON"
  | .tooManyDigits =>
      "Failed to serialize schema: Exceeds the limit (4300 digits) for integer string " ++
        "conversion; use sys.set_int_max_str_digits() to increase the limit"

/-- The wording of a cause. -/
def ScaffoldCause.message : ScaffoldCause → String
  | .invalidName name => "invalid program name `" ++ name ++ "`"
  | .wouldOverwrite path => s!"refusing to overwrite existing file {path} (use --force)"
  | .notWritten path cause => s!"failed to write project files in {path}: {cause.message}"

namespace Failure

/-- A message with the place it speaks of, if that is known. -/
def located (message : String) : Option String → String
  | none | some "" => message
  | some location => message ++ " at " ++ location

/-- The wording of a failure. -/
def message : Failure → String
  | .io path cause => s!"IO error at {path}: {cause.message}"
  | .malformed path line snippet =>
      let place :=
        match line with
        | some line => s!"{path}:{line}"
        | none => path.toString
      let near := if snippet = "" then "" else ": syntax error near '" ++ snippet ++ "'"
      "Failed to parse Rust source in " ++ place ++ near
  | .unresolvedDiscriminator name context location =>
      located ("Could not resolve discriminator reference `" ++ name ++ "` used by `" ++ context
        ++ "`") location
  | .duplicateValue enum value first second =>
      "Discriminator `" ++ enum ++ "` assigns value " ++ toString value ++ " to both `" ++ first
        ++ "` and `" ++ second ++ "`"
  | .outOfRange enum variant value width =>
      "Discriminator `" ++ enum ++ "::" ++ variant ++ "` value " ++ toString value
        ++ " does not fit in " ++ toString width ++ " byte(s)"
  | .duplicateName category name => "Duplicate " ++ category ++ " name `" ++ name ++ "`"
  | .unsupportedType context token location =>
      located ("Unsupported type `" ++ token ++ "` in `" ++ context ++ "`") location
  | .invalidAddress address reason =>
      "Invalid program address `" ++ address ++ "`: " ++ reason
  | .missingAddress program =>
      "No program address found for `" ++ program ++ "` (declare_id! macro missing)"
  | .serialization cause => cause.message
  | .scaffold cause => cause.message
  | .unencodable value width =>
      "value " ++ toString value ++ " does not fit in " ++ toString width ++ " byte(s)"
  | .unreadable digits =>
      "Exceeds the limit (4300 digits) for integer string conversion: value has "
        ++ toString digits ++ " digits; use sys.set_int_max_str_digits() to increase the limit"

end Failure

end ProgramIdl
