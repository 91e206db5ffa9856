import LanguageServer.Identity

/-! What the arguments of the command line ask for. -/

namespace LanguageServer.CommandLine

/-- What the user asks for. -/
inductive Request where
  /-- To serve, with the configuration of a named file or of the usual one. -/
  | serve (config : Option String)
  | version
  | help
  deriving DecidableEq, Repr

/-- Why arguments cannot be understood. -/
inductive UsageError where
  | unexpected (argument : String)
  | valueMissing
  | valueUnexpected (value option : String)
  | repeated
  deriving DecidableEq, Repr

/-- The words for arguments that cannot be understood. -/
def UsageError.message : UsageError → String
  -- Arguments stand in single quotes.
  | .unexpected argument => "error: unexpected argument '" ++ argument ++ "' found"
  | .valueMissing => "error: a value is required for '--config <CONFIG>' but none was supplied"
  | .valueUnexpected value option =>
    "error: unexpected value '" ++ value ++ "' for '" ++ option ++
      "' found; no more were expected"
  | .repeated => "error: the argument '--config <CONFIG>' cannot be used multiple times"

/-- An argument by its form. -/
inductive Argument where
  /-- Two hyphens, behind which there are no options. -/
  | separator
  /-- An option by its name, with the value behind an equals sign. -/
  | long (name : String) (value : Option String)
  /-- Options of one letter, by the first one. -/
  | short (letter : Char)
  | plain (text : String)
  deriving DecidableEq, Repr

/-- The form of an argument. -/
def Argument.ofText (text : String) : Argument :=
  -- A single hyphen is a plain argument.
  match text.toList with
  | ['-', '-'] => .separator
  | '-' :: '-' :: rest =>
    let name := String.ofList (rest.takeWhile (· ≠ '='))
    match rest.dropWhile (· ≠ '=') with
    | _ :: value => .long name (some (String.ofList value))
    | [] => .long name none
  | '-' :: letter :: _ => .short letter
  | _ => .plain text

/-- An argument that is not understood where it stands. -/
def Argument.refusal (text : String) : Argument → UsageError
  -- Only the name of an option is told.
  | .separator | .plain _ => .unexpected text
  | .long name (some value) =>
    if name = "version" || name = "help" then .valueUnexpected value ("--" ++ name)
    else .unexpected ("--" ++ name)
  | .long name none => .unexpected ("--" ++ name)
  | .short letter => .unexpected ("-" ++ String.singleton letter)

/-- Whether an argument is an option that the server knows, in a form that it may have. -/
def Argument.isOption : Argument → Bool
  -- Only one option has a value.
  | .long "config" _ | .long "version" none | .long "help" none => true
  | .short letter => letter = 'V' || letter = 'h'
  | _ => false

/-- The configuration file after one more was named. -/
def chooseConfig (config : Option String) (value : String) : Except UsageError String :=
  -- Only one may be named, and its name is not empty.
  if config.isSome then .error .repeated
  else if value.isEmpty then .error .valueMissing
  else .ok value

/-- What arguments ask for once a configuration file was named or not. -/
def parseFrom (config : Option String) : List String → Except UsageError Request
  -- The first argument that decides anything does so at once.
  | [] => .ok (.serve config)
  | text :: rest =>
    match Argument.ofText text, rest with
    | .separator, [] => .ok (.serve config)
    | .separator, stray :: _ => .error (.unexpected stray)
    | .long "version" none, _ | .short 'V', _ => .ok .version
    | .long "help" none, _ | .short 'h', _ => .ok .help
    | .long "config" (some value), rest => do parseFrom (some (← chooseConfig config value)) rest
    | .long "config" none, [] => .error .valueMissing
    | .long "config" none, value :: rest =>
      match Argument.ofText value with
      | .plain value => do parseFrom (some (← chooseConfig config value)) rest
      | .separator => .error .valueMissing
      | argument =>
        if argument.isOption then .error .valueMissing else .error (argument.refusal value)
    | argument, _ => .error (argument.refusal text)

/-- What arguments ask for. -/
def parse (arguments : List String) : Except UsageError Request :=
  -- No configuration file is named at first.
  parseFrom none arguments

/-- The answer to a question for the version. -/
def versionText : String := serverName ++ " " ++ serverVersion ++ "\n"

/-- The answer to a question for help. -/
def helpText : String :=
  -- Each option has its line.
  "A Language Server Protocol implementation for the mypl language\n\n" ++
    "Usage: mypl-lsp [OPTIONS]\n\n" ++
    "Options:\n" ++
    "      --config <CONFIG>  Path to the JSON config file naming the compiler\n" ++
    "  -h, --help             Print help\n" ++
    "  -V, --version          Print version\n"

/-- What is told to a user whose arguments cannot be understood. -/
def UsageError.text (error : UsageError) : String :=
  -- The usage stands behind the fault.
  error.message ++ "\n\nUsage: mypl-lsp [OPTIONS]\n\nFor more information, try '--help'.\n"

end LanguageServer.CommandLine
