import LanguageServer.Compiler.Bridge
import LanguageServer.Configuration.Loader

/-! From the command line to a server: log file, configuration and compiler. -/

namespace LanguageServer.CommandLine

/-- Why the server cannot start. -/
inductive StartupError where
  /-- The directory of the log cannot be created. -/
  | directory (path : String) (cause : OsError)
  /-- The log file cannot be opened. -/
  | logFile (path : String) (cause : OsError)
  | configuration (error : ConfigurationError)
  | compiler (error : InvocationError)
  deriving DecidableEq, Repr

/-- What is told to the user when the server cannot start, line by line. -/
def StartupError.lines : StartupError → List String
  -- Troubles with the log are told twice because they cannot be logged.
  | .directory path cause =>
    ["mypl-lsp: cannot create " ++ quoted path ++ ": " ++ cause.message,
      "Error: " ++ cause.message]
  | .logFile path cause =>
    ["mypl-lsp: cannot open log file " ++ quoted path ++ ": " ++ cause.message,
      "Error: " ++ cause.message]
  | .configuration error => ["Error: " ++ error.message]
  | .compiler error => ["Error: " ++ error.message]

/-- All that is known once the server has started. -/
structure Startup where
  /-- The files as the server leaves them. -/
  tree : FileTree
  configuration : Configuration
  bridge : Bridge

/-- The files once the log can be written. -/
def openLog (tree : FileTree) (environment : Environment) : Except StartupError FileTree := do
  -- A log that is there already is kept.
  let tree ← (tree.createDirectory environment.dataDirectory).mapError
    (.directory environment.dataDirectory)
  (tree.write environment.logPath [] true).mapError (.logFile environment.logPath)

/-- The compiler that is chosen by the configuration of a named file or of the usual one. -/
def prepare (tree : FileTree) (environment : Environment) (config : Option String) :
    Logged (Except StartupError Startup) := do
  -- No in-process compiler is linked into the program.
  match ← Configuration.resolve tree environment config with
  | .error error => return .error (.configuration error)
  | .ok configuration =>
    match ← Bridge.build configuration none with
    | .error error => return .error (.compiler error)
    | .ok bridge => return .ok ⟨tree, configuration, bridge⟩

/-- The start of the server. -/
def startUp (tree : FileTree) (environment : Environment) (config : Option String) :
    Logged (Except StartupError Startup) :=
  -- Nothing can be logged before the log is open.
  match openLog tree environment with
  | .error error => ⟨.error error, []⟩
  | .ok tree => do
    Logged.note (.loggingTo environment.logPath)
    Logged.note .starting
    prepare tree environment config

end LanguageServer.CommandLine
