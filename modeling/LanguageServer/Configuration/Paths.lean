/-! Where the server keeps its log and looks for its configuration. -/

namespace LanguageServer

/-- The settings of the user's environment that matter for paths. -/
structure Environment where
  dataHome : Option String := none
  configHome : Option String := none
  home : Option String := none
  deriving DecidableEq, Repr

/-- A path below another one, where an absolute path stays as it is. -/
def joinPath (left right : String) : String :=
  -- One slash is put between them unless it is there or the left side is empty.
  if right.startsWith "/" || left.isEmpty then right
  else if left.endsWith "/" then left ++ right
  else left ++ "/" ++ right

namespace Environment

/-- The directory named by a variable, else one below the home directory, else the current one. -/
def directory (chosen : Option String) (home : Option String) (below : String) : String :=
  -- An empty variable counts as set.
  match chosen, home with
  | some path, _ => path
  | none, some home => joinPath home below
  | none, none => "."

/-- The directory of the server's own data. -/
def dataDirectory (environment : Environment) : String :=
  -- The directory is named after the program.
  joinPath (directory environment.dataHome environment.home ".local/share") "mypl-lsp"

/-- The path of the log file. -/
def logPath (environment : Environment) : String :=
  -- The log is part of the data.
  joinPath environment.dataDirectory "mypl-lsp.log"

/-- The path of the configuration file that is used unless another one is named. -/
def configPath (environment : Environment) : String :=
  -- The directory is named after the program.
  joinPath (joinPath (directory environment.configHome environment.home ".config") "mypl-lsp")
    "config.json"

end Environment

end LanguageServer
