import LanguageServer.Mode

/-! The startup configuration of the server. -/

namespace LanguageServer

/-- Which compiler answers invocations. -/
inductive Backend where
  | subprocess
  | embedded
  deriving DecidableEq, Repr

/-- How much of the compiler program's output is taken. -/
inductive Capture where
  /-- All of it. -/
  | full
  /-- What the first read brings. -/
  | firstChunk
  deriving DecidableEq, Repr

/-- The names of the backends in a configuration. -/
def Backend.names : List (String × Backend) :=
  -- Names are lower case.
  [("subprocess", .subprocess), ("embedded", .embedded)]

/-- The names of the captures in a configuration. -/
def Capture.names : List (String × Capture) :=
  -- Inner words start with a capital.
  [("full", .full), ("firstChunk", .firstChunk)]

/-- The names of the modes in a configuration. -/
def Mode.names : List (String × Mode) :=
  -- They are the names used everywhere.
  Mode.all.map fun mode => (mode.name, mode)

/-- How the server finds and uses the compiler. -/
structure Configuration where
  /-- The compiler program or script. -/
  compilerPath : String
  /-- The program that runs the compiler script, if one is needed. -/
  interpreter : Option String := none
  backend : Backend := .subprocess
  capture : Capture := .full
  /-- The mode in which documents are validated. -/
  validationMode : Mode := .parse
  deriving DecidableEq, Repr

/-- The configuration that is used where there is none. -/
def Configuration.standard : Configuration :=
  -- The compiler is a script beside the project.
  { compilerPath := "mypl.py", interpreter := some "python" }

end LanguageServer
