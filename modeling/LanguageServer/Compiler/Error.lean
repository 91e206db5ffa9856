/-! Why a compiler invocation gives no output, and the errors that compilers report. -/

namespace LanguageServer

/-- Why the operating system refuses a file or a program. -/
inductive OsError where
  | notFound
  | badFormat
  | accessDenied
  | occupied
  | notDirectory
  | isDirectory
  deriving DecidableEq, Repr

/-- The operating system's words for a refusal. -/
def OsError.message : OsError → String
  -- Each refusal carries its number.
  | .notFound => "No such file or directory (os error 2)"
  | .badFormat => "Exec format error (os error 8)"
  | .accessDenied => "Permission denied (os error 13)"
  | .occupied => "File exists (os error 17)"
  | .notDirectory => "Not a directory (os error 20)"
  | .isDirectory => "Is a directory (os error 21)"

/-- An error that an in-process compiler reports, with a line and a column counted from one. -/
structure CompileError where
  kind : String
  message : String
  line : Nat
  column : Nat
  deriving DecidableEq, Repr

/-- A compile error in the words that the compiler program prints. -/
def CompileError.render (error : CompileError) : String :=
  -- The position stands at the end.
  error.kind ++ " error: " ++ error.message ++ " at line " ++ toString error.line ++
    " column " ++ toString error.column

/-- Why an invocation of the compiler gives no output. -/
inductive InvocationError where
  /-- The program could not be started. -/
  | notStarted (program : String) (cause : OsError)
  /-- Its input or output broke down. -/
  | stream (detail : String)
  /-- The task that ran it was lost. -/
  | task (detail : String)
  /-- The source could not be printed. -/
  | print (report : String)
  /-- An in-process compiler was asked for and there is none. -/
  | unavailable
  deriving DecidableEq, Repr

/-- The words for a failed invocation. -/
def InvocationError.message : InvocationError → String
  -- The cause stands behind what failed.
  | .notStarted program cause => "Failed to spawn compiler " ++ program ++ ": " ++ cause.message
  | .stream detail => "Compiler stream error: " ++ detail
  | .task detail => "Compiler task failed: " ++ detail
  | .print report => "Compiler could not print the source: " ++ report
  | .unavailable => "No in-process compiler is linked into this server"

end LanguageServer
