import LanguageServer.Compiler.Capture
import LanguageServer.Notice
import LanguageServer.Process.Runner

/-! The compiler as a program of its own, started anew for every invocation. -/

namespace LanguageServer

/-- The words for the end of a process. -/
def Ending.words : Ending → String
  -- Signals are named.
  | .exit status => "exit status: " ++ toString status
  | .killed 1 => "signal: 1 (SIGHUP)"
  | .killed 2 => "signal: 2 (SIGINT)"
  | .killed 9 => "signal: 9 (SIGKILL)"
  | .killed 15 => "signal: 15 (SIGTERM)"
  | .killed signal => "signal: " ++ toString signal

/-- The program that is started, as the log and the error messages name it. -/
def Configuration.program (configuration : Configuration) : String :=
  -- An interpreter runs the compiler's path.
  configuration.interpreter.getD configuration.compilerPath

/-- The arguments of the program that is started. -/
def Configuration.arguments (configuration : Configuration) (mode : Mode) : List String :=
  -- The mode's flag is always the last one.
  match configuration.interpreter with
  | some _ => [configuration.compilerPath, mode.flag]
  | none => [mode.flag]

/-- Why the output to be taken of a process could not be read, if it could not. -/
def Capture.failure? (capture : Capture) (process : Process) : Option String :=
  -- A single read is not troubled by what happens behind it.
  match capture with
  | .full => process.brokenOff
  | .firstChunk => if process.reads.isEmpty then process.brokenOff else none

/-- What is made of a process that was started for an invocation. -/
def Capture.answer (capture : Capture) (process : Process) :
    Logged (Except InvocationError String) := do
  -- Neither input that is left over nor the exit status counts as a failure.
  if let .failed reason := process.input then
    Logged.note (.inputFailed reason)
    return .error (.stream reason)
  if process.input = .refused then Logged.note .inputRefused
  if let some reason := capture.failure? process then
    Logged.note (.outputFailed reason)
    return .error (.stream reason)
  if capture = .full then
    match process.ending with
    | .ok ending => Logged.note (.compilerExited ending.words)
    | .error reason => Logged.note (.waitFailed reason)
  return .ok (String.ofList (capture.take process.reads))

/-- What an invocation of the compiler program gives, whatever runs programs. -/
def subprocessAnswer (run : Runner) (configuration : Configuration) (mode : Mode)
    (source : String) : Logged (Except InvocationError String) := do
  -- The program gets the source as its input.
  let program := configuration.program
  Logged.note (.spawning program mode)
  match run program (configuration.arguments mode) (encode source.toList) with
  | .error cause => return .error (.notStarted program cause)
  | .ok process => configuration.capture.answer process

end LanguageServer
