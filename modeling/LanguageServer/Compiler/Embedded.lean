import LanguageServer.Notice

/-! An in-process compiler, whose errors are put into the words of the compiler program. -/

namespace LanguageServer

/-- How an in-process compiler ends. -/
inductive CompilerReply where
  | output (text : String)
  | failure (error : CompileError)
  | panic
  deriving DecidableEq, Repr

/-- The report about a compiler that broke down. -/
def brokenDown : String :=
  -- There is no position to tell.
  "Unexpected error: the compiler failed without reporting a position"

/-- What an invocation gives when the in-process compiler ends in a certain way. -/
def embeddedAnswer (mode : Mode) (reply : CompilerReply) :
    Logged (Except InvocationError String) :=
  -- An error is output in every mode but the printing one, where output replaces documents.
  match reply with
  | .output text => ⟨.ok (if mode = .print then text else ""), []⟩
  | .failure error =>
    if mode = .print then ⟨.error (.print error.render), []⟩
    else ⟨.ok error.render, [.embeddedReported error]⟩
  | .panic =>
    if mode = .print then ⟨.error (.print brokenDown), [.embeddedPanickedPrinting]⟩
    else ⟨.ok brokenDown, [.embeddedPanicked mode]⟩

end LanguageServer
