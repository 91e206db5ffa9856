import LanguageServer.Compiler.Embedded
import LanguageServer.Compiler.Subprocess

/-! The compiler that a configuration chooses. -/

namespace LanguageServer

/-- An in-process compiler. -/
abbrev Compiler := Mode → String → CompilerReply

/-- A compiler that can be invoked. -/
inductive Bridge where
  | subprocess (configuration : Configuration)
  | embedded (compiler : Compiler)

namespace Bridge

/-- The compiler that a configuration chooses, where an in-process one may be linked or not. -/
def build (configuration : Configuration) (linked : Option Compiler) :
    Logged (Except InvocationError Bridge) :=
  -- Only the in-process compiler can be missing at this point.
  match configuration.backend, linked with
  | .subprocess, _ =>
    ⟨.ok (.subprocess configuration), [.subprocessChosen configuration.compilerPath]⟩
  | .embedded, some compiler => ⟨.ok (.embedded compiler), [.embeddedChosen]⟩
  | .embedded, none => ⟨.error .unavailable, []⟩

/-- What an invocation gives, whatever runs programs. -/
def invoke (run : Runner) (bridge : Bridge) (mode : Mode) (source : String) :
    Logged (Except InvocationError String) :=
  -- An in-process compiler needs no program.
  match bridge with
  | .subprocess configuration => subprocessAnswer run configuration mode source
  | .embedded compiler => embeddedAnswer mode (compiler mode source)

end Bridge

end LanguageServer
