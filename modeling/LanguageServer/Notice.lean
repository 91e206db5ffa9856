import LanguageServer.Capabilities
import LanguageServer.Compiler.Error
import LanguageServer.Mode
import LanguageServer.Text.Quoted
import LanguageServer.Uri

/-! Everything the server writes to its log, with level, origin and wording. -/

namespace LanguageServer

/-- How much a log entry matters. -/
inductive Level where
  | debug
  | info
  | warn
  deriving DecidableEq, Repr

/-- The name of a level in the log. -/
def Level.name : Level → String
  -- Names are upper case.
  | .debug => "DEBUG"
  | .info => "INFO"
  | .warn => "WARN"

/-- The part of the server that a log entry comes from. -/
inductive Origin where
  | bridge
  | embedded
  | subprocess
  | configuration
  | store
  | log
  | handlers
  | diagnostics
  | formatting
  | server
  | session
  | settings
  | validation
  deriving DecidableEq, Repr

/-- The name of an origin in the log. -/
def Origin.target : Origin → String
  -- Names are paths below the program's own name.
  | .bridge => "mypl_lsp::compiler::bridge"
  | .embedded => "mypl_lsp::compiler::embedded"
  | .subprocess => "mypl_lsp::compiler::subprocess"
  | .configuration => "mypl_lsp::config"
  | .store => "mypl_lsp::document::store"
  | .log => "mypl_lsp::log"
  | .handlers => "mypl_lsp::lsp::backend"
  | .diagnostics => "mypl_lsp::lsp::diagnostics"
  | .formatting => "mypl_lsp::lsp::formatting"
  | .server => "mypl_lsp::lsp::server"
  | .session => "mypl_lsp::lsp::session"
  | .settings => "mypl_lsp::lsp::settings"
  | .validation => "mypl_lsp::lsp::validation"

/-- Something worth a log entry. -/
inductive Notice where
  | loggingTo (path : String)
  | starting
  | stopped
  | configurationMissing (path : String)
  | configurationLoaded (path : String)
  | subprocessChosen (path : String)
  | embeddedChosen
  | spawning (program : String) (mode : Mode)
  | inputRefused
  | inputFailed (reason : String)
  | outputFailed (reason : String)
  | compilerExited (status : String)
  | waitFailed (reason : String)
  | embeddedReported (error : CompileError)
  | embeddedPanicked (mode : Mode)
  | embeddedPanickedPrinting
  | negotiated (capabilities : Capabilities)
  | alreadyNegotiated
  | registrationFailed
  | changeOfUnknown (uri : Uri)
  | versionNotIncreasing (uri : Uri) (held received : Int)
  | closeOfUnknown (uri : Uri)
  | formattingOfUnknown (uri : Uri)
  | settingsMalformed
  | settingsNotFetched
  | tearingDown (documents : Nat)
  | revalidating (documents : Nat)
  | validationDropped (uri : Uri) (version : Int) (error : InvocationError)
  | diagnosticsStale (uri : Uri) (version : Int) (generation : Nat)
  | diagnosticsPublished (count : Nat) (uri : Uri) (version : Int)
  | positionUnusable (output : String)
  | positionNegative (output : String)
  | errorLocated (line character : Nat)
  | printFailed (firstLine : String)
  | printedNothing
  | formattingSkipped (error : InvocationError)
  deriving DecidableEq, Repr

namespace Notice

/-- How much a notice matters. -/
def level : Notice → Level
  -- Warnings are what a user may have to act on.
  | .loggingTo _ | .starting | .stopped | .configurationLoaded _ | .subprocessChosen _
  | .embeddedChosen | .negotiated _ | .tearingDown _ | .revalidating _ => .info
  | .spawning _ _ | .inputRefused | .compilerExited _ | .embeddedReported _
  | .diagnosticsStale _ _ _ | .diagnosticsPublished _ _ _ | .errorLocated _ _
  | .printFailed _ => .debug
  | .configurationMissing _ | .inputFailed _ | .outputFailed _ | .waitFailed _
  | .embeddedPanicked _ | .embeddedPanickedPrinting | .alreadyNegotiated | .registrationFailed
  | .changeOfUnknown _ | .versionNotIncreasing _ _ _ | .closeOfUnknown _ | .formattingOfUnknown _
  | .settingsMalformed | .settingsNotFetched | .validationDropped _ _ _ | .positionUnusable _
  | .positionNegative _ | .printedNothing | .formattingSkipped _ => .warn

/-- The part of the server that gives a notice. -/
def origin : Notice → Origin
  -- Every notice has one origin.
  | .loggingTo _ => .log
  | .starting | .stopped => .server
  | .configurationMissing _ | .configurationLoaded _ => .configuration
  | .subprocessChosen _ | .embeddedChosen => .bridge
  | .spawning _ _ | .inputRefused | .inputFailed _ | .outputFailed _ | .compilerExited _
  | .waitFailed _ => .subprocess
  | .embeddedReported _ | .embeddedPanicked _ | .embeddedPanickedPrinting => .embedded
  | .negotiated _ | .registrationFailed | .closeOfUnknown _ | .formattingOfUnknown _ => .handlers
  | .alreadyNegotiated | .tearingDown _ => .session
  | .changeOfUnknown _ | .versionNotIncreasing _ _ _ => .store
  | .settingsMalformed => .settings
  | .settingsNotFetched | .revalidating _ | .validationDropped _ _ _ | .diagnosticsStale _ _ _
  | .diagnosticsPublished _ _ _ => .validation
  | .positionUnusable _ | .positionNegative _ | .errorLocated _ _ => .diagnostics
  | .printFailed _ | .printedNothing | .formattingSkipped _ => .formatting

/-- The words of a notice, without the details that only help to find a fault. -/
def summary : Notice → String
  -- Paths stand in quotes and addresses do not.
  | .loggingTo path => "mypl-lsp logging to " ++ quoted path
  | .starting => "Starting mypl-lsp server"
  | .stopped => "mypl-lsp server stopped"
  | .configurationMissing path => "No config file at " ++ quoted path ++ ", using defaults"
  | .configurationLoaded path => "Loaded config from " ++ quoted path
  | .subprocessChosen path => "Using subprocess compiler backend: " ++ quoted path
  | .embeddedChosen => "Using embedded compiler backend"
  | .spawning program mode => "Spawning " ++ program ++ " in " ++ mode.name ++ " mode"
  | .inputRefused => "Compiler closed stdin early: Broken pipe (os error 32)"
  | .inputFailed reason => "Failed to write source to compiler: " ++ reason
  | .outputFailed reason => "Failed to read compiler output: " ++ reason
  | .compilerExited status => "Compiler exited with " ++ status
  | .waitFailed reason => "Failed to wait for compiler: " ++ reason
  | .embeddedReported error => "Embedded compiler reported: " ++ error.render
  | .embeddedPanicked mode => "Embedded compiler panicked in " ++ mode.name ++ " mode"
  | .embeddedPanickedPrinting => "Embedded compiler panicked while printing"
  | .negotiated capabilities => "Client capabilities: " ++ capabilities.describe
  | .alreadyNegotiated => "Client capabilities already negotiated, ignoring"
  | .registrationFailed => "Failed to register for configuration changes"
  | .changeOfUnknown uri => "Change for unknown document " ++ uri.text
  | .versionNotIncreasing uri held received =>
    "Non-increasing version for " ++ uri.text ++ ": " ++ toString held ++ " -> " ++
      toString received
  | .closeOfUnknown uri => "Close for unknown document " ++ uri.text
  | .formattingOfUnknown uri => "Formatting requested for unknown document " ++ uri.text
  | .settingsMalformed => "Ignoring malformed mypl settings"
  | .settingsNotFetched => "Failed to fetch settings"
  | .tearingDown documents =>
    "Tearing down session with " ++ toString documents ++ " open documents"
  | .revalidating documents => "Revalidating " ++ toString documents ++ " open documents"
  | .validationDropped uri version error =>
    "Validation of " ++ uri.text ++ " v" ++ toString version ++ " dropped: " ++ error.message
  | .diagnosticsStale uri version generation =>
    "Discarding stale diagnostics for " ++ uri.text ++ " v" ++ toString version ++ " (open #" ++
      toString generation ++ ")"
  | .diagnosticsPublished count uri version =>
    "Publishing " ++ toString count ++ " diagnostics for " ++ uri.text ++ " v" ++ toString version
  | .positionUnusable _ => "Compiler error without a usable position"
  | .positionNegative _ => "Compiler error with a negative position"
  | .errorLocated line character =>
    "Compiler error at " ++ toString line ++ ":" ++ toString character
  | .printFailed firstLine => "Print failed: " ++ firstLine
  | .printedNothing => "Compiler printed nothing, leaving document unchanged"
  | .formattingSkipped error => "Formatting skipped: " ++ error.message

/-- The details behind the words of a notice, where there are any. -/
def detail? : Notice → Option String
  -- An output that could not be read is shown whole.
  | .positionUnusable output | .positionNegative output => some (quoted output)
  | _ => none

/-- The whole text of a notice. -/
def message (notice : Notice) : String :=
  -- Details stand behind a colon.
  match notice.detail? with
  | some detail => notice.summary ++ ": " ++ detail
  | none => notice.summary

end Notice

/-- A value together with the notices given on the way to it, the first one first. -/
structure Logged (α : Type) where
  value : α
  notices : List Notice := []
  deriving DecidableEq, Repr

namespace Logged

/-- A step that only gives a notice. -/
def note (notice : Notice) : Logged Unit :=
  -- There is nothing to return.
  ⟨(), [notice]⟩

instance : Monad Logged where
  pure value := ⟨value, []⟩
  bind first next := ⟨(next first.value).value, first.notices ++ (next first.value).notices⟩

/-- The warnings among the notices. -/
def warnings {α : Type} (logged : Logged α) : List Notice :=
  -- Their order is kept.
  logged.notices.filter fun notice => notice.level = .warn

end Logged

end LanguageServer
