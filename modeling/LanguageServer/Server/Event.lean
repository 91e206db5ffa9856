import LanguageServer.Completion
import LanguageServer.Server.State

/-! What can happen to the server, and what the server does in return. -/

namespace LanguageServer

/-- Who waits for a run of the compiler. -/
inductive Caller where
  | validation (id : ValidationId)
  | formatting (request : RequestId)
  deriving DecidableEq, Repr

/-- Something that happens to the server. -/
inductive Event where
  /-- The client introduces itself. -/
  | handshake (request : RequestId) (capabilities : Capabilities)
  /-- The client has taken note of the server's features. -/
  | ready
  | documentOpened (uri : Uri) (languageId : String) (version : Int) (text : String)
  | documentChanged (uri : Uri) (version : Int) (changes : List Change)
  | documentClosed (uri : Uri)
  /-- The client's configuration has changed, with the server's section of it if it was sent. -/
  | configurationChanged (settings : Option Json)
  | foldersChanged
  | filesChanged (count : Nat)
  | completionAsked (request : RequestId)
  | resolutionAsked (request : RequestId) (item : Json)
  | formattingAsked (request : RequestId) (uri : Uri)
  | shutdownAsked (request : RequestId)
  /-- A validation looks for its settings. -/
  | validationStarted (id : ValidationId)
  /-- The client answers a settings request, or fails to. -/
  | settingsAnswered (fetch : FetchId) (values : Option (List Json))
  /-- A validation goes on with the settings that have come. -/
  | validationResumed (id : ValidationId)
  /-- The compiler has run for someone. -/
  | compilerAnswered (caller : Caller) (answer : Except InvocationError String)
  /-- The client answers a registration, or fails to. -/
  | registrationAnswered (accepted : Bool)

/-- How a message for the client's log is shown. -/
inductive MessageKind where
  | info
  | log
  deriving DecidableEq, Repr

/-- A message to the client that needs no answer. -/
inductive Message where
  | log (kind : MessageKind) (text : String)
  | diagnostics (uri : Uri) (diagnostics : List Diagnostic) (version : Option Int)
  deriving DecidableEq, Repr

/-- The answer to a request. -/
inductive Reply where
  | features (capabilities : Capabilities)
  | nothing
  | completions (items : List CompletionItem)
  | item (value : Json)
  | edits (edits : List TextEdit)
  deriving Repr

/-- Why a request is refused. -/
inductive Refusal where
  | notInitialized
  | invalidRequest
  | unknownMethod
  | invalidParams
  | cancelled
  deriving DecidableEq, Repr

/-- Something that the server does. -/
inductive Output where
  | send (message : Message)
  | askSettings (fetch : FetchId)
  | askRegistration
  | invoke (caller : Caller) (mode : Mode) (source : String)
  | respond (request : RequestId) (reply : Reply)
  | refuse (request : RequestId) (refusal : Refusal)
  /-- The message came after the end of the connection. -/
  | gone
  | note (notice : Notice)
  deriving Repr

/-- The server after an event, with what it does in order. -/
abbrev Step := Server × List Output

/-- Notices as outputs. -/
def notes (notices : List Notice) : List Output :=
  -- Their order is kept.
  notices.map Output.note

end LanguageServer
