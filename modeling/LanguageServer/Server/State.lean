import LanguageServer.Diagnostic
import LanguageServer.Formatting
import LanguageServer.Session.Basic

/-! The state of the server: a session and the work that is still in flight. -/

namespace LanguageServer

/-- The client's name for a request. -/
inductive RequestId where
  | number (value : Int)
  | text (value : String)
  deriving DecidableEq, Repr

/-- A settings request, by its document and its number among that document's requests. -/
structure FetchId where
  uri : Uri
  number : Nat
  deriving DecidableEq, Repr

/-- A validation, by its document and its number among that document's validations. -/
structure ValidationId where
  uri : Uri
  number : Nat
  deriving DecidableEq, Repr

/-- Settings of a document that the client was asked for. -/
inductive SettingsEntry where
  | asked (fetch : FetchId)
  | answered (settings : Settings)
  deriving DecidableEq, Repr

/-- How far a validation has come. -/
inductive Phase where
  /-- It has not looked for its settings yet. -/
  | scheduled
  /-- It waits for the client to answer a settings request. -/
  | awaiting (fetch : FetchId)
  /-- Its settings have come and it has not gone on yet. -/
  | configured (settings : Settings)
  /-- It waits for the compiler. -/
  | compiling (settings : Settings)
  deriving DecidableEq, Repr

/-- A validation in flight, with the document as it was when the validation was started. -/
structure Validation where
  id : ValidationId
  document : Document
  phase : Phase := .scheduled
  deriving DecidableEq, Repr

/-- A formatting request that waits for the compiler, with the text to format. -/
structure Formatting where
  request : RequestId
  text : String
  deriving DecidableEq, Repr

/-- The server between two events. -/
structure Server where
  /-- The mode in which documents are validated. -/
  mode : Mode
  session : Session SettingsEntry := {}
  /-- The validations in flight, the oldest first. -/
  validations : List Validation := []
  /-- The formatting requests in flight, the oldest first. -/
  formattings : List Formatting := []
  /-- The number of validations started so far for each document. -/
  started : Table Nat := {}
  /-- The number of settings requests made so far for each document. -/
  asked : Table Nat := {}
  /-- The number of registrations that the client has not answered. -/
  registrations : Nat := 0
  deriving Repr

namespace Server

/-- The validation in flight under an identity. -/
def validation? (server : Server) (id : ValidationId) : Option Validation :=
  -- Identities are given once.
  server.validations.find? fun validation => validation.id = id

/-- The formatting in flight for a request. -/
def formatting? (server : Server) (request : RequestId) : Option Formatting :=
  -- The client may use a name again once it was answered.
  server.formattings.find? fun formatting => formatting.request = request

/-- The server with a validation in another phase. -/
def setPhase (server : Server) (id : ValidationId) (phase : Phase) : Server :=
  -- Other validations stay as they are.
  { server with validations := server.validations.map fun validation =>
      if validation.id = id then { validation with phase } else validation }

/-- The server without a validation. -/
def dropValidation (server : Server) (id : ValidationId) : Server :=
  -- Other validations keep their order.
  { server with validations := server.validations.filter fun validation => validation.id ≠ id }

/-- The server without a formatting request. -/
def dropFormatting (server : Server) (request : RequestId) : Server :=
  -- Other requests keep their order.
  { server with formattings :=
      server.formattings.filter fun formatting => formatting.request ≠ request }

/-- The server with a new validation of a document as it is now. -/
def schedule (server : Server) (document : Document) : Server :=
  -- The validation is the next one of its document.
  let number := (server.started.find? document.uri).getD 0
  { server with
    validations := server.validations ++ [{ id := ⟨document.uri, number⟩, document }]
    started := server.started.insert document.uri (number + 1) }

/-- The name of the next settings request for a document. -/
def nextFetch (server : Server) (uri : Uri) : FetchId :=
  -- Requests are numbered for each document.
  ⟨uri, (server.asked.find? uri).getD 0⟩

end Server

end LanguageServer
