import LanguageServer.Protocol.Method
import LanguageServer.Server.Handlers

/-! The server behind a connection, which lets messages pass according to its stage. -/

namespace LanguageServer

/-- How far a connection has come. -/
inductive Stage where
  /-- The client has not introduced itself. -/
  | fresh
  /-- Messages are served. -/
  | serving
  /-- The client has asked for the end. -/
  | closing
  /-- Nothing is served any more. -/
  | exited
  deriving DecidableEq, Repr

/-- A message of the client. -/
structure Incoming where
  method : String
  params : Option Json := none
  id : Option RequestId := none
  deriving Repr

/-- The server and the stage of its connection. -/
structure Connection where
  server : Server
  stage : Stage := .fresh
  deriving Repr

namespace Connection

/-- A message with a name is refused, one without is dropped. -/
def refuse (connection : Connection) (id : Option RequestId) (refusal : Refusal) :
    Connection × List Output :=
  -- Notifications are never answered.
  (connection, id.toList.map fun request => .refuse request refusal)

/-- What reaches the client, which hears nothing after the end of the connection. -/
def audible (connection : Connection) (outputs : List Output) : List Output :=
  -- Runs of the compiler and the log go on.
  if connection.stage = .exited then
    outputs.filter fun output => match output with
      | .send _ | .askSettings _ | .askRegistration | .respond _ _ => false
      | _ => true
  else outputs

/-- The connection after an event of the server. -/
def happen (connection : Connection) (event : Event) : Connection × List Output :=
  -- The stage is left to the messages.
  let (server, outputs) := connection.server.step event
  ({ connection with server }, connection.audible outputs)

/-- The client introduces itself. -/
def handshake (connection : Connection) (message : Incoming) : Connection × List Output :=
  -- A failed introduction may be tried again.
  if connection.stage ≠ .fresh then connection.refuse message.id .invalidRequest
  else match message.id, message.params.bind Params.handshake? with
    | none, _ => (connection, [])
    | some request, some capabilities =>
      { connection with stage := .serving }.happen (.handshake request capabilities)
    | some _, none => connection.refuse message.id .invalidParams

/-- The refusal of a message that comes too early or too late. -/
def untimely (stage : Stage) : Refusal :=
  -- Before the introduction the reason is told.
  if stage = .fresh then .notInitialized else .invalidRequest

/-- The client asks for the end. -/
def shutdown (connection : Connection) (message : Incoming) : Connection × List Output :=
  -- The stage changes even if the request itself is faulty.
  if connection.stage ≠ .serving then connection.refuse message.id (untimely connection.stage)
  else
    let closing := { connection with stage := .closing }
    match message.id, message.params with
    | none, _ => (closing, [])
    | some request, none => closing.happen (.shutdownAsked request)
    | some _, some _ => closing.refuse message.id .invalidParams

/-- The client ends the connection. -/
def exit (connection : Connection) : Connection × List Output :=
  -- Requests in flight are cancelled.
  let server := connection.server
  ({ connection with stage := .exited, server := { server with formattings := [] } },
    server.formattings.map fun formatting => .refuse formatting.request .cancelled)

/-- The client no longer wants an answer. -/
def cancel (connection : Connection) (message : Incoming) : Connection × List Output :=
  -- A request that is not in flight cannot be cancelled.
  match message.id, message.params.bind Params.cancel? with
  | some _, _ => connection.refuse message.id .invalidRequest
  | none, none => (connection, [])
  | none, some request =>
    if (connection.server.formatting? request).isSome then
      ({ connection with server := connection.server.dropFormatting request },
        [.refuse request .cancelled])
    else (connection, [])

/-- A request of the client while messages are served. -/
def request (connection : Connection) (message : Incoming)
    (read : RequestId → Json → Except Refusal Event) : Connection × List Output :=
  -- A name that is in use cannot name another request.
  match message.id with
  | none => (connection, [])
  | some id =>
    if (connection.server.formatting? id).isSome then connection.refuse id .invalidRequest
    else match message.params with
      | none => connection.refuse id .invalidParams
      | some params =>
        match read id params with
        | .ok event => connection.happen event
        | .error refusal => connection.refuse id refusal

/-- A notification of the client while messages are served. -/
def notification (connection : Connection) (message : Incoming) (read : Json → Option Event) :
    Connection × List Output :=
  -- A notification must not ask for an answer, and a faulty one is ignored.
  match message.id, message.params.bind read with
  | some _, _ => connection.refuse message.id .invalidRequest
  | none, some event => connection.happen event
  | none, none => (connection, [])

/-- The connection after a message of the client, with what the server does. -/
def receive (connection : Connection) (message : Incoming) : Connection × List Output :=
  -- Unknown methods are answered in every stage but the last, unless their name says otherwise.
  if connection.stage = .exited then (connection, [.gone])
  else match Method.ofName? message.method with
    | none =>
      if message.method.startsWith "$/" then (connection, [])
      else connection.refuse message.id .unknownMethod
    | some .handshake => connection.handshake message
    | some .shutdown => connection.shutdown message
    | some .exit => connection.exit
    | some .cancel => connection.cancel message
    | some (.request read) =>
      if connection.stage = .serving then connection.request message read
      else connection.refuse message.id (untimely connection.stage)
    | some (.notification read) =>
      if connection.stage = .serving then connection.notification message read
      else connection.refuse message.id (untimely connection.stage)

end Connection

end LanguageServer
