import LanguageServer.Json.Builder
import LanguageServer.Protocol.Message
import LanguageServer.Server.Scheduler

/-! The server in dialogue with a client that answers in its own time, message by message. -/

namespace LanguageServer

/-- A message of the client, or its answer to a request of the server. -/
inductive Received where
  | message (incoming : Incoming)
  /-- The result is missing where the client failed. -/
  | answer (request : RequestId) (result : Option Json)

/-- A message of the client as it is received. -/
def Received.ofJson? (value : Json) : Option Received :=
  -- Only answers have no method.
  let request := (value.member? "id").bind RequestId.ofJson?
  match value.member? "method", request with
  | some (.string method), _ => some (.message ⟨method, value.member? "params", request⟩)
  | some _, _ | none, none => none
  | none, some request => some (.answer request (value.member? "result"))

/-- A request of the server. -/
inductive Question where
  | settings (fetch : FetchId)
  | registration
  deriving DecidableEq, Repr

/-- The server with the requests that the client has not answered, by their numbers. -/
structure Dialogue where
  scheduler : Scheduler
  questions : List (Nat × Question) := []
  /-- The number of the next request. -/
  next : Nat := 0

namespace Dialogue

/-- A dialogue that has not begun, for a mode of validation and a compiler. -/
def begin (mode : Mode) (compiler : Mode → String → Logged (Except InvocationError String)) :
    Dialogue :=
  -- Nothing is answered in the client's name.
  { scheduler :=
      { connection := { server := { mode } }, compiler, policy := .hold, registration := none } }

/-- The dialogue with another compiler from now on. -/
def withCompiler (dialogue : Dialogue)
    (compiler : Mode → String → Logged (Except InvocationError String)) : Dialogue :=
  -- Nothing else changes.
  { dialogue with scheduler := { dialogue.scheduler with compiler } }

/-- The members that every message has. -/
def envelope (members : List (String × Json)) : Json :=
  -- The version of the message format is always the same.
  .object (("jsonrpc", .string "2.0") :: members)

/-- The dialogue after a request of the server, with the request as it is sent. -/
def ask (dialogue : Dialogue) (question : Question) (method : String) (params : Json) :
    Dialogue × Json :=
  -- Requests are numbered in the order of sending.
  ({ dialogue with
      questions := dialogue.questions ++ [(dialogue.next, question)]
      next := dialogue.next + 1 },
    envelope [("id", .nat dialogue.next), ("method", .string method), ("params", params)])

/-- The error of a refused request. -/
def refusalJson (refusal : Refusal) : Json :=
  -- The code is what counts.
  .object [("code", .int refusal.code), ("message", .string refusal.message)]

/-- The dialogue after an output of the server, with what is sent or logged. -/
def tell (dialogue : Dialogue) : Output → Dialogue × Logged (List Json)
  -- Runs of the compiler are not for the client.
  | .send message =>
    (dialogue, ⟨[envelope [("method", .string message.method), ("params", message.params)]], []⟩)
  | .askSettings fetch =>
    let (dialogue, sent) := dialogue.ask (.settings fetch) settingsMethod fetch.params
    (dialogue, ⟨[sent], []⟩)
  | .askRegistration =>
    let (dialogue, sent) := dialogue.ask .registration registrationMethod registrationParams
    (dialogue, ⟨[sent], []⟩)
  | .respond request reply =>
    (dialogue, ⟨[envelope [("id", request.toJson), ("result", reply.toJson)]], []⟩)
  | .refuse request refusal =>
    (dialogue, ⟨[envelope [("id", request.toJson), ("error", refusalJson refusal)]], []⟩)
  | .note notice => (dialogue, ⟨[], [notice]⟩)
  | .invoke _ _ _ | .gone => (dialogue, ⟨[], []⟩)

/-- The dialogue after outputs of the server in order, with all that is sent and logged. -/
def tellAll (dialogue : Dialogue) : List Output → Dialogue × Logged (List Json)
  -- The order of the outputs is kept.
  | [] => (dialogue, ⟨[], []⟩)
  | output :: rest =>
    let (dialogue, first) := dialogue.tell output
    let (dialogue, others) := dialogue.tellAll rest
    (dialogue, ⟨first.value ++ others.value, first.notices ++ others.notices⟩)

/-- The dialogue after an action of the surroundings. -/
def perform (dialogue : Dialogue) (action : Scheduler.Action) :
    Dialogue × Logged (List Json) :=
  -- All that can happen happens before the next message is read.
  let (scheduler, outputs) := dialogue.scheduler.perform action
  ({ dialogue with scheduler } : Dialogue).tellAll outputs

/-- What the client's answer to a request means to the server. -/
def Question.answered (result : Option Json) : Question → Event
  -- Settings must come as a list.
  | .settings fetch => .settingsAnswered fetch (result.bind Json.asArray?)
  | .registration => .registrationAnswered result.isSome

/-- The dialogue after the client has answered a request of the server. -/
def answered (dialogue : Dialogue) (request : RequestId) (result : Option Json) :
    Dialogue × Logged (List Json) :=
  -- An answer to no request is ignored.
  match dialogue.questions.find? fun asked => RequestId.number asked.1 = request with
  | some asked =>
    let left := dialogue.questions.filter fun other => other.1 ≠ asked.1
    ({ dialogue with questions := left } : Dialogue).perform
      (.other (Question.answered result asked.2))
  | none => (dialogue, ⟨[], []⟩)

/-- The dialogue after something was received from the client, with all that is sent and logged. -/
def hear (dialogue : Dialogue) : Received → Dialogue × Logged (List Json)
  -- Messages go through the connection and answers to the validation that waits for them.
  | .message incoming => dialogue.perform (.send incoming)
  | .answer request result => dialogue.answered request result

/-- What is sent back for something that is no message. -/
def misunderstood : Json :=
  -- There is no request to name.
  envelope [("id", .null), ("error", refusalJson .invalidRequest)]

/-- The dialogue after the text of a message, with all that is sent and logged. -/
def hearText (dialogue : Dialogue) (text : Option String) : Dialogue × Logged (List Json) :=
  -- Bytes that are no text are no message either.
  match (text.bind Json.parse?).bind Received.ofJson? with
  | some received => dialogue.hear received
  | none => (dialogue, ⟨[misunderstood], []⟩)

/-- Whether the connection has ended. -/
def isOver (dialogue : Dialogue) : Bool :=
  -- Only the client ends it.
  dialogue.scheduler.connection.stage = .exited

end Dialogue

end LanguageServer
