import LanguageServer.Identity
import LanguageServer.Protocol.Position
import LanguageServer.Server.Event

/-! Messages, requests and answers of the server as they are sent. -/

namespace LanguageServer

/-- The number of a message kind. -/
def MessageKind.code : MessageKind → Nat
  -- Errors and warnings have lower numbers.
  | .info => 3
  | .log => 4

/-- The method of a message. -/
def Message.method : Message → String
  -- Each kind of message has its method.
  | .log _ _ => "window/logMessage"
  | .diagnostics _ _ _ => "textDocument/publishDiagnostics"

/-- The parameters of a message. -/
def Message.params : Message → Json
  -- A missing version is left out.
  | .log kind text => .object [("type", .nat kind.code), ("message", .string text)]
  | .diagnostics uri found version =>
    .object ([("uri", .string uri.text),
      ("diagnostics", .array (found.map Diagnostic.toJson))] ++
      version.toList.map fun version => ("version", .int version))

/-- The method of a settings request. -/
def settingsMethod : String := "workspace/configuration"

/-- The method of a registration. -/
def registrationMethod : String := "client/registerCapability"

/-- The parameters of a settings request. -/
def FetchId.params (fetch : FetchId) : Json :=
  -- One item is asked for.
  .object [("items", .array
    [.object [("scopeUri", .string fetch.uri.text), ("section", .string settingsSection)]])]

/-- The parameters of a registration. -/
def registrationParams : Json :=
  -- One method is registered.
  .object [("registrations", .array [changeRegistration])]

/-- The program's name and version. -/
def serverInfo : Json :=
  -- The version is that of the program.
  .object [("name", .string serverName), ("version", .string serverVersion)]

/-- The result of a request as it is sent. -/
def Reply.toJson : Reply → Json
  -- Nothing is null.
  | .features capabilities =>
    .object [("capabilities", capabilities.offered), ("serverInfo", serverInfo)]
  | .nothing => .null
  | .completions items => .array (items.map CompletionItem.toJson)
  | .item value => value
  | .edits changes => .array (changes.map TextEdit.toJson)

/-- The code of a refusal. -/
def Refusal.code : Refusal → Int
  -- The codes are those of the protocol.
  | .notInitialized => -32002
  | .invalidRequest => -32600
  | .unknownMethod => -32601
  | .invalidParams => -32602
  | .cancelled => -32800

/-- The words of a refusal. -/
def Refusal.message : Refusal → String
  -- The words only help a reader.
  | .notInitialized => "Server not initialized"
  | .invalidRequest => "Invalid request"
  | .unknownMethod => "Method not found"
  | .invalidParams => "Invalid params"
  | .cancelled => "Canceled"

/-- A request's name as it is sent. -/
def RequestId.toJson : RequestId → Json
  -- Names are numbers or texts.
  | .number value => .int value
  | .text value => .string value

/-- A request's name as it is received. -/
def RequestId.ofJson? : Json → Option RequestId
  -- Other values name nothing.
  | .number (.whole value) => some (.number value)
  | .string value => some (.text value)
  | _ => none

end LanguageServer
