import LanguageServer.Json.Value

/-! What the client can do, and what the server offers to such a client. -/

namespace LanguageServer

/-- The optional client features that the server adapts to. -/
structure Capabilities where
  /-- The client answers requests for its configuration. -/
  configuration : Bool := false
  /-- The client has workspace folders. -/
  workspaceFolders : Bool := false
  /-- The client shows further places beside a diagnostic. -/
  relatedInformation : Bool := false
  deriving DecidableEq, Repr

namespace Capabilities

/-- A truth value as a word. -/
def word (value : Bool) : String :=
  -- Words are lower case.
  if value then "true" else "false"

/-- The features as one line of the log. -/
def describe (capabilities : Capabilities) : String :=
  -- Every feature is named with its value.
  "ClientCapabilitiesSnapshot \x7b configuration: " ++ word capabilities.configuration ++
    ", workspace_folders: " ++ word capabilities.workspaceFolders ++
    ", diagnostic_related_information: " ++ word capabilities.relatedInformation ++ " \x7d"

/-- The feature list that the server answers to a client. -/
def offered (capabilities : Capabilities) : Json :=
  -- Workspace folders are offered only to clients that have them.
  let folders := Json.object [("supported", .bool true), ("changeNotifications", .bool true)]
  let workspace := if capabilities.workspaceFolders then
      [("workspace", Json.object [("workspaceFolders", folders)])]
    else []
  .object ([("textDocumentSync", .object [("openClose", .bool true), ("change", .nat 2)]),
    ("completionProvider", .object [("resolveProvider", .bool true)]),
    ("documentFormattingProvider", .bool true)] ++ workspace)

end Capabilities

/-- The method by which the client says that its configuration has changed. -/
def configurationChange : String := "workspace/didChangeConfiguration"

/-- The registration by which the server asks to be told of configuration changes. -/
def changeRegistration : Json :=
  -- The registration is named after its method.
  .object [("id", .string configurationChange), ("method", .string configurationChange)]

end LanguageServer
