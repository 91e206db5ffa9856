import LanguageServer.Protocol.Params

/-! The methods of the protocol, with what their parameters mean to the server. -/

namespace LanguageServer

/-- A method of the protocol. -/
inductive Method where
  | handshake
  | shutdown
  | exit
  | cancel
  /-- A request, by what its parameters ask for, if the server can answer it. -/
  | request (read : RequestId → Json → Except Refusal Event)
  /-- A notification, by what its parameters tell, if the server listens to it. -/
  | notification (read : Json → Option Event)

namespace Method

/-- A request whose parameters are read in the given way. -/
def asking {α : Type} (read : Json → Option α) (event : RequestId → α → Event) : Method :=
  -- Parameters that cannot be read are refused.
  .request fun request params => match read params with
    | some meant => .ok (event request meant)
    | none => .error .invalidParams

/-- A request that the server has no answer to. -/
def unanswered (check : Json → Option Unit) : Method :=
  -- Parameters are checked all the same.
  .request fun _ params => match check params with
    | some _ => .error .unknownMethod
    | none => .error .invalidParams

/-- A notification that the server does not listen to. -/
def unheard : Method :=
  -- Whatever it tells is ignored.
  .notification fun _ => none

/-- The methods that the server answers or listens to. -/
def served : List (String × Method) :=
  -- Names are those of the protocol.
  [("initialize", .handshake), ("shutdown", .shutdown), ("exit", .exit),
    ("$/cancelRequest", .cancel),
    ("initialized", .notification fun params => (Params.empty? params).map fun _ => .ready),
    ("textDocument/didOpen", .notification Params.documentOpened?),
    ("textDocument/didChange", .notification Params.documentChanged?),
    ("textDocument/didClose", .notification Params.documentClosed?),
    ("workspace/didChangeConfiguration", .notification Params.configurationChanged?),
    ("workspace/didChangeWorkspaceFolders", .notification Params.foldersChanged?),
    ("workspace/didChangeWatchedFiles", .notification Params.filesChanged?),
    ("textDocument/completion",
      asking Params.completion? fun request _ => .completionAsked request),
    ("completionItem/resolve", asking Restate.completionItem .resolutionAsked),
    ("textDocument/formatting", asking Params.formatting? .formattingAsked)]

/-- The requests about a place in a document that the server has no answer to. -/
def placeRequests : List String :=
  -- Their parameters hold a document and a position.
  ["textDocument/hover", "textDocument/declaration", "textDocument/definition",
    "textDocument/typeDefinition", "textDocument/implementation", "textDocument/references",
    "textDocument/documentHighlight", "textDocument/signatureHelp", "textDocument/moniker",
    "textDocument/prepareRename", "textDocument/rename", "textDocument/linkedEditingRange",
    "textDocument/prepareCallHierarchy", "textDocument/prepareTypeHierarchy",
    "textDocument/onTypeFormatting"]

/-- The other requests that the server has no answer to. -/
def otherRequests : List String :=
  -- Their parameters differ.
  ["textDocument/willSaveWaitUntil", "textDocument/documentLink", "documentLink/resolve",
    "textDocument/codeLens", "codeLens/resolve", "textDocument/foldingRange",
    "textDocument/selectionRange", "textDocument/documentSymbol",
    "textDocument/semanticTokens/full", "textDocument/semanticTokens/full/delta",
    "textDocument/semanticTokens/range", "textDocument/inlineValue", "textDocument/inlayHint",
    "inlayHint/resolve", "textDocument/diagnostic", "workspace/diagnostic",
    "textDocument/codeAction", "codeAction/resolve", "textDocument/documentColor",
    "textDocument/colorPresentation", "textDocument/rangeFormatting", "workspace/symbol",
    "workspaceSymbol/resolve", "workspace/willCreateFiles", "workspace/willRenameFiles",
    "workspace/willDeleteFiles", "workspace/executeCommand", "callHierarchy/incomingCalls",
    "callHierarchy/outgoingCalls", "typeHierarchy/supertypes", "typeHierarchy/subtypes"]

/-- The notifications that the server does not listen to. -/
def otherNotifications : List String :=
  -- They are part of the protocol all the same.
  ["textDocument/willSave", "textDocument/didSave", "workspace/didCreateFiles",
    "workspace/didRenameFiles", "workspace/didDeleteFiles"]

/-- The method of a name, if the protocol has it. -/
def ofName? (name : String) : Option Method :=
  -- The methods that the server serves come first.
  match served.lookup name with
  | some method => some method
  | none =>
    if placeRequests.contains name then some (unanswered Params.place?)
    else if otherRequests.contains name then some (unanswered fun _ => some ())
    else if otherNotifications.contains name then some unheard
    else none

end Method

end LanguageServer
