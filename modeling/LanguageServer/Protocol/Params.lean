import LanguageServer.Protocol.Capabilities
import LanguageServer.Protocol.CompletionItem
import LanguageServer.Protocol.Message

/-! The parameters of the messages that the server understands. -/

namespace LanguageServer.Params

/-- The address in a document identifier. -/
def documentUri? (value : Json) : Option Uri := do
  -- Nothing else is needed of the identifier.
  let field ← value.record? ["uri"]
  Json.required? Json.asUri? (field "uri")

/-- A token by which progress may be reported. -/
def progressToken? (value : Json) : Option Unit :=
  -- Tokens are numbers or texts and are not used.
  (value.asInt32?.map fun _ => ()).orElse fun _ => value.asString?.map fun _ => ()

/-- Whether the named tokens of a message are well formed. -/
def tokens? (field : String → Option Json) (names : List String) : Option Unit :=
  -- Tokens may be left out.
  names.forM fun name => (Json.optional? progressToken? (field name)).map fun _ => ()

/-- A workspace folder. -/
def folder? (value : Json) : Option Unit := do
  -- Folders are checked and not used.
  let field ← value.record? ["uri", "name"]
  let _ ← Json.required? Json.asUri? (field "uri")
  let _ ← Json.required? Json.asString? (field "name")
  return ()

/-- The name and the version of a client. -/
def clientInfo? (value : Json) : Option Unit := do
  -- They are checked and not used.
  let field ← value.record? ["name", "version"]
  let _ ← Json.required? Json.asString? (field "name")
  let _ ← Json.optional? Json.asString? (field "version")
  return ()

/-- The client's features in its introduction. -/
def handshake? (value : Json) : Option Capabilities := do
  -- All else in the introduction is checked and not used.
  let field ← value.members?
  let _ ← Json.optional? Json.asNat32? (field "processId")
  let _ ← Json.optional? Json.asString? (field "rootPath")
  let _ ← Json.optional? Json.asUri? (field "rootUri")
  let _ ← Json.optional? (Restate.oneOf ["off", "messages", "verbose"]) (field "trace")
  let _ ← Json.optional? (Json.asListOf? folder?) (field "workspaceFolders")
  let _ ← Json.optional? clientInfo? (field "clientInfo")
  let _ ← Json.optional? Json.asString? (field "locale")
  Json.required? Capabilities.ofJson? (field "capabilities")

/-- Parameters that say nothing. -/
def empty? (value : Json) : Option Unit :=
  -- An object may have any members.
  (value.record? []).map fun _ => ()

/-- The document that was opened. -/
def documentOpened? (value : Json) : Option Event := do
  -- All four fields are needed.
  let field ← value.record? ["textDocument"]
  let document ← field "textDocument"
  let field ← document.record? ["uri", "languageId", "version", "text"]
  let uri ← Json.required? Json.asUri? (field "uri")
  let languageId ← Json.required? Json.asString? (field "languageId")
  let version ← Json.required? Json.asInt32? (field "version")
  let text ← Json.required? Json.asString? (field "text")
  return .documentOpened uri languageId version text

/-- The edits of a document. -/
def documentChanged? (value : Json) : Option Event := do
  -- The version must be given.
  let field ← value.record? ["textDocument", "contentChanges"]
  let document ← field "textDocument"
  let changes ← Json.required? (Json.asListOf? Change.ofJson?) (field "contentChanges")
  let field ← document.record? ["uri", "version"]
  let uri ← Json.required? Json.asUri? (field "uri")
  let version ← Json.required? Json.asInt32? (field "version")
  return .documentChanged uri version changes

/-- The document that was closed. -/
def documentClosed? (value : Json) : Option Event := do
  -- Only the address is told.
  let field ← value.record? ["textDocument"]
  return .documentClosed (← Json.required? documentUri? (field "textDocument"))

/-- The configuration that has changed. -/
def configurationChanged? (value : Json) : Option Event := do
  -- Any value will do, of which one section is used.
  let field ← value.record? ["settings"]
  let settings ← field "settings"
  return .configurationChanged (settings.member? settingsSection)

/-- The workspace folders that have changed. -/
def foldersChanged? (value : Json) : Option Event := do
  -- Both lists are needed and not used.
  let field ← value.record? ["event"]
  let event ← field "event"
  let field ← event.record? ["added", "removed"]
  let _ ← Json.required? (Json.asListOf? folder?) (field "added")
  let _ ← Json.required? (Json.asListOf? folder?) (field "removed")
  return .foldersChanged

/-- A change of a watched file. -/
def fileChange? (value : Json) : Option Unit := do
  -- The kind of change is a number.
  let field ← value.record? ["uri", "type"]
  let _ ← Json.required? Json.asUri? (field "uri")
  let _ ← Json.required? Json.asInt32? (field "type")
  return ()

/-- The watched files that have changed. -/
def filesChanged? (value : Json) : Option Event := do
  -- Only their number is used.
  let field ← value.record? ["changes"]
  let changes ← Json.required? (Json.asListOf? fileChange?) (field "changes")
  return .filesChanged changes.length

/-- The circumstances of a completion. -/
def completionContext? (value : Json) : Option Unit := do
  -- They are checked and not used.
  let field ← value.record? ["triggerKind", "triggerCharacter"]
  let _ ← Json.required? Json.asInt32? (field "triggerKind")
  let _ ← Json.optional? Json.asString? (field "triggerCharacter")
  return ()

/-- A place in a document. -/
def place? (value : Json) : Option Unit := do
  -- Places are checked and not used.
  let field ← value.members?
  let _ ← Json.required? documentUri? (field "textDocument")
  let _ ← Json.required? Position.ofJson? (field "position")
  tokens? field ["workDoneToken", "partialResultToken"]

/-- The place at which completion is asked for. -/
def completion? (value : Json) : Option Unit := do
  -- The same words are offered everywhere.
  place? value
  let field ← value.members?
  let _ ← Json.optional? completionContext? (field "context")
  return ()

/-- The names of the formatting options that have a type of their own. -/
def formattingOptionNames : List String :=
  -- The first two are needed.
  ["tabSize", "insertSpaces", "trimTrailingWhitespace", "insertFinalNewline", "trimFinalNewlines"]

/-- A formatting option without a type of its own. -/
def formattingProperty? (value : Json) : Option Unit :=
  -- It is a truth value, a number or a text.
  (value.asBool?.map fun _ => ()).orElse fun _ => progressToken? value

/-- The options of a formatting request. -/
def formattingOptions? (value : Json) : Option Unit := do
  -- They are checked and not used.
  let field ← value.members?
  let _ ← Json.required? Json.asNat32? (field "tabSize")
  let _ ← Json.required? Json.asBool? (field "insertSpaces")
  let _ ← Json.optional? Json.asBool? (field "trimTrailingWhitespace")
  let _ ← Json.optional? Json.asBool? (field "insertFinalNewline")
  let _ ← Json.optional? Json.asBool? (field "trimFinalNewlines")
  match value with
  | .object members =>
    (members.filter fun member => !formattingOptionNames.contains member.1).forM fun member =>
      formattingProperty? member.2
  | _ => return ()

/-- The document to format. -/
def formatting? (value : Json) : Option Uri := do
  -- The options must be given.
  let field ← value.members?
  let uri ← Json.required? documentUri? (field "textDocument")
  let _ ← Json.required? formattingOptions? (field "options")
  let _ ← tokens? field ["workDoneToken"]
  return uri

/-- The request that is to be cancelled. -/
def cancel? (value : Json) : Option RequestId := do
  -- Requests are cancelled by name.
  let field ← value.record? ["id"]
  Json.required? RequestId.ofJson? (field "id")

end LanguageServer.Params
