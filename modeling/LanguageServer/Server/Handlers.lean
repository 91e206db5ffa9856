import LanguageServer.Server.Validation

/-! What the server does with each message, and its step on every event. -/

namespace LanguageServer.Server

/-- The client introduces itself and learns the server's features. -/
def handshake (server : Server) (request : RequestId) (capabilities : Capabilities) : Step :=
  -- Only the first introduction fixes the client's features.
  let negotiated := server.session.negotiate capabilities
  ({ server with session := negotiated.value.1 },
    notes (negotiated.notices ++ [.negotiated capabilities]) ++
      [.send (.log .info "LSP server initializing"), .respond request (.features capabilities)])

/-- The last word of the introduction. -/
def greeting : Output := .send (.log .info "LSP server initialized")

/-- The client is ready for requests of the server. -/
def ready (server : Server) : Step :=
  -- A client with a configuration is asked to tell when it changes.
  if server.session.capabilities.configuration then
    ({ server with registrations := server.registrations + 1 }, [.askRegistration])
  else (server, [greeting])

/-- The client has answered a registration or failed to. -/
def registrationAnswered (server : Server) (accepted : Bool) : Step :=
  -- A failure is noted and changes nothing.
  if server.registrations = 0 then (server, [])
  else ({ server with registrations := server.registrations - 1 },
    (if accepted then [] else notes [.registrationFailed]) ++ [greeting])

/-- The client asks for the end of the session. -/
def shutdownAsked (server : Server) (request : RequestId) : Step :=
  -- Validations in flight go on and find their documents gone.
  let ended := server.session.discard
  ({ server with session := ended.value },
    .send (.log .info "LSP server shutting down") :: notes ended.notices ++
      [.respond request .nothing])

/-- A document was opened. -/
def documentOpened (server : Server) (uri : Uri) (languageId : String) (version : Int)
    (text : String) : Step :=
  -- The document is validated at once.
  let documents := server.session.documents
  let document := documents.incoming uri languageId version text
  let session := server.session.withDocuments (documents.add uri languageId version text)
  (({ server with session } : Server).schedule document,
    [.send (.log .log ("Document opened: " ++ uri.text))])

/-- A document was edited. -/
def documentChanged (server : Server) (uri : Uri) (version : Int) (changes : List Change) : Step :=
  -- Only an open document can be validated.
  let changed := server.session.documents.change uri version changes
  let server := { server with session := server.session.withDocuments changed.value.1 }
  match changed.value.2 with
  | some document => (server.schedule document, notes changed.notices)
  | none => (server, notes changed.notices)

/-- A document was closed. -/
def documentClosed (server : Server) (uri : Uri) : Step :=
  -- The client is told to forget the diagnostics in any case.
  let unknown := if (server.session.documents.find? uri).isNone then [.closeOfUnknown uri] else []
  ({ server with session := server.session.close uri },
    notes unknown ++ [.send (.diagnostics uri [] none)])

/-- The client's configuration has changed. -/
def configurationChanged (server : Server) (section_ : Option Json) : Step :=
  -- Settings are fetched again, or are those that came with the message.
  let cache := server.session.settings
  let changed : Logged (SettingsCache SettingsEntry) :=
    if server.session.capabilities.configuration then ⟨cache.clear, []⟩
    else
      let settings := Settings.ofValue section_
      ⟨cache.setShared settings.value, settings.notices⟩
  let (server, outputs) :=
    ({ server with session := server.session.withSettings changed.value } : Server).scheduleAll
  (server, notes changed.notices ++ outputs)

/-- The client's workspace folders have changed. -/
def foldersChanged (server : Server) : Step :=
  -- Clients without such folders should not send this.
  if server.session.capabilities.workspaceFolders then
    (server, [.send (.log .log "Workspace folder change event received.")])
  else (server, [])

/-- Files that the client watches have changed. -/
def filesChanged (server : Server) (count : Nat) : Step :=
  -- Nothing but their number is told.
  (server, [.send (.log .log ("Received " ++ toString count ++ " file change events"))])

/-- The client asks for a document to be formatted. -/
def formattingAsked (server : Server) (request : RequestId) (uri : Uri) : Step :=
  -- The text is taken as it is now, whatever happens to the document later.
  match server.session.documents.find? uri with
  | none => (server, [.note (.formattingOfUnknown uri), .respond request .nothing])
  | some document =>
    ({ server with formattings := server.formattings ++ [⟨request, document.text⟩] },
      [.invoke (.formatting request) .print document.text])

/-- The compiler has run for a formatting request. -/
def formattingAnswered (server : Server) (request : RequestId)
    (answer : Except InvocationError String) : Step :=
  -- The request is answered in any case.
  match server.formatting? request with
  | some formatting =>
    let edits := formatAnswer formatting.text answer
    (server.dropFormatting request, notes edits.notices ++ [.respond request (.edits edits.value)])
  | none => (server, [])

/-- The server after an event, with what it does. -/
def step (server : Server) : Event → Step
  -- An event for which nothing is in flight changes nothing.
  | .handshake request capabilities => server.handshake request capabilities
  | .ready => server.ready
  | .documentOpened uri languageId version text =>
    server.documentOpened uri languageId version text
  | .documentChanged uri version changes => server.documentChanged uri version changes
  | .documentClosed uri => server.documentClosed uri
  | .configurationChanged settings => server.configurationChanged settings
  | .foldersChanged => server.foldersChanged
  | .filesChanged count => server.filesChanged count
  | .completionAsked request => (server, [.respond request (.completions keywordItems)])
  | .resolutionAsked request item => (server, [.respond request (.item item)])
  | .formattingAsked request uri => server.formattingAsked request uri
  | .shutdownAsked request => server.shutdownAsked request
  | .validationStarted id => server.validationStarted id
  | .settingsAnswered fetch values => server.settingsAnswered fetch values
  | .validationResumed id => server.validationResumed id
  | .compilerAnswered (.validation id) answer => server.validationAnswered id answer
  | .compilerAnswered (.formatting request) answer => server.formattingAnswered request answer
  | .registrationAnswered accepted => server.registrationAnswered accepted

/-- The server after events in order, with all that it did. -/
def run (server : Server) : List Event → Step
  -- Each event finds the server as the one before it left it.
  | [] => (server, [])
  | event :: rest =>
    let (next, outputs) := server.step event
    let (last, more) := run next rest
    (last, outputs ++ more)

end LanguageServer.Server
