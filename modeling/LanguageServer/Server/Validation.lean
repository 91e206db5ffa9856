import LanguageServer.Server.Event

/-! Validations: settings first, then the compiler, then a look whether the result still counts. -/

namespace LanguageServer.Server

/-- A validation that knows its settings and calls the compiler. -/
def compile (server : Server) (validation : Validation) (settings : Settings) : Step :=
  -- The compiler gets the text that the document had when the validation was started.
  (server.setPhase validation.id (.compiling settings),
    [.invoke (.validation validation.id) server.mode validation.document.text])

/-- A validation that looks for its settings. -/
def lookUp (server : Server) (validation : Validation) : Step :=
  -- A fetch that is under way for an open document is shared.
  let uri := validation.document.uri
  let fetch := server.nextFetch uri
  let found := server.session.settingsFor uri (some (.asked fetch))
  let server := { server with session := found.session }
  match found.obtained with
  | none => (server, [])
  | some (.known settings) | some (.fetched (.answered settings)) =>
    server.compile validation settings
  | some (.fetched (.asked fetch)) =>
    let waiting := server.setPhase validation.id (.awaiting fetch)
    if found.started then
      ({ waiting with asked := waiting.asked.insert uri (fetch.number + 1) },
        [.askSettings fetch])
    else (waiting, [])

/-- The server after a validation was started. -/
def validationStarted (server : Server) (id : ValidationId) : Step :=
  -- A validation is started once.
  match server.validation? id with
  | some validation =>
    match validation.phase with
    | .scheduled => server.lookUp validation
    | _ => (server, [])
  | none => (server, [])

/-- The settings in an answer to a settings request. -/
def settingsOfAnswer : Option (List Json) → Logged Settings
  -- The request has one item, so that only the first value counts.
  | some values => Settings.ofValue values.head?
  | none => ⟨{}, [.settingsNotFetched]⟩

/-- An entry of the settings cache once a request was answered. -/
def SettingsEntry.settle (fetch : FetchId) (settings : Settings) : SettingsEntry → SettingsEntry
  -- Only entries that wait for this request are settled.
  | .asked other => if other = fetch then .answered settings else .asked other
  | .answered held => .answered held

/-- A validation's phase once a request was answered. -/
def settlePhase (fetch : FetchId) (settings : Settings) : Phase → Phase
  -- Only validations that wait for this request can go on.
  | .awaiting other => if other = fetch then .configured settings else .awaiting other
  | phase => phase

/-- The server after the client has answered a settings request or failed to. -/
def settingsAnswered (server : Server) (fetch : FetchId) (values : Option (List Json)) : Step :=
  -- An answer that nobody waits for is dropped.
  if server.validations.any fun validation => validation.phase = .awaiting fetch then
    let settings := settingsOfAnswer values
    let cache := server.session.settings
    let fetched := cache.fetched.map (SettingsEntry.settle fetch settings.value)
    ({ server with
        session := server.session.withSettings { cache with fetched }
        validations := server.validations.map fun validation =>
          { validation with phase := settlePhase fetch settings.value validation.phase } },
      notes settings.notices)
  else (server, [])

/-- The server after a validation went on with its settings. -/
def validationResumed (server : Server) (id : ValidationId) : Step :=
  -- It must have its settings.
  match server.validation? id with
  | some validation =>
    match validation.phase with
    | .configured settings => server.compile validation settings
    | _ => (server, [])
  | none => (server, [])

/-- The diagnostics for an output of the compiler, as many as the settings allow. -/
def diagnosticsFor (settings : Settings) (output : String) : Logged (List Diagnostic) :=
  -- An output calls for at most one diagnostic.
  let diagnosed := diagnose output
  ⟨diagnosed.value.toList.take settings.maxProblems, diagnosed.notices⟩

/-- What a validation does with the compiler's output. -/
def conclude (server : Server) (document : Document) (settings : Settings) (output : String) :
    List Output :=
  -- The result counts only for the same open at the same version.
  let found := diagnosticsFor settings output
  let uri := document.uri
  if server.session.documents.holds uri document.generation document.version then
    notes (found.notices ++ [.diagnosticsPublished found.value.length uri document.version]) ++
      [.send (.diagnostics uri found.value (some document.version))]
  else notes (found.notices ++ [.diagnosticsStale uri document.version document.generation])

/-- The server after the compiler has run for a validation. -/
def validationAnswered (server : Server) (id : ValidationId)
    (answer : Except InvocationError String) : Step :=
  -- The validation ends in any case.
  match server.validation? id with
  | some validation =>
    match validation.phase with
    | .compiling settings =>
      let document := validation.document
      (server.dropValidation id, match answer with
        | .ok output => server.conclude document settings output
        | .error error => notes [.validationDropped document.uri document.version error])
    | _ => (server, [])
  | none => (server, [])

/-- The server with a validation of every open document. -/
def scheduleAll (server : Server) : Step :=
  -- Every document is validated as it is now.
  let documents := server.session.documents.all
  (documents.foldl schedule server, notes [.revalidating documents.length])

end LanguageServer.Server
