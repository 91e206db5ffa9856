import LanguageServer.Proofs.Server.Fetch
import LanguageServer.Proofs.Server.Settings

/-! Seen from one document, the server is a machine of its own, whatever other documents do. -/

namespace LanguageServer

/-- What the client has said about a document, without the number of its open. -/
structure Content where
  languageId : String
  version : Int
  text : String
  deriving DecidableEq, Repr

/-- The content of a document. -/
def Document.content (document : Document) : Content :=
  -- Its address is known from where it is held.
  ⟨document.languageId, document.version, document.text⟩

/-- A content after edits in the given order, at a new version. -/
def Content.edit (content : Content) (version : Int) (changes : List Change) : Content :=
  -- Each range is counted in the text that the edits before it left.
  { content with version, text := changes.foldl Change.apply content.text }

/-- A validation in flight, without the number of an open. -/
structure Glimpse where
  id : ValidationId
  content : Content
  /-- Whether the document is still in the open for which the validation was scheduled. -/
  current : Bool
  phase : Phase
  deriving DecidableEq, Repr

/-- A validation beside the document that is held for its address. -/
def Validation.glimpse (held : Option Document) (validation : Validation) : Glimpse :=
  -- Numbers of opens are compared and then forgotten.
  ⟨validation.id, validation.document.content,
    held.any fun document => document.generation = validation.document.generation,
    validation.phase⟩

/-- A validation is seen in its own phase. -/
@[simp] theorem Validation.phase_glimpse (held : Option Document) (validation : Validation) :
    (validation.glimpse held).phase = validation.phase := rfl

/-- The validations of one document among others, beside the document that is held. -/
def glimpses (held : Option Document) (uri : Uri) (validations : List Validation) : List Glimpse :=
  -- Their order is kept.
  (validations.filter fun validation => validation.id.uri = uri).map (Validation.glimpse held)

/-- All of a server that matters for one document. -/
structure Facet where
  uri : Uri
  mode : Mode
  negotiated : Option Capabilities
  shared : Settings
  registrations : Nat
  stored : Option Content
  kept : Option SettingsEntry
  /-- The number of validations started so far. -/
  started : Nat
  /-- The number of settings requests made so far. -/
  asked : Nat
  validations : List Glimpse
  deriving DecidableEq, Repr

namespace Facet

/-- Whether the client can be asked for settings. -/
def capable (facet : Facet) : Bool :=
  -- The least is assumed of an unknown client.
  (facet.negotiated.getD {}).configuration

/-- The validation in flight under an identity. -/
def validation? (facet : Facet) (id : ValidationId) : Option Glimpse :=
  -- Validations of other documents are not found.
  facet.validations.find? fun validation => validation.id = id

/-- The facet with a validation in another phase. -/
def setPhase (facet : Facet) (id : ValidationId) (phase : Phase) : Facet :=
  -- Other validations stay as they are.
  { facet with validations := facet.validations.map fun validation =>
      if validation.id = id then { validation with phase } else validation }

/-- The facet without a validation. -/
def dropValidation (facet : Facet) (id : ValidationId) : Facet :=
  -- Other validations keep their order.
  { facet with validations := facet.validations.filter fun validation => validation.id ≠ id }

/-- The facet with a new validation of the document as it is now. -/
def schedule (facet : Facet) : Facet :=
  -- There is nothing to validate while the document is not open.
  match facet.stored with
  | none => facet
  | some content =>
    { facet with
      validations := facet.validations ++
        [⟨⟨facet.uri, facet.started⟩, content, true, .scheduled⟩]
      started := facet.started + 1 }

/-- The facet after the end of an open, with another content or none. -/
def renew (facet : Facet) (stored : Option Content) : Facet :=
  -- No validation in flight was scheduled for what comes now.
  { facet with
    stored
    validations := facet.validations.map fun validation => { validation with current := false } }

/-- The facet after edits of the document in the given order, if it is open. -/
def edit (facet : Facet) (version : Int) (changes : List Change) : Facet :=
  -- It stays in the same open.
  { facet with stored := facet.stored.map fun content => content.edit version changes }

/-- The facet after the document was closed. -/
def close (facet : Facet) : Facet :=
  -- Settings go together with their document.
  { facet.renew none with kept := none }

/-- The facet after the client's configuration has changed. -/
def reconfigure (facet : Facet) (settings : Option Json) : Facet :=
  -- Settings are fetched again, or are those that came with the message.
  if facet.capable then { facet with kept := none }
  else { facet with shared := (Settings.ofValue settings).value }

/-- A validation that knows its settings and calls the compiler. -/
def compile (facet : Facet) (validation : Glimpse) (settings : Settings) : Facet × List Output :=
  -- The compiler gets the text that the document had when the validation was started.
  (facet.setPhase validation.id (.compiling settings),
    [.invoke (.validation validation.id) facet.mode validation.content.text])

/-- A validation that looks for its settings. -/
def lookUp (facet : Facet) (validation : Glimpse) : Facet × List Output :=
  -- A request that is under way for an open document is shared.
  let fetch : FetchId := ⟨facet.uri, facet.asked⟩
  let asking := { facet.setPhase validation.id (.awaiting fetch) with asked := facet.asked + 1 }
  if facet.capable then
    match facet.stored, facet.kept with
    | none, _ => (asking, [.askSettings fetch])
    | some _, none => ({ asking with kept := some (.asked fetch) }, [.askSettings fetch])
    | some _, some (.asked other) => (facet.setPhase validation.id (.awaiting other), [])
    | some _, some (.answered settings) => facet.compile validation settings
  else facet.compile validation facet.shared

/-- The facet after the client has answered a settings request that somebody waits for. -/
def settle (facet : Facet) (fetch : FetchId) (settings : Settings) : Facet :=
  -- The settings are kept, if anything is, and reach all who wait for them.
  { facet with
    kept := facet.kept.map (Server.SettingsEntry.settle fetch settings)
    validations := facet.validations.map fun validation =>
      { validation with phase := Server.settlePhase fetch settings validation.phase } }

/-- What a validation tells the client of the compiler's output. -/
def conclude (facet : Facet) (validation : Glimpse) (settings : Settings) (output : String) :
    List Output :=
  -- The result counts only for the same open at the same version.
  let version := validation.content.version
  if validation.current && facet.stored.any (fun content => content.version = version) then
    [.send (.diagnostics facet.uri (Server.diagnosticsFor settings output).value (some version))]
  else []

/-- The facet after an event, with what the server does for the document. -/
def step (facet : Facet) : Event → Facet × List Output
  -- An event about another document changes nothing.
  | .handshake _ capabilities =>
    ({ facet with negotiated := facet.negotiated.or (some capabilities) }, [])
  | .ready =>
    (if facet.capable then { facet with registrations := facet.registrations + 1 } else facet, [])
  | .registrationAnswered _ => ({ facet with registrations := facet.registrations - 1 }, [])
  | .documentOpened uri languageId version text =>
    (if uri = facet.uri then (facet.renew (some ⟨languageId, version, text⟩)).schedule else facet,
      [])
  | .documentChanged uri version changes =>
    (if uri = facet.uri then (facet.edit version changes).schedule else facet, [])
  | .documentClosed uri =>
    if uri = facet.uri then (facet.close, [.send (.diagnostics uri [] none)]) else (facet, [])
  | .shutdownAsked _ => (facet.close, [])
  | .configurationChanged settings => ((facet.reconfigure settings).schedule, [])
  | .formattingAsked request uri =>
    (facet, if uri = facet.uri then
        facet.stored.toList.map fun content => .invoke (.formatting request) .print content.text
      else [])
  | .validationStarted id =>
    match facet.validation? id with
    | some validation =>
      match validation.phase with
      | .scheduled => facet.lookUp validation
      | _ => (facet, [])
    | none => (facet, [])
  | .settingsAnswered fetch values =>
    (if facet.validations.any fun validation => validation.phase = .awaiting fetch then
        facet.settle fetch (Server.settingsOfAnswer values).value
      else facet, [])
  | .validationResumed id =>
    match facet.validation? id with
    | some validation =>
      match validation.phase with
      | .configured settings => facet.compile validation settings
      | _ => (facet, [])
    | none => (facet, [])
  | .compilerAnswered (.validation id) answer =>
    match facet.validation? id with
    | some validation =>
      match validation.phase with
      | .compiling settings =>
        (facet.dropValidation id, match answer with
          | .ok output => facet.conclude validation settings output
          | .error _ => [])
      | _ => (facet, [])
    | none => (facet, [])
  | _ => (facet, [])

end Facet

/-- Whether an event asks for a document to be formatted. -/
def Event.formats (uri : Uri) : Event → Bool
  -- The answer to such a request does not name the document.
  | .formattingAsked _ other => other = uri
  | _ => false

/-- Whether what the server does at an event is about a document. -/
def Output.about (uri : Uri) (event : Event) : Output → Bool
  -- What goes to the log or answers a request of the client is left aside.
  | .send (.diagnostics other _ _) => other = uri
  | .askSettings fetch => fetch.uri = uri
  | .invoke (.validation id) _ _ => id.uri = uri
  | .invoke (.formatting _) _ _ => event.formats uri
  | _ => false

/-- Notices are about no document. -/
@[simp] theorem filter_about_notes (uri : Uri) (event : Event) (notices : List Notice) :
    (notes notices).filter (Output.about uri event) = [] := by
  -- They go to the log.
  simp [notes, Output.about]

section Glimpses

variable {held : Option Document} {uri : Uri}

/-- A validation of the document is seen under its own identity. -/
theorem find?_glimpses (held : Option Document) (uri : Uri) (validations : List Validation)
    (id : ValidationId) :
    (glimpses held uri validations).find? (fun validation => validation.id = id) =
      if id.uri = uri then
        (validations.find? fun validation => validation.id = id).map (Validation.glimpse held)
      else none := by
  -- A validation of another document is passed over.
  rw [glimpses, List.find?_map, List.find?_filter]
  split
  · rename_i own
    refine congrArg (Option.map _) ?_
    refine congrArg (List.find? · validations) (funext fun validation => ?_)
    by_cases same : validation.id = id
    · simp [Validation.glimpse, same, own]
    · simp [Validation.glimpse, same]
  · rename_i other
    refine Option.map_eq_none_iff.mpr (List.find?_eq_none.mpr fun validation _ => ?_)
    by_cases same : validation.id = id
    · simp [same, other]
    · simp [Validation.glimpse, same]

/-- A change of single validations is seen in those of the document. -/
theorem glimpses_map (held : Option Document) (uri : Uri) (change : Validation → Validation)
    (seen : Glimpse → Glimpse)
    (same : ∀ validation, (change validation).id = validation.id)
    (shown : ∀ validation, (change validation).glimpse held = seen (validation.glimpse held))
    (validations : List Validation) :
    glimpses held uri (validations.map change) = (glimpses held uri validations).map seen := by
  -- No validation goes over to another document.
  have stays : ((fun validation : Validation => decide (validation.id.uri = uri)) ∘ change) =
      fun validation => decide (validation.id.uri = uri) := by
    funext validation
    rw [Function.comp_apply, same]
  rw [glimpses, glimpses, List.filter_map, stays, List.map_map, List.map_map]
  exact List.map_congr_left fun validation _ => shown validation

/-- A validation that ends is no longer seen. -/
theorem glimpses_filter (id : ValidationId) (validations : List Validation) :
    glimpses held uri (validations.filter fun validation => validation.id ≠ id) =
      (glimpses held uri validations).filter fun validation => validation.id ≠ id := by
  -- Validations are left out for their identities.
  rw [glimpses, glimpses, List.filter_map, List.filter_filter, List.filter_filter]
  refine congrArg _ (List.filter_congr fun validation _ => ?_)
  exact Bool.and_comm _ _

/-- Beside another document of the same open the validations look the same. -/
theorem glimpses_congr (uri : Uri) {other : Option Document}
    (same : ∀ generation : Nat, other.any (fun document => document.generation = generation) =
      held.any (fun document => document.generation = generation))
    (validations : List Validation) :
    glimpses other uri validations = glimpses held uri validations := by
  -- Only the number of the open is compared.
  refine List.map_congr_left fun validation _ => ?_
  rw [Validation.glimpse, Validation.glimpse, same]

/-- Beside a document of an open that is none of theirs the validations are out of date. -/
theorem glimpses_of_apart (held : Option Document) {uri : Uri} {validations : List Validation}
    {other : Option Document}
    (apart : ∀ validation ∈ validations, ∀ document ∈ other,
      document.generation ≠ validation.document.generation) :
    glimpses other uri validations = (glimpses held uri validations).map fun validation =>
      { validation with current := false } := by
  -- Nothing else depends on the document.
  rw [glimpses, glimpses, List.map_map]
  refine List.map_congr_left fun validation member => ?_
  have ended : other.any (fun document =>
      document.generation = validation.document.generation) = false := by
    cases other with
    | none => rfl
    | some document =>
      simpa using apart validation (List.mem_of_mem_filter member) document rfl
  rw [Validation.glimpse, ended]
  rfl

/-- The validations that are seen are those of the document. -/
theorem mem_glimpses {validations : List Validation} {glimpse : Glimpse} :
    glimpse ∈ glimpses held uri validations ↔
      ∃ validation ∈ validations, validation.id.uri = uri ∧ validation.glimpse held = glimpse := by
  -- Others are left out.
  simp [glimpses, and_assoc]

end Glimpses

namespace Server

/-- The server as far as one document is concerned. -/
def facet (server : Server) (uri : Uri) : Facet where
  -- Of the documents and of what is counted, only the document's own share is taken.
  uri
  mode := server.mode
  negotiated := server.session.negotiated
  shared := server.session.settings.shared
  registrations := server.registrations
  stored := (server.session.documents.find? uri).map Document.content
  kept := server.kept? uri
  started := server.startedFor uri
  asked := (server.asked.find? uri).getD 0
  validations := glimpses (server.session.documents.find? uri) uri server.validations

variable {server : Server} {uri : Uri}

/-- The facet of a document names it. -/
@[simp] theorem facet_uri (server : Server) (uri : Uri) : (server.facet uri).uri = uri := rfl

/-- A new phase of a validation is seen if the validation is one of the document. -/
@[simp] theorem facet_setPhase (server : Server) (id : ValidationId) (phase : Phase) (uri : Uri) :
    (server.setPhase id phase).facet uri = (server.facet uri).setPhase id phase := by
  -- Nothing else changes.
  refine congrArg (fun validations => { server.facet uri with validations })
    (glimpses_map _ uri
      (fun validation => if validation.id = id then { validation with phase } else validation)
      (fun validation => if validation.id = id then { validation with phase } else validation)
      (fun validation => ?_) (fun validation => ?_) server.validations)
  · split
    · rfl
    · rfl
  · by_cases same : validation.id = id
    · simp [Validation.glimpse, same]
    · simp [Validation.glimpse, same]

/-- The end of a validation is seen if the validation is one of the document. -/
@[simp] theorem facet_dropValidation (server : Server) (id : ValidationId) (uri : Uri) :
    (server.dropValidation id).facet uri = (server.facet uri).dropValidation id :=
  -- Nothing else changes.
  congrArg (fun validations => { server.facet uri with validations })
    (glimpses_filter id server.validations)

/-- A validation of the document is found from the document's side, and no other is. -/
theorem facet_validation? (server : Server) (uri : Uri) (id : ValidationId) :
    (server.facet uri).validation? id =
      if id.uri = uri then (server.validation? id).map
        (Validation.glimpse (server.session.documents.find? uri))
      else none :=
  -- The search is for an identity on both sides.
  find?_glimpses _ uri server.validations id

/-- A validation of a held document has the content that is stored, in the open under way. -/
theorem facet_schedule_own (server : Server) (document : Document)
    (held : server.session.documents.find? document.uri = some document) :
    (server.schedule document).facet document.uri = (server.facet document.uri).schedule := by
  -- It is the next one of its document.
  simp [facet, schedule, Facet.schedule, held, startedFor, kept?, glimpses, Validation.glimpse]

/-- A validation of another document is not seen. -/
theorem facet_schedule_elsewhere {document : Document} (apart : document.uri ≠ uri) :
    (server.schedule document).facet uri = server.facet uri := by
  -- Validations are numbered for each document.
  simp [facet, schedule, startedFor, kept?, glimpses, apart, Ne.symm apart]

/-- Validations of held documents are seen from the side of each of them. -/
theorem facet_foldl_schedule {documents : List Document} {server : Server}
    (held : ∀ document ∈ documents,
      server.session.documents.find? document.uri = some document) (uri : Uri) :
    (documents.foldl schedule server).facet uri =
      (documents.filter fun document => document.uri = uri).foldl
        (fun facet _ => facet.schedule) (server.facet uri) := by
  -- They are scheduled one after another in the same store.
  induction documents generalizing server with
  | nil => rfl
  | cons document rest ih =>
    have later : ∀ other ∈ rest,
        (server.schedule document).session.documents.find? other.uri = some other :=
      fun other member => held other (List.mem_cons_of_mem _ member)
    rw [List.foldl_cons, ih later]
    by_cases same : document.uri = uri
    · subst same
      rw [facet_schedule_own _ _ (held document (by simp)), List.filter_cons_of_pos (by simp),
        List.foldl_cons]
    · rw [facet_schedule_elsewhere same, List.filter_cons_of_neg (by simpa using same)]

/-- A validation of every document is one of each of them. -/
theorem facet_scheduleAll (server : Server) (store : server.session.documents.Sound) (uri : Uri) :
    server.scheduleAll.1.facet uri = (server.facet uri).schedule := by
  -- The store lists the document once if it is open.
  rw [scheduleAll, facet_foldl_schedule fun _ => store.mem_all.mp, store.filter_all]
  cases held : server.session.documents.find? uri with
  | none => simp [Facet.schedule, facet, held]
  | some document => rfl

/-- A session in which the document is in the same open is seen by what it says of the document. -/
theorem facet_withSession {session : Session SettingsEntry}
    (same : ∀ generation : Nat,
      (session.documents.find? uri).any (fun document => document.generation = generation) =
        (server.session.documents.find? uri).any fun document =>
          document.generation = generation) :
    ({ server with session } : Server).facet uri =
      { server.facet uri with
        negotiated := session.negotiated
        shared := session.settings.shared
        stored := (session.documents.find? uri).map Document.content
        kept := session.settings.fetched.find? uri } := by
  -- The validations in flight belong to the same opens.
  have validations := glimpses_congr uri same server.validations
  simp only [facet, validations]
  rfl

/-- A session in which the document is in a new open or in none puts validations out of date. -/
theorem facet_renewed {session : Session SettingsEntry}
    (apart : ∀ validation ∈ server.validations, ∀ document ∈ session.documents.find? uri,
      document.generation ≠ validation.document.generation) :
    ({ server with session } : Server).facet uri =
      { (server.facet uri).renew ((session.documents.find? uri).map Document.content) with
        negotiated := session.negotiated
        shared := session.settings.shared
        kept := session.settings.fetched.find? uri } := by
  -- Their snapshots were taken before.
  simp only [facet, glimpses_of_apart (server.session.documents.find? uri) apart]
  rfl

/-- A session that says the same of the document shows the same. -/
theorem facet_unseen {session : Session SettingsEntry}
    (negotiated : session.negotiated = server.session.negotiated)
    (shared : session.settings.shared = server.session.settings.shared)
    (documents : session.documents.find? uri = server.session.documents.find? uri)
    (kept : session.settings.fetched.find? uri = server.session.settings.fetched.find? uri) :
    ({ server with session } : Server).facet uri = server.facet uri := by
  -- The document is in the same open.
  rw [facet_withSession fun _ => by rw [documents], negotiated, shared, documents, kept]
  rfl

end Server

end LanguageServer
