import Mathlib.Data.List.Nodup
import LanguageServer.Proofs.Document.Store
import LanguageServer.Proofs.Server.Run

/-! What one event can do to the documents, to the validations and to what is published. -/

namespace LanguageServer.Server

/-- No two validations in flight have the same identity. -/
def Distinct (server : Server) : Prop :=
  -- So a validation is found by its identity.
  (server.validations.map Validation.id).Nodup

/-- A validation that is found is in flight under the identity that was asked for. -/
theorem validation?_some {server : Server} {id : ValidationId} {validation : Validation}
    (found : server.validation? id = some validation) :
    validation ∈ server.validations ∧ validation.id = id := by
  -- The search returns a member that passes its test.
  exact ⟨List.mem_of_find?_eq_some found, by simpa using List.find?_some found⟩

/-- Validations with one identity are one validation. -/
theorem Distinct.eq {server : Server} (distinct : server.Distinct) {first second : Validation}
    (inFlight : first ∈ server.validations) (alsoInFlight : second ∈ server.validations)
    (same : first.id = second.id) : first = second :=
  -- The list of identities holds none of them twice.
  List.inj_on_of_nodup_map distinct inFlight alsoInFlight same

/-- A validation in flight is found by its identity. -/
theorem Distinct.validation?_eq {server : Server} (distinct : server.Distinct)
    {validation : Validation} (inFlight : validation ∈ server.validations) :
    server.validation? validation.id = some validation := by
  -- The search finds some validation of this identity, and there is only one.
  cases found : server.validation? validation.id with
  | none =>
    have missing := List.find?_eq_none.mp found validation inFlight
    simp at missing
  | some other =>
    obtain ⟨otherInFlight, same⟩ := validation?_some found
    rw [distinct.eq otherInFlight inFlight same]

/-- The validations and their numbers are as they were. -/
structure Keeps (server next : Server) : Prop where
  validations : next.validations = server.validations
  started : next.started = server.started

/-- The store of documents after an event. -/
def follow (store : DocumentStore) : Event → DocumentStore
  -- Only what the client says about its documents and the end of the session change it.
  | .documentOpened uri languageId version text => store.add uri languageId version text
  | .documentChanged uri version changes => (store.change uri version changes).value.1
  | .documentClosed uri => store.remove uri
  | .shutdownAsked _ => store.clear
  | _ => store

/-- The formatting requests in flight after an event. -/
def formattingsAfter (server : Server) : Event → List Formatting
  -- Only such requests and their answers change them.
  | .formattingAsked request uri => server.formattings ++
    ((server.session.documents.find? uri).map Document.text).toList.map (Formatting.mk request)
  | .compilerAnswered (.formatting request) _ =>
    server.formattings.filter fun formatting => formatting.request ≠ request
  | _ => server.formattings

/-- What an event can do to the validations in flight, with the outputs that tell of it. -/
inductive Effect (server : Server) : Event → Server → List Output → Prop where
  /-- The validations stay as they are. -/
  | idle {event : Event} {next : Server} {outputs : List Output} (keeps : server.Keeps next)
      (quiet : Quiet outputs) : Effect server event next outputs
  /-- Validations are scheduled of documents as the event leaves them in the store. -/
  | scheduled {event : Event} {base : Server} {outputs : List Output} (documents : List Document)
      (held : ∀ document ∈ documents,
        (follow server.session.documents event).find? document.uri = some document)
      (keeps : server.Keeps base) (quiet : Quiet outputs) :
      Effect server event (documents.foldl schedule base) outputs
  /-- The client is told to forget the diagnostics of a closed document. -/
  | closed {uri : Uri} {next : Server} {outputs : List Output} (keeps : server.Keeps next)
      (told : ∀ other, published other outputs = if other = uri then [([], none)] else [])
      (uncalled : ∀ id, invocations id outputs = []) :
      Effect server (.documentClosed uri) next outputs
  /-- Validations come closer to their settings without calling the compiler. -/
  | rephased {event : Event} {next : Server} {outputs : List Output} (change : Validation → Phase)
      (validations : next.validations = server.validations.map fun validation =>
        { validation with phase := change validation })
      (same : ∀ validation ∈ server.validations, ∀ settings,
        change validation = .compiling settings ↔ validation.phase = .compiling settings)
      (started : next.started = server.started) (quiet : Quiet outputs) :
      Effect server event next outputs
  /-- A validation has its settings and calls the compiler. -/
  | called {event : Event} {id : ValidationId} {validation : Validation} {settings : Settings}
      {next : Server} (found : server.validation? id = some validation)
      (waiting : ∀ settings, validation.phase ≠ .compiling settings)
      (validations : next.validations = (server.setPhase id (.compiling settings)).validations)
      (started : next.started = server.started) :
      Effect server event next
        [.invoke (.validation id) server.mode validation.document.text]
  /-- A validation ends and its result is published. -/
  | concluded {id : ValidationId} {output : String} {validation : Validation}
      {settings : Settings} {outputs : List Output}
      (found : server.validation? id = some validation)
      (compiling : validation.phase = .compiling settings)
      (current : server.session.documents.holds validation.document.uri
        validation.document.generation validation.document.version = true)
      (told : ∀ uri, published uri outputs = if uri = validation.document.uri then
        [((diagnose output).value.toList.take settings.maxProblems,
          some validation.document.version)] else [])
      (uncalled : ∀ id, invocations id outputs = []) :
      Effect server (.compilerAnswered (.validation id) (.ok output))
        (server.dropValidation id) outputs
  /-- A validation ends without a result that counts. -/
  | dropped {id : ValidationId} {answer : Except InvocationError String}
      {validation : Validation} {settings : Settings} {outputs : List Output}
      (found : server.validation? id = some validation)
      (compiling : validation.phase = .compiling settings) (quiet : Quiet outputs) :
      Effect server (.compilerAnswered (.validation id) answer) (server.dropValidation id) outputs

variable {server : Server} {id : ValidationId} {validation : Validation}

/-- Setting a phase that is not the compiler's moves a validation that has not called it yet. -/
theorem effect_setPhase (distinct : server.Distinct)
    (found : server.validation? id = some validation)
    (waiting : ∀ settings, validation.phase ≠ .compiling settings) {phase : Phase}
    (early : ∀ settings, phase ≠ .compiling settings) {event : Event} {next : Server}
    {outputs : List Output}
    (validations : next.validations = (server.setPhase id phase).validations)
    (started : next.started = server.started) (quiet : Quiet outputs) :
    Effect server event next outputs := by
  -- The validation of this identity is the only one that changes.
  obtain ⟨inFlight, named⟩ := validation?_some found
  refine .rephased (fun other => if other.id = id then phase else other.phase) ?_ ?_ started quiet
  · rw [validations]
    refine List.map_congr_left fun other _ => ?_
    by_cases same : other.id = id
    · simp [same]
    · simp [same]
  · intro other otherInFlight settings
    by_cases same : other.id = id
    · have equal := distinct.eq otherInFlight inFlight (same.trans named.symm)
      subst equal
      simp [same, early settings, waiting settings]
    · simp [same]

/-- A validation that looks for its settings waits for them or calls the compiler. -/
theorem effect_lookUp (distinct : server.Distinct) (found : server.validation? id = some validation)
    (scheduled : validation.phase = .scheduled) (event : Event) :
    Effect server event (server.lookUp validation).1 (server.lookUp validation).2 := by
  -- The outcome depends on what the session knows about the document's settings.
  obtain ⟨inFlight, named⟩ := validation?_some found
  have waiting : ∀ settings, validation.phase ≠ .compiling settings := by simp [scheduled]
  rw [← named] at found
  unfold lookUp
  simp only
  split
  · exact .idle ⟨rfl, rfl⟩ ⟨fun _ => rfl, fun _ => rfl⟩
  · exact .called found waiting rfl rfl
  · exact .called found waiting rfl rfl
  · split
    · exact effect_setPhase distinct found waiting (by simp) rfl rfl
        ⟨fun _ => rfl, fun _ => rfl⟩
    · exact effect_setPhase distinct found waiting (by simp) rfl rfl
        ⟨fun _ => rfl, fun _ => rfl⟩

/-- An event that finds the server in no state for it changes nothing. -/
theorem effect_none (server : Server) (event : Event) : Effect server event server [] :=
  -- Nothing is told either.
  .idle ⟨rfl, rfl⟩ ⟨fun _ => rfl, fun _ => rfl⟩

/-- Validations that wait for an answer to a settings request can go on. -/
theorem effect_settingsAnswered (fetch : FetchId) (values : Option (List Json)) :
    Effect server (.settingsAnswered fetch values) (server.settingsAnswered fetch values).1
      (server.settingsAnswered fetch values).2 := by
  -- Settling a request neither brings a validation to the compiler nor takes it from there.
  unfold settingsAnswered
  split
  · refine .rephased
      (fun waiting => settlePhase fetch (settingsOfAnswer values).value waiting.phase)
      rfl ?_ rfl (quiet_notes _)
    intro waiting _ settings
    cases waiting.phase with
    | scheduled => rfl
    | configured known => rfl
    | compiling known => rfl
    | awaiting other =>
      simp only [settlePhase]
      split
      · simp
      · simp
  · exact effect_none server _

/-- A validation goes on when its settings have come. -/
theorem effect_validationResumed (event : Event) (id : ValidationId) :
    Effect server event (server.validationResumed id).1 (server.validationResumed id).2 := by
  -- Only a validation that has its settings and has not used them calls the compiler.
  unfold validationResumed
  split
  · rename_i validation found
    split
    · rename_i settings configured
      obtain ⟨-, rfl⟩ := validation?_some found
      exact .called found (by simp [configured]) rfl rfl
    · exact effect_none server event
  · exact effect_none server event

/-- The result of a validation is noted, and told to the client if it still counts. -/
theorem conclude_eq (server : Server) (document : Document) (settings : Settings)
    (output : String) :
    ∃ notices, server.conclude document settings output = notes notices ++
      if server.session.documents.holds document.uri document.generation document.version then
        [.send (.diagnostics document.uri (diagnosticsFor settings output).value
          (some document.version))]
      else [] := by
  -- The store decides whether the result counts.
  unfold conclude
  simp only
  split
  · exact ⟨_, rfl⟩
  · exact ⟨_, (List.append_nil _).symm⟩

/-- The result of a validation is published for its document, if it still counts. -/
theorem published_conclude (server : Server) (document : Document) (settings : Settings)
    (output : String) (uri : Uri) :
    published uri (server.conclude document settings output) =
      if server.session.documents.holds document.uri document.generation document.version = true ∧
          uri = document.uri then
        [((diagnose output).value.toList.take settings.maxProblems, some document.version)]
      else [] := by
  -- Nothing else is told to the client.
  obtain ⟨notices, told⟩ := conclude_eq server document settings output
  rw [told, published_append, (quiet_notes _).published, List.nil_append]
  split
  · rename_i current
    by_cases same : uri = document.uri
    · simp [published, diagnosticsFor, same, current]
    · simp [published, same, Ne.symm same]
  · rename_i stale
    rw [if_neg fun counts => stale counts.1]
    rfl

/-- The result of a validation calls for no compiler. -/
theorem invocations_conclude (server : Server) (document : Document) (settings : Settings)
    (output : String) (id : ValidationId) :
    invocations id (server.conclude document settings output) = [] := by
  -- It goes to the client and to the log.
  obtain ⟨notices, told⟩ := conclude_eq server document settings output
  rw [told, invocations_append, (quiet_notes _).invocations, List.nil_append]
  split
  · rfl
  · rfl

/-- What a validation publishes is the result for its document, if that still counts. -/
theorem effect_conclude {settings : Settings} (found : server.validation? id = some validation)
    (compiling : validation.phase = .compiling settings) (output : String) :
    Effect server (.compilerAnswered (.validation id) (.ok output)) (server.dropValidation id)
      (server.conclude validation.document settings output) := by
  -- The validation ends in both cases.
  have told := published_conclude server validation.document settings output
  have uncalled := invocations_conclude server validation.document settings output
  cases current : server.session.documents.holds validation.document.uri
      validation.document.generation validation.document.version with
  | true => exact .concluded found compiling current (by simpa [current] using told) uncalled
  | false => exact .dropped found compiling ⟨by simpa [current] using told, uncalled⟩

/-- The compiler's answer ends a validation. -/
theorem effect_validationAnswered (id : ValidationId) (answer : Except InvocationError String) :
    Effect server (.compilerAnswered (.validation id) answer)
      (server.validationAnswered id answer).1 (server.validationAnswered id answer).2 := by
  -- Only a validation that has called the compiler can be ended by it.
  unfold validationAnswered
  split
  · rename_i validation found
    split
    · rename_i settings compiling
      cases answer with
      | ok output => exact effect_conclude found compiling output
      | error error => exact .dropped found compiling (quiet_notes _)
    · exact effect_none server _
  · exact effect_none server _

/-- An open schedules a validation of the opened document. -/
theorem effect_documentOpened (uri : Uri) (languageId : String) (version : Int) (text : String) :
    Effect server (.documentOpened uri languageId version text)
      (server.documentOpened uri languageId version text).1
      (server.documentOpened uri languageId version text).2 := by
  -- The store holds that document.
  refine .scheduled [server.session.documents.incoming uri languageId version text] ?_ ⟨rfl, rfl⟩
    ⟨fun _ => rfl, fun _ => rfl⟩
  intro document listed
  rw [List.mem_singleton.mp listed]
  exact DocumentStore.find?_incoming _ _ _ _ _

/-- An edit schedules a validation of the edited document, if there is one. -/
theorem effect_documentChanged (store : server.session.documents.Sound) (uri : Uri) (version : Int)
    (changes : List Change) :
    Effect server (.documentChanged uri version changes)
      (server.documentChanged uri version changes).1
      (server.documentChanged uri version changes).2 := by
  -- The store says whether the document is open.
  unfold documentChanged
  cases found : server.session.documents.find? uri with
  | none =>
    have unchanged := DocumentStore.change_of_absent found version changes
    simp only [unchanged]
    exact .idle ⟨rfl, rfl⟩ (quiet_notes _)
  | some document =>
    have edited := DocumentStore.change_of_found found version changes
    simp only [edited]
    refine .scheduled [document.edit version changes] ?_ ⟨rfl, rfl⟩ (quiet_notes _)
    intro other listed
    rw [List.mem_singleton.mp listed]
    exact store.find?_edit found version changes

/-- A close takes the diagnostics of its document back, whether it was open or not. -/
theorem published_documentClosed (server : Server) (uri other : Uri) :
    published other (server.documentClosed uri).2 = if other = uri then [([], none)] else [] := by
  -- The rest of the outputs are notes.
  rw [documentClosed, published_append, (quiet_notes _).published, List.nil_append]
  by_cases same : other = uri
  · simp [published, same]
  · simp [published, same, Ne.symm same]

/-- A close forgets the document and its diagnostics. -/
theorem effect_documentClosed (uri : Uri) :
    Effect server (.documentClosed uri) (server.documentClosed uri).1
      (server.documentClosed uri).2 := by
  -- The compiler has no part in it.
  refine .closed ⟨rfl, rfl⟩ (published_documentClosed server uri) ?_
  intro id
  rw [documentClosed, invocations_append, (quiet_notes _).invocations, List.nil_append]
  rfl

/-- A changed configuration calls for a validation of every open document. -/
theorem effect_configurationChanged (store : server.session.documents.Sound)
    (settings : Option Json) :
    Effect server (.configurationChanged settings) (server.configurationChanged settings).1
      (server.configurationChanged settings).2 := by
  -- Only the settings cache changes before the validations are scheduled.
  unfold configurationChanged scheduleAll
  exact .scheduled server.session.documents.all (fun _ => store.mem_all.mp) ⟨rfl, rfl⟩
    ((quiet_notes _).append (quiet_notes _))

/-- Every event has one of the effects. -/
theorem step_effect (store : server.session.documents.Sound) (distinct : server.Distinct)
    (event : Event) :
    Effect server event (server.step event).1 (server.step event).2 := by
  -- Events that are not about documents or validations leave both alone.
  have log : ∀ kind text, Quiet [.send (.log kind text)] := fun _ _ => ⟨fun _ => rfl, fun _ => rfl⟩
  cases event with
  | documentOpened uri languageId version text =>
    exact effect_documentOpened uri languageId version text
  | documentChanged uri version changes => exact effect_documentChanged store uri version changes
  | documentClosed uri => exact effect_documentClosed uri
  | configurationChanged settings => exact effect_configurationChanged store settings
  | shutdownAsked request => exact .idle ⟨rfl, rfl⟩ ⟨fun _ => rfl, fun _ => rfl⟩
  | validationStarted id =>
    simp only [step, validationStarted]
    split
    · rename_i validation found
      split
      · rename_i scheduled
        exact effect_lookUp distinct found scheduled _
      · exact effect_none server _
    · exact effect_none server _
  | settingsAnswered fetch values => exact effect_settingsAnswered fetch values
  | validationResumed id => exact effect_validationResumed _ id
  | compilerAnswered caller answer =>
    cases caller with
    | validation id => exact effect_validationAnswered id answer
    | formatting request =>
      simp only [step, formattingAnswered]
      split
      · have reply : ∀ edits, Quiet [.respond request (.edits edits)] := fun _ =>
          ⟨fun _ => rfl, fun _ => rfl⟩
        exact .idle ⟨rfl, rfl⟩ ((quiet_notes _).append (reply _))
      · exact effect_none server _
  | handshake request capabilities =>
    have reply : Quiet [.send (.log .info "LSP server initializing"),
        .respond request (.features capabilities)] := ⟨fun _ => rfl, fun _ => rfl⟩
    exact .idle ⟨rfl, rfl⟩ ((quiet_notes _).append reply)
  | ready =>
    simp only [step, ready]
    split
    · exact .idle ⟨rfl, rfl⟩ ⟨fun _ => rfl, fun _ => rfl⟩
    · exact .idle ⟨rfl, rfl⟩ (log _ _)
  | registrationAnswered accepted =>
    simp only [step, registrationAnswered]
    split
    · exact effect_none server _
    · refine .idle ⟨rfl, rfl⟩ (Quiet.append ?_ (log _ _))
      split
      · exact ⟨fun _ => rfl, fun _ => rfl⟩
      · exact quiet_notes _
  | foldersChanged =>
    simp only [step, foldersChanged]
    split
    · exact .idle ⟨rfl, rfl⟩ (log _ _)
    · exact effect_none server _
  | filesChanged count => exact .idle ⟨rfl, rfl⟩ (log _ _)
  | completionAsked request =>
    exact .idle ⟨rfl, rfl⟩ ⟨fun _ => rfl, fun _ => rfl⟩
  | resolutionAsked request item =>
    exact .idle ⟨rfl, rfl⟩ ⟨fun _ => rfl, fun _ => rfl⟩
  | formattingAsked request uri =>
    simp only [step, formattingAsked]
    split
    · exact .idle ⟨rfl, rfl⟩ ⟨fun _ => rfl, fun _ => rfl⟩
    · exact .idle ⟨rfl, rfl⟩ ⟨fun _ => rfl, fun _ => rfl⟩

/-- Looking for settings leaves the documents alone. -/
theorem settingsFor_documents (session : Session SettingsEntry) (uri : Uri)
    (fetch : Option SettingsEntry) :
    (session.settingsFor uri fetch).session.documents = session.documents := by
  -- At most the settings cache changes.
  unfold Session.settingsFor
  split
  · rfl
  · split
    · rfl
    · split <;> rfl

/-- Scheduling validations leaves all alone but the validations and their numbers. -/
theorem foldl_schedule_frame (documents : List Document) (server : Server) :
    (documents.foldl schedule server).mode = server.mode ∧
      (documents.foldl schedule server).session = server.session ∧
      (documents.foldl schedule server).formattings = server.formattings := by
  -- Each of them is scheduled behind the others.
  induction documents generalizing server with
  | nil => exact ⟨rfl, rfl, rfl⟩
  | cons document rest ih => exact ih (server.schedule document)

/-- Scheduling keeps the mode. -/
theorem foldl_schedule_mode (documents : List Document) (server : Server) :
    (documents.foldl schedule server).mode = server.mode := (foldl_schedule_frame _ _).1

/-- Scheduling keeps the session. -/
theorem foldl_schedule_session (documents : List Document) (server : Server) :
    (documents.foldl schedule server).session = server.session := (foldl_schedule_frame _ _).2.1

/-- A look for settings leaves the mode, the documents and the formatting requests alone. -/
theorem lookUp_frame (server : Server) (validation : Validation) :
    (server.lookUp validation).1.mode = server.mode ∧
      (server.lookUp validation).1.session.documents = server.session.documents ∧
      (server.lookUp validation).1.formattings = server.formattings := by
  -- The session may remember that settings were asked for.
  have documents := settingsFor_documents server.session validation.document.uri
    (some (.asked (server.nextFetch validation.document.uri)))
  unfold lookUp
  simp only
  repeat' split
  all_goals exact ⟨rfl, documents, rfl⟩

/-- No event changes the mode, and each does to documents and formatting requests what it says. -/
theorem step_frame (server : Server) (event : Event) :
    (server.step event).1.mode = server.mode ∧
      (server.step event).1.session.documents = follow server.session.documents event ∧
      (server.step event).1.formattings = server.formattingsAfter event := by
  -- The work on validations leaves the documents alone, and so do all requests.
  cases event with
  | configurationChanged settings =>
    refine ⟨foldl_schedule_mode _ _, ?_, (foldl_schedule_frame _ _).2.2⟩
    simp only [step, configurationChanged, scheduleAll, foldl_schedule_session]
    rfl
  | validationStarted id =>
    simp only [step, validationStarted]
    split
    · split
      · exact lookUp_frame server _
      · exact ⟨rfl, rfl, rfl⟩
    · exact ⟨rfl, rfl, rfl⟩
  | handshake request capabilities =>
    refine ⟨rfl, ?_, rfl⟩
    simp only [step, handshake, Session.negotiate]
    split <;> rfl
  | documentChanged uri version changes =>
    simp only [step, documentChanged]
    split <;> exact ⟨rfl, rfl, rfl⟩
  | formattingAsked request uri =>
    simp only [step, formattingAsked, formattingsAfter]
    split
    · rename_i absent
      exact ⟨rfl, rfl, by simp [absent]⟩
    · rename_i document found
      exact ⟨rfl, rfl, by simp [found]⟩
  | settingsAnswered fetch values =>
    simp only [step, settingsAnswered]
    split <;> exact ⟨rfl, rfl, rfl⟩
  | validationResumed id =>
    simp only [step, validationResumed]
    repeat' split
    all_goals exact ⟨rfl, rfl, rfl⟩
  | compilerAnswered caller answer =>
    cases caller with
    | validation id =>
      simp only [step, validationAnswered]
      repeat' split
      all_goals exact ⟨rfl, rfl, rfl⟩
    | formatting request =>
      simp only [step, formattingAnswered, formattingsAfter]
      split
      · exact ⟨rfl, rfl, rfl⟩
      · rename_i absent
        refine ⟨rfl, rfl, (List.filter_eq_self.mpr fun formatting member => ?_).symm⟩
        simpa using List.find?_eq_none.mp absent formatting member
  | ready =>
    simp only [step, ready]
    split <;> exact ⟨rfl, rfl, rfl⟩
  | registrationAnswered accepted =>
    simp only [step, registrationAnswered]
    split <;> exact ⟨rfl, rfl, rfl⟩
  | foldersChanged =>
    simp only [step, foldersChanged]
    split <;> exact ⟨rfl, rfl, rfl⟩
  | documentOpened | documentClosed | filesChanged | completionAsked | resolutionAsked
  | shutdownAsked => exact ⟨rfl, rfl, rfl⟩

/-- The mode is never changed. -/
theorem step_mode (server : Server) (event : Event) :
    (server.step event).1.mode = server.mode := (step_frame server event).1

/-- Every event does to the documents what it says. -/
theorem step_documents (server : Server) (event : Event) :
    (server.step event).1.session.documents = follow server.session.documents event :=
  (step_frame server event).2.1

/-- Every event does to the formatting requests what it says. -/
theorem step_formattings (server : Server) (event : Event) :
    (server.step event).1.formattings = server.formattingsAfter event :=
  (step_frame server event).2.2

/-- The mode is the same throughout a run. -/
theorem run_mode (server : Server) (events : List Event) :
    (server.run events).1.mode = server.mode := by
  -- Every step keeps it.
  induction events generalizing server with
  | nil => rfl
  | cons event rest ih => exact (ih _).trans (step_mode server event)

end LanguageServer.Server
