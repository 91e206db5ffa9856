import LanguageServer.Proofs.Server.Effect
import LanguageServer.Proofs.Session.Attached

/-! What one event can do to the session, and that kept settings never outlive their document. -/

namespace LanguageServer.Server

/-- What an event can do to the session. -/
inductive Turns (server : Server) : Event → Session SettingsEntry → Prop where
  /-- The session stays as it is, which it never does when the configuration changes. -/
  | kept {event : Event} (other : ∀ settings, event ≠ .configurationChanged settings) :
      Turns server event server.session
  /-- The client introduces itself. -/
  | negotiated (request : RequestId) (capabilities : Capabilities) :
      Turns server (.handshake request capabilities)
        (server.session.negotiate capabilities).value.1
  | opened (uri : Uri) (languageId : String) (version : Int) (text : String) :
      Turns server (.documentOpened uri languageId version text)
        (server.session.withDocuments (server.session.documents.add uri languageId version text))
  | changed (uri : Uri) (version : Int) (changes : List Change) :
      Turns server (.documentChanged uri version changes) (server.session.withDocuments
        (server.session.documents.change uri version changes).value.1)
  | closed (uri : Uri) : Turns server (.documentClosed uri) (server.session.close uri)
  /-- The settings of all documents are fetched again. -/
  | cleared (settings : Option Json) (capable : server.session.capabilities.configuration = true) :
      Turns server (.configurationChanged settings)
        (server.session.withSettings server.session.settings.clear)
  /-- The settings of all documents are those that came with the event. -/
  | set (settings : Option Json) (incapable : server.session.capabilities.configuration = false) :
      Turns server (.configurationChanged settings) (server.session.withSettings
        (server.session.settings.setShared (Settings.ofValue settings).value))
  | discarded (request : RequestId) :
      Turns server (.shutdownAsked request) server.session.discard.value
  /-- A validation looks for its settings. -/
  | lookedUp {id : ValidationId} {validation : Validation}
      (found : server.validation? id = some validation)
      (scheduled : validation.phase = .scheduled) :
      Turns server (.validationStarted id) (server.session.settingsFor validation.document.uri
        (some (.asked (server.nextFetch validation.document.uri)))).session
  /-- The client answers a settings request that somebody waits for. -/
  | settled {fetch : FetchId} (values : Option (List Json))
      (awaited : ∃ validation ∈ server.validations, validation.phase = .awaiting fetch) :
      Turns server (.settingsAnswered fetch values) (server.session.withSettings
        { server.session.settings with
          fetched := server.session.settings.fetched.map
            (SettingsEntry.settle fetch (settingsOfAnswer values).value) })

/-- A look for settings leaves the session that the look itself leaves. -/
theorem lookUp_session (server : Server) (validation : Validation) :
    (server.lookUp validation).1.session =
      (server.session.settingsFor validation.document.uri
        (some (.asked (server.nextFetch validation.document.uri)))).session := by
  -- What the validation does with its settings is another matter.
  unfold lookUp
  simp only
  split
  · rfl
  · rfl
  · rfl
  · split
    · rfl
    · rfl

/-- Every event does one of these things to the session. -/
theorem step_turns (server : Server) (event : Event) :
    Turns server event (server.step event).1.session := by
  -- Most events come to the session in one place.
  cases event with
  | handshake request capabilities => exact .negotiated request capabilities
  | documentOpened uri languageId version text => exact .opened uri languageId version text
  | documentChanged uri version changes =>
    have turned : (server.step (.documentChanged uri version changes)).1.session =
        server.session.withDocuments
          (server.session.documents.change uri version changes).value.1 := by
      simp only [step, documentChanged]
      split
      · rfl
      · rfl
    exact turned ▸ .changed uri version changes
  | documentClosed uri => exact .closed uri
  | configurationChanged settings =>
    have turned : (server.step (.configurationChanged settings)).1.session =
        server.session.withSettings
          (if server.session.capabilities.configuration = true then server.session.settings.clear
          else server.session.settings.setShared (Settings.ofValue settings).value) := by
      simp only [step, configurationChanged, scheduleAll, foldl_schedule_session]
      split
      · rfl
      · rfl
    rw [turned]
    split
    · rename_i capable
      exact .cleared settings capable
    · rename_i incapable
      exact .set settings (by simpa using incapable)
  | shutdownAsked request => exact .discarded request
  | validationStarted id =>
    simp only [step, validationStarted]
    split
    · rename_i validation found
      split
      · rename_i scheduled
        rw [lookUp_session]
        exact .lookedUp found scheduled
      · exact .kept (by simp)
    · exact .kept (by simp)
  | settingsAnswered fetch values =>
    simp only [step, settingsAnswered]
    split
    · rename_i awaited
      exact .settled values (by simpa using awaited)
    · exact .kept (by simp)
  | validationResumed id =>
    simp only [step, validationResumed]
    split
    · split
      · exact .kept (by simp)
      · exact .kept (by simp)
    · exact .kept (by simp)
  | compilerAnswered caller answer =>
    cases caller with
    | validation id =>
      simp only [step, validationAnswered]
      split
      · split
        · exact .kept (by simp)
        · exact .kept (by simp)
      · exact .kept (by simp)
    | formatting request =>
      simp only [step, formattingAnswered]
      split
      · exact .kept (by simp)
      · exact .kept (by simp)
  | formattingAsked request uri =>
    simp only [step, formattingAsked]
    split
    · exact .kept (by simp)
    · exact .kept (by simp)
  | ready =>
    simp only [step, ready]
    split
    · exact .kept (by simp)
    · exact .kept (by simp)
  | registrationAnswered accepted =>
    simp only [step, registrationAnswered]
    split
    · exact .kept (by simp)
    · exact .kept (by simp)
  | foldersChanged =>
    simp only [step, foldersChanged]
    split
    · exact .kept (by simp)
    · exact .kept (by simp)
  | filesChanged | completionAsked | resolutionAsked => exact .kept (by simp)

/-- Whatever happens, settings are kept for open documents alone. -/
theorem attached_step {server : Server} (attached : server.session.Attached) (event : Event) :
    (server.step event).1.session.Attached := by
  -- Each turn of the session has its own reason.
  have turn := step_turns server event
  generalize (server.step event).1.session = session at turn ⊢
  cases turn with
  | kept => exact attached
  | negotiated _ capabilities => exact attached.negotiate capabilities
  | opened uri languageId version text => exact attached.add uri languageId version text
  | changed uri version changes => exact attached.change uri version changes
  | closed uri => exact attached.close uri
  | cleared => exact attached.clear
  | set => exact attached.withSettings fun _ kept => kept
  | discarded => exact Session.attached_discard server.session
  | lookedUp => exact attached.settingsFor _ _
  | settled =>
    refine attached.withSettings fun uri kept => ?_
    rw [Table.find?_map, Option.isSome_map] at kept
    exact kept

/-- Settings are kept for open documents alone throughout a run. -/
theorem attached_run {server : Server} (attached : server.session.Attached) (events : List Event) :
    (server.run events).1.session.Attached := by
  -- Every step keeps them together.
  induction events generalizing server with
  | nil => exact attached
  | cons event rest ih => exact ih (attached_step attached event)

/--
Settings never outlive their document.

Whenever settings are kept for an address, whether the client has answered for them or not, the
document of that address is open. This holds at any time of any run, also where a validation looks
for settings after its document was closed, opened again or dropped with the session.
-/
theorem kept_settings_have_document {mode : Mode} {events : List Event} {uri : Uri}
    (kept : ((fresh mode).run events).1.session.settings.contains uri = true) :
    (((fresh mode).run events).1.session.documents.find? uri).isSome = true :=
  -- Nothing is kept before the first event.
  attached_run Session.attached_empty events uri kept

/-- One validation looks for settings after its document was closed, another after a reopen. -/
theorem kept_settings_have_document_late :
    let closed : Uri := ⟨"file:///closed.mypl"⟩
    let reopened : Uri := ⟨"file:///reopened.mypl"⟩
    let events : List Event :=
      [.handshake (.number 1) { configuration := true }, .documentOpened closed "mypl" 1 "x",
        .documentOpened reopened "mypl" 1 "y", .documentClosed closed, .documentClosed reopened,
        .documentOpened reopened "mypl" 1 "z", .validationStarted ⟨closed, 0⟩,
        .validationStarted ⟨reopened, 0⟩, .settingsAnswered ⟨closed, 0⟩ none,
        .settingsAnswered ⟨reopened, 0⟩ none]
    let session := ((fresh .check).run events).1.session
    (session.settings.contains reopened = true ∧ session.settings.contains closed = false) ∧
      (session.documents.find? reopened).isSome = true := by
  intro closed reopened events session
  have kept : session.settings.contains reopened = true := by decide +kernel
  have forgotten : session.settings.contains closed = false := by decide +kernel
  exact ⟨⟨kept, forgotten⟩, kept_settings_have_document kept⟩

end LanguageServer.Server
