import LanguageServer.Proofs.Server.Phase
import LanguageServer.Proofs.Server.Publication

/-! The settings of a validation are those in force, until the configuration changes. -/

namespace LanguageServer

/-- What a look for the settings of an open document finds without a fetch of its own. -/
def Session.standing? {φ : Type} (session : Session φ) (uri : Uri) : Option (Obtained φ) :=
  -- Without the client's configuration there is always something to find.
  if session.capabilities.configuration then
    (session.settings.fetched.find? uri).map .fetched
  else some (.known session.settings.shared)

namespace Obtained

/-- What a look has found once a request was answered. -/
def settle (fetch : FetchId) (settings : Settings) : Obtained SettingsEntry → Obtained SettingsEntry
  -- Only what waits for this request is settled.
  | .known shared => .known shared
  | .fetched entry => .fetched (Server.SettingsEntry.settle fetch settings entry)

/-- Settings that are known are not changed by an answer. -/
theorem settings?_settle {found : Obtained SettingsEntry} {known : Settings}
    (held : found.settings? = some known) (fetch : FetchId) (settings : Settings) :
    (found.settle fetch settings).settings? = some known := by
  -- Only a request that is under way could be changed.
  cases found with
  | known shared => exact held
  | fetched entry =>
    cases entry with
    | asked other => cases held
    | answered settings => exact held

end Obtained

/-- Whether a phase goes with what a look for settings would find. -/
def Phase.Agrees (standing : Option (Obtained SettingsEntry)) : Phase → Prop
  -- A validation that has not looked yet cannot disagree.
  | .scheduled => True
  | .awaiting fetch => standing = some (.fetched (.asked fetch))
  | .configured settings => standing.bind Obtained.settings? = some settings
  | .compiling settings => standing.bind Obtained.settings? = some settings

/-- The phase to which a validation comes by what it has found goes with it. -/
theorem Obtained.phase_agrees (found : Obtained SettingsEntry) :
    found.phase.Agrees (some found) := by
  -- Each kind of finding has its own phase.
  cases found with
  | known settings => rfl
  | fetched entry =>
    cases entry with
    | asked fetch => rfl
    | answered settings => rfl

/-- Nothing but a validation that has not looked yet goes with nothing. -/
theorem Phase.Agrees.scheduled {phase : Phase} (agrees : phase.Agrees none) :
    phase = .scheduled := by
  -- All other phases have found something.
  cases phase with
  | scheduled => rfl
  | awaiting | configured | compiling => cases agrees

/-- An answer for which a phase does not wait leaves it going with what would be found. -/
theorem Phase.Agrees.settle {phase : Phase} {found : Obtained SettingsEntry}
    (agrees : phase.Agrees (some found)) {fetch : FetchId} (unanswered : phase ≠ .awaiting fetch)
    (settings : Settings) : phase.Agrees (some (found.settle fetch settings)) := by
  -- Settings that are known stay, and another request stays under way.
  cases phase with
  | scheduled => trivial
  | awaiting other =>
    have apart : other ≠ fetch := fun same => unanswered (same ▸ rfl)
    cases agrees
    simp [Phase.Agrees, Obtained.settle, Server.SettingsEntry.settle, apart]
  | configured | compiling => exact Obtained.settings?_settle agrees fetch settings

namespace Session

variable {φ : Type} {session : Session φ} {uri : Uri}

/-- What a look finds in a session with other settings. -/
theorem standing?_withSettings (session : Session φ) (settings : SettingsCache φ) (uri : Uri) :
    (session.withSettings settings).standing? uri =
      if session.capabilities.configuration then (settings.fetched.find? uri).map .fetched
      else some (.known settings.shared) := rfl

/-- What a look has found for an open document is what the next look finds. -/
theorem standing?_settingsFor (opened : (session.documents.find? uri).isSome = true)
    {fetch : Option φ} {found : Obtained φ}
    (obtained : (session.settingsFor uri fetch).obtained = some found) :
    (session.settingsFor uri fetch).session.standing? uri = some found := by
  -- The fetch of the look itself is kept if it is the first one.
  cases capable : session.capabilities.configuration with
  | false =>
    rw [settingsFor_of_incapable capable] at obtained ⊢
    simpa [standing?, capable] using obtained
  | true =>
    cases kept : session.settings.fetched.find? uri with
    | some entry =>
      rw [settingsFor_of_kept capable opened kept] at obtained ⊢
      simpa [standing?, capable, kept] using obtained
    | none =>
      cases fetch with
      | none =>
        rw [settingsFor_of_broken capable kept] at obtained
        cases obtained
      | some started =>
        rw [settingsFor_of_absent capable opened kept] at obtained ⊢
        simpa [standing?_withSettings, capable] using obtained

/-- What stands for a document is not touched by a look for settings. -/
theorem standing?_of_settingsFor {found : Obtained φ}
    (standing : session.standing? uri = some found) (other : Uri) (fetch : Option φ) :
    (session.settingsFor other fetch).session.standing? uri = some found := by
  -- A fetch is added only where there is none.
  rcases settingsFor_session session other fetch with
    same | ⟨started, -, capable, -, absent, after⟩
  · rw [same]
    exact standing
  · rw [after, standing?_withSettings, if_pos capable]
    rw [standing?, if_pos capable] at standing
    by_cases same : uri = other
    · rw [same, absent] at standing
      cases standing
    · simpa [same] using standing

end Session

namespace Server

/-- Whether an event leaves the choice of settings as it is. -/
def Calm (server : Server) : Event → Prop
  -- The first introduction says whether the client can be asked for settings.
  | .handshake .. => server.session.negotiated.isSome = true
  | .configurationChanged _ => False
  | _ => True

/-- Whether an event leaves the choice of settings as it is can be seen from the session. -/
instance Calm.decidable (server : Server) : (event : Event) → Decidable (server.Calm event)
  -- Only an introduction needs a look at it.
  | .handshake .. => inferInstanceAs (Decidable (server.session.negotiated.isSome = true))
  | .configurationChanged _ => .isFalse id
  | .ready | .documentOpened .. | .documentChanged .. | .documentClosed _ | .foldersChanged
  | .filesChanged _ | .completionAsked _ | .resolutionAsked .. | .formattingAsked ..
  | .shutdownAsked _ | .validationStarted _ | .settingsAnswered .. | .validationResumed _
  | .compilerAnswered .. | .registrationAnswered _ => .isTrue trivial

/-- The settings in force for a document, as far as they are known. -/
def inForce? (server : Server) (uri : Uri) : Option Settings :=
  -- A request that is under way leaves them open.
  (server.session.standing? uri).bind Obtained.settings?

variable {server : Server} {event : Event} {uri : Uri}

/-- What an answer to a settings request does to what stands for a document. -/
theorem standing?_settle (session : Session SettingsEntry) (fetch : FetchId) (settings : Settings)
    (uri : Uri) :
    (session.withSettings { session.settings with
        fetched := session.settings.fetched.map
          (SettingsEntry.settle fetch settings) }).standing? uri =
      (session.standing? uri).map (Obtained.settle fetch settings) := by
  -- Settings for all documents wait for no answer.
  rw [Session.standing?_withSettings, Session.standing?]
  split
  · simp only [Table.find?_map, Option.map_map]
    rfl
  · rfl

/-- A close leaves what stands for other documents. -/
theorem standing?_close (session : Session SettingsEntry) {other : Uri} (apart : uri ≠ other) :
    (session.close other).standing? uri = session.standing? uri := by
  -- The settings of one document go.
  have kept : (session.settings.fetched.erase other).find? uri =
      session.settings.fetched.find? uri := by
    rw [Table.find?_erase, if_neg apart]
  unfold Session.standing?
  rw [← kept]
  rfl

/--
What stands for a document stays, or waits for an answer and gets it.

The configuration must not change and the document must not go.
-/
theorem Turns.standing? {session : Session SettingsEntry} (turn : Turns server event session)
    (calm : server.Calm event) (stays : ¬ Leaves uri event)
    {found : Obtained SettingsEntry} (standing : server.session.standing? uri = some found) :
    session.standing? uri = some found ∨
      ∃ fetch values, event = .settingsAnswered fetch values ∧
        session.standing? uri = some (found.settle fetch (settingsOfAnswer values).value) := by
  -- Events about other documents do not matter, nor do documents themselves.
  cases turn with
  | kept | opened | changed => exact .inl standing
  | negotiated request capabilities =>
    obtain ⟨known, fixed⟩ := Option.isSome_iff_exists.mp calm
    rw [Session.negotiate_session, fixed, Option.some_or, ← fixed]
    exact .inl standing
  | cleared | set => exact absurd calm id
  | closed other =>
    have apart : uri ≠ other := fun same => stays same.symm
    rw [standing?_close server.session apart]
    exact .inl standing
  | discarded => exact absurd trivial stays
  | lookedUp => exact .inl (Session.standing?_of_settingsFor standing _ _)
  | @settled fetch values =>
    refine .inr ⟨fetch, values, rfl, ?_⟩
    rw [standing?_settle, standing]
    rfl

/-- Settings in force stay in force while the configuration and the document stay. -/
theorem inForce?_step {settings : Settings} (known : server.inForce? uri = some settings)
    (calm : server.Calm event) (stays : ¬ Leaves uri event) :
    (server.step event).1.inForce? uri = some settings := by
  -- An answer changes nothing that is known.
  obtain ⟨found, standing, held⟩ := Option.bind_eq_some_iff.mp known
  rcases (step_turns server event).standing? calm stays standing with
    same | ⟨fetch, values, -, settled⟩
  · rw [inForce?, same]
    exact held
  · rw [inForce?, settled]
    exact Obtained.settings?_settle held fetch _

/-- A validation of an open document goes on going with what stands for the document. -/
theorem Moves.agrees {session : Session SettingsEntry} {former later : Validation}
    (moves : Moves server event session former later) (turn : Turns server event session)
    (calm : server.Calm event) (stays : ¬ Leaves former.document.uri event)
    (opened : (server.session.documents.find? former.document.uri).isSome = true)
    (agrees : former.phase.Agrees (server.session.standing? former.document.uri)) :
    later.phase.Agrees (session.standing? later.document.uri) := by
  -- A look and an answer bring the validation and the session forward together.
  cases moves with
  | stays unanswered =>
    cases standing : server.session.standing? former.document.uri with
    | none =>
      rw [standing] at agrees
      rw [agrees.scheduled]
      trivial
    | some found =>
      rw [standing] at agrees
      rcases turn.standing? calm stays standing with same | ⟨fetch, values, answered, settled⟩
      · rw [same]
        exact agrees
      · rw [settled]
        exact agrees.settle (unanswered fetch values answered) _
  | @lookedUp _ found scheduled obtained =>
    rw [Session.standing?_settingsFor opened obtained]
    exact found.phase_agrees
  | @settled _ fetch values awaiting =>
    have standing : server.session.standing? former.document.uri =
        some (.fetched (.asked fetch)) := by
      rw [awaiting] at agrees
      exact agrees
    simp [standing?_settle, standing, Phase.Agrees, Obtained.settle, SettingsEntry.settle,
      Obtained.settings?]
  | resumed configured =>
    rw [configured] at agrees
    exact agrees

/-- A document that is stored while it is being validated was stored before. -/
theorem Sound.stored_before (sound : server.Sound) (grows : server.Grows event)
    {validation : Validation} (inFlight : validation ∈ server.validations)
    (stored : (server.step event).1.session.documents.find? validation.document.uri =
      some validation.document) :
    server.session.documents.find? validation.document.uri = some validation.document := by
  -- It is older than a new open, and what an edit leaves is newer than all snapshots.
  rw [step_documents] at stored
  rcases (ages_follow grows).documents stored with newer | ⟨held, found, sameOpen, older⟩
  · have dated := sound.dated validation inFlight
    omega
  · rcases sound.current validation inFlight held found sameOpen with earlier | rfl
    · rcases older with grown | rfl
      · omega
      · omega
    · exact found

/-- Whether a validation goes with what stands for its document, if that is still the stored one. -/
def Tuned (server : Server) (validation : Validation) : Prop :=
  -- Nothing stands for a document that has gone.
  server.session.documents.find? validation.document.uri = some validation.document →
    validation.phase.Agrees (server.session.standing? validation.document.uri)

/-- A validation that has not looked for its settings goes with everything. -/
theorem tuned_of_scheduled {validation : Validation} (scheduled : validation.phase = .scheduled) :
    server.Tuned validation := by
  -- There is nothing to compare.
  intro _
  rw [scheduled]
  trivial

/-- A validation goes on going with what stands while the choice of settings is not touched. -/
theorem Sound.tuned_step (sound : server.Sound) (grows : server.Grows event)
    (calm : server.Calm event) {former later : Validation} (inFlight : former ∈ server.validations)
    (moves : Moves server event (server.step event).1.session former later)
    (tuned : server.Tuned former) : (server.step event).1.Tuned later := by
  -- The stored document is the same before and after.
  intro stored
  have sameDocument : former.document = later.document := congrArg Prod.snd moves.brief
  rw [← sameDocument] at stored
  have storedBefore := sound.stored_before grows inFlight stored
  have stays := not_leaves_of_found stored
  have opened : (server.session.documents.find? former.document.uri).isSome = true := by
    rw [storedBefore]
    rfl
  exact moves.agrees (step_turns server event) calm stays opened (tuned storedBefore)

/-- All validations of an identity go on going with what stands while the choice is not touched. -/
theorem Sound.tuned_all (sound : server.Sound) (grows : server.Grows event)
    (calm : server.Calm event) {id : ValidationId}
    (tuned : ∀ former ∈ server.validations, former.id = id → server.Tuned former) :
    ∀ later ∈ (server.step event).1.validations, later.id = id →
      (server.step event).1.Tuned later := by
  -- One that is new has not looked for its settings.
  intro later member same
  rcases step_moved sound.distinct event later member with scheduled | ⟨former, inFlight, moves⟩
  · exact tuned_of_scheduled scheduled
  · have sameId : former.id = id := (congrArg Prod.fst moves.brief).trans same
    exact sound.tuned_step grows calm inFlight moves (tuned former inFlight sameId)

end Server

end LanguageServer
