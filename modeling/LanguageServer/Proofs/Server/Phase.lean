import LanguageServer.Proofs.Server.History
import LanguageServer.Proofs.Server.Session

/-! How validations come from one phase to the next. -/

namespace LanguageServer

namespace Obtained

/-- The settings that a look has found, if the client has answered for them. -/
def settings? : Obtained SettingsEntry → Option Settings
  -- A request that is under way has no settings yet.
  | .known settings => some settings
  | .fetched (.answered settings) => some settings
  | .fetched (.asked _) => none

/-- The phase to which a validation comes by what it has found. -/
def phase : Obtained SettingsEntry → Phase
  -- With settings the compiler is called at once.
  | .known settings => .compiling settings
  | .fetched (.answered settings) => .compiling settings
  | .fetched (.asked fetch) => .awaiting fetch

end Obtained

namespace Server

variable {server : Server} {event : Event}

/-- What an event can do to a validation that stays in flight, with the session that it leaves. -/
inductive Moves (server : Server) :
    Event → Session SettingsEntry → Validation → Validation → Prop where
  /-- The validation does not move, and has not got the answer for which it waits. -/
  | stays {event : Event} {session : Session SettingsEntry} {validation : Validation}
      (unanswered : ∀ fetch values, event = .settingsAnswered fetch values →
        validation.phase ≠ .awaiting fetch) :
      Moves server event session validation validation
  /-- The validation looks for its settings. -/
  | lookedUp {validation : Validation} {found : Obtained SettingsEntry}
      (scheduled : validation.phase = .scheduled)
      (obtained : (server.session.settingsFor validation.document.uri
        (some (.asked (server.nextFetch validation.document.uri)))).obtained = some found) :
      Moves server (.validationStarted validation.id)
        (server.session.settingsFor validation.document.uri
          (some (.asked (server.nextFetch validation.document.uri)))).session
        validation { validation with phase := found.phase }
  /-- The client answers the request for which the validation waits. -/
  | settled {validation : Validation} {fetch : FetchId} (values : Option (List Json))
      (awaiting : validation.phase = .awaiting fetch) :
      Moves server (.settingsAnswered fetch values)
        (server.session.withSettings { server.session.settings with
          fetched := server.session.settings.fetched.map
            (SettingsEntry.settle fetch (settingsOfAnswer values).value) })
        validation { validation with phase := .configured (settingsOfAnswer values).value }
  /-- The validation calls the compiler with the settings that have come. -/
  | resumed {validation : Validation} {settings : Settings}
      (configured : validation.phase = .configured settings) :
      Moves server (.validationResumed validation.id) server.session validation
        { validation with phase := .compiling settings }

/-- A validation that is in flight after an event has been scheduled by it or has moved by it. -/
def Moved (server : Server) (event : Event) (next : Server) : Prop :=
  -- Those that have ended are left aside.
  ∀ later ∈ next.validations, later.phase = .scheduled ∨
    ∃ former ∈ server.validations, Moves server event next.session former later

/-- Where no validation moves, all are where they were. -/
theorem moved_of_subset {next : Server} (part : next.validations ⊆ server.validations)
    (unanswered : ∀ fetch values, event = .settingsAnswered fetch values →
      ∀ validation ∈ server.validations, validation.phase ≠ .awaiting fetch) :
    Moved server event next := by
  -- Each is its own former self.
  intro later member
  refine .inr ⟨later, part member, .stays ?_⟩
  intro fetch values same
  exact unanswered fetch values same later (part member)

/-- Validations that are scheduled leave those that are in flight where they were. -/
theorem moved_of_scheduled {base : Server} (documents : List Document)
    (same : base.validations = server.validations)
    (other : ∀ fetch values, event ≠ .settingsAnswered fetch values) :
    Moved server event (documents.foldl schedule base) := by
  -- A validation is new or its own former self.
  intro later member
  rcases mem_foldl_schedule member with former | ⟨-, -, scheduled, -⟩
  · refine .inr ⟨later, same ▸ former, .stays ?_⟩
    intro fetch values answered
    exact absurd answered (other fetch values)
  · exact .inl scheduled

/-- Where one validation moves, the others are where they were. -/
theorem moved_of_setPhase (distinct : server.Distinct) {validation : Validation}
    (inFlight : validation ∈ server.validations) {phase : Phase} {next : Server}
    (validations : next.validations = (server.setPhase validation.id phase).validations)
    (moves : Moves server event next.session validation { validation with phase })
    (other : ∀ fetch values, event ≠ .settingsAnswered fetch values) :
    Moved server event next := by
  -- The validation that moves is the only one of its identity.
  intro later member
  rw [validations, setPhase] at member
  obtain ⟨former, formerInFlight, rfl⟩ := List.mem_map.mp member
  refine .inr ⟨former, formerInFlight, ?_⟩
  by_cases same : former.id = validation.id
  · rw [if_pos same, distinct.eq formerInFlight inFlight same]
    exact moves
  · rw [if_neg same]
    refine .stays ?_
    intro fetch values answered
    exact absurd answered (other fetch values)

/-- A look for settings brings the validation to the phase of what it has found. -/
theorem lookUp_validations {validation : Validation} {found : Obtained SettingsEntry}
    (obtained : (server.session.settingsFor validation.document.uri
      (some (.asked (server.nextFetch validation.document.uri)))).obtained = some found) :
    (server.lookUp validation).1.validations =
      (server.setPhase validation.id found.phase).validations := by
  -- Whether a request is sent makes no difference.
  unfold lookUp
  simp only [obtained]
  cases found with
  | known settings => rfl
  | fetched entry =>
    cases entry with
    | answered settings => rfl
    | asked fetch =>
      simp only
      split
      · rfl
      · rfl

/-- A validation that looks for its settings is the only one that moves. -/
theorem moved_lookUp (distinct : server.Distinct) {id : ValidationId} {validation : Validation}
    (found : server.validation? id = some validation) (scheduled : validation.phase = .scheduled) :
    Moved server (.validationStarted id) (server.lookUp validation).1 := by
  -- Its phase is the one of what it has found.
  obtain ⟨inFlight, rfl⟩ := validation?_some found
  cases obtained : (server.session.settingsFor validation.document.uri
      (some (.asked (server.nextFetch validation.document.uri)))).obtained with
  | none =>
    refine moved_of_subset ?_ (by simp)
    simp only [lookUp, obtained]
    exact List.Subset.refl _
  | some found =>
    refine moved_of_setPhase distinct inFlight (lookUp_validations obtained) ?_ (by simp)
    rw [lookUp_session]
    exact .lookedUp scheduled obtained

/-- An answer to a settings request leaves those alone that do not wait for it. -/
theorem settlePhase_of_ne {fetch : FetchId} {phase : Phase} (apart : phase ≠ .awaiting fetch)
    (settings : Settings) : settlePhase fetch settings phase = phase := by
  -- Only a phase that waits can change.
  cases phase with
  | awaiting other =>
    have different : other ≠ fetch := fun same => apart (same ▸ rfl)
    exact if_neg different
  | scheduled | configured | compiling => rfl

/-- An answer to a settings request moves those that wait for it. -/
theorem moved_settingsAnswered (fetch : FetchId) (values : Option (List Json)) :
    Moved server (.settingsAnswered fetch values) (server.settingsAnswered fetch values).1 := by
  -- All of them get the same settings.
  unfold settingsAnswered
  split
  · intro later member
    obtain ⟨former, inFlight, rfl⟩ := List.mem_map.mp member
    refine .inr ⟨former, inFlight, ?_⟩
    by_cases awaiting : former.phase = .awaiting fetch
    · simp only [awaiting, settlePhase, if_pos]
      exact .settled values awaiting
    · rw [settlePhase_of_ne awaiting]
      refine .stays ?_
      intro other values answered
      cases answered
      exact awaiting
  · rename_i unawaited
    refine moved_of_subset (List.Subset.refl _) ?_
    intro other values answered validation inFlight awaiting
    cases answered
    exact unawaited (List.any_eq_true.mpr ⟨validation, inFlight, by simpa using awaiting⟩)

/-- Every event moves validations as it may. -/
theorem step_moved (distinct : server.Distinct) (event : Event) :
    Moved server event (server.step event).1 := by
  -- Events that are not about validations at most bring new ones.
  cases event with
  | documentOpened uri languageId version text => exact moved_of_scheduled [_] rfl (by simp)
  | documentChanged uri version changes =>
    simp only [step, documentChanged]
    split
    · exact moved_of_scheduled [_] rfl (by simp)
    · exact moved_of_subset (List.Subset.refl _) (by simp)
  | configurationChanged settings => exact moved_of_scheduled _ rfl (by simp)
  | validationStarted id =>
    simp only [step, validationStarted]
    split
    · rename_i validation found
      split
      · rename_i scheduled
        exact moved_lookUp distinct found scheduled
      · exact moved_of_subset (List.Subset.refl _) (by simp)
    · exact moved_of_subset (List.Subset.refl _) (by simp)
  | settingsAnswered fetch values => exact moved_settingsAnswered fetch values
  | validationResumed id =>
    simp only [step, validationResumed]
    split
    · rename_i validation found
      obtain ⟨inFlight, rfl⟩ := validation?_some found
      split
      · rename_i settings configured
        exact moved_of_setPhase distinct inFlight rfl (.resumed configured) (by simp)
      · exact moved_of_subset (List.Subset.refl _) (by simp)
    · exact moved_of_subset (List.Subset.refl _) (by simp)
  | compilerAnswered caller answer =>
    cases caller with
    | validation id =>
      simp only [step, validationAnswered]
      split
      · split
        · exact moved_of_subset List.filter_sublist.subset (by simp)
        · exact moved_of_subset (List.Subset.refl _) (by simp)
      · exact moved_of_subset (List.Subset.refl _) (by simp)
    | formatting request =>
      simp only [step, formattingAnswered]
      split
      · exact moved_of_subset (List.Subset.refl _) (by simp)
      · exact moved_of_subset (List.Subset.refl _) (by simp)
  | formattingAsked | ready | registrationAnswered | foldersChanged =>
    simp only [step, Server.formattingAsked, Server.ready, Server.registrationAnswered,
      Server.foldersChanged]
    split
    · exact moved_of_subset (List.Subset.refl _) (by simp)
    · exact moved_of_subset (List.Subset.refl _) (by simp)
  | handshake | documentClosed | filesChanged | completionAsked | resolutionAsked
  | shutdownAsked => exact moved_of_subset (List.Subset.refl _) (by simp)

/-- A validation keeps its identity and its document. -/
theorem Moves.brief {session : Session SettingsEntry} {former later : Validation}
    (moves : Moves server event session former later) : former.brief = later.brief := by
  -- Only its phase changes.
  cases moves with
  | stays | lookedUp | settled | resumed => rfl

/-- A validation leaves its first phase by looking for its settings when it is started. -/
theorem Moves.started {session : Session SettingsEntry} {former later : Validation}
    (moves : Moves server event session former later) (scheduled : former.phase = .scheduled)
    (moved : later.phase ≠ .scheduled) :
    event = .validationStarted former.id ∧ ∃ found,
      (server.session.settingsFor former.document.uri
        (some (.asked (server.nextFetch former.document.uri)))).obtained = some found ∧
      later = { former with phase := found.phase } := by
  -- All other moves begin in a later phase.
  cases moves with
  | stays => exact absurd scheduled moved
  | lookedUp _ obtained => exact ⟨rfl, _, obtained, rfl⟩
  | settled values awaiting => cases scheduled.symm.trans awaiting
  | resumed configured => cases scheduled.symm.trans configured

end Server

end LanguageServer
