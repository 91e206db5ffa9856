import LanguageServer.Proofs.Server.Fetch
import LanguageServer.Proofs.Server.Phase

/-! Where the settings come from under which a validation calls the compiler. -/

namespace LanguageServer

/-- The settings of all documents behind an event, under a client that cannot be asked for them. -/
def Event.announce (settings : Settings) : Event → Settings
  -- Such a client sends them along when its configuration changes.
  | .configurationChanged sent => (Settings.ofValue sent).value
  | _ => settings

/-- The settings of all documents that events announce, and the defaults before the first. -/
def announced (events : List Event) : Settings :=
  -- The last announcement counts.
  events.foldl Event.announce {}

namespace Server

variable {server : Server} {mode : Mode} {events : List Event} {event : Event}

/-- While the client cannot be asked, the settings of all documents are as events announce them. -/
theorem Turns.shared {session : Session SettingsEntry} (turn : Turns server event session)
    (incapable : server.session.capabilities.configuration = false) :
    session.settings.shared = Event.announce server.session.settings.shared event := by
  -- Nothing but a change of the configuration touches them.
  cases turn with
  | kept other =>
    cases event with
    | configurationChanged sent => exact absurd rfl (other sent)
    | _ => rfl
  | negotiated => rw [Session.negotiate_session]; rfl
  | cleared sent capable => rw [incapable] at capable; cases capable
  | lookedUp => rw [Session.settingsFor_frame]; rfl
  | opened | changed | closed | set | discarded | settled => rfl

/-- A client that cannot be asked for settings could not be asked before. -/
theorem incapable_before
    (incapable : (server.step event).1.session.capabilities.configuration = false) :
    server.session.capabilities.configuration = false := by
  -- One that could be asked once could be asked ever after.
  cases capable : server.session.capabilities.configuration with
  | false => rfl
  | true => exact absurd (capable_step capable event) (by simp [incapable])

/-- Under a client that cannot be asked, the settings of all documents are those announced. -/
theorem shared_run (mode : Mode) (events : List Event)
    (incapable : ((fresh mode).run events).1.session.capabilities.configuration = false) :
    ((fresh mode).run events).1.session.settings.shared = announced events := by
  -- The client could not be asked at any time of the run.
  induction events using List.reverseRecOn with
  | nil => rfl
  | append_singleton events event ih =>
    rw [run_concat] at incapable ⊢
    have before := incapable_before incapable
    rw [(step_turns _ event).shared before, ih before, announced, announced, List.foldl_concat]

/--
What a validation finds of its settings when it is started behind some events.

This is said of what the client has sent and of what is kept, and not of how the server looks.
-/
inductive Finds (mode : Mode) (before : List Event) (id : ValidationId) (uri : Uri) :
    Obtained SettingsEntry → Prop where
  /-- A client that cannot be asked has announced them for all documents. -/
  | announced
      (incapable : ((fresh mode).run before).1.session.capabilities.configuration = false) :
      Finds mode before id uri (.known (announced before))
  /-- The client's answer is kept for the document, or a request that it has not answered. -/
  | kept {entry : SettingsEntry}
      (capable : ((fresh mode).run before).1.session.capabilities.configuration = true)
      (kept : ((fresh mode).run before).1.kept? uri = some entry)
      (fetched : Fetched mode before uri entry) :
      Finds mode before id uri (.fetched entry)
  /-- Nothing is kept for the document, and so the client is asked. -/
  | asked {fetch : FetchId}
      (capable : ((fresh mode).run before).1.session.capabilities.configuration = true)
      (unkept : ((fresh mode).run before).1.kept? uri = none) (about : fetch.uri = uri)
      (told : reaction mode before (.validationStarted id) = [.askSettings fetch]) :
      Finds mode before id uri (.fetched (.asked fetch))

/-- What a look for settings has found is what there was to find. -/
theorem finds_of_obtained {validation : Validation} {found : Obtained SettingsEntry}
    (inFlight : ((fresh mode).run events).1.validation? validation.id = some validation)
    (scheduled : validation.phase = .scheduled)
    (obtained : (((fresh mode).run events).1.session.settingsFor validation.document.uri
      (some (.asked (((fresh mode).run events).1.nextFetch validation.document.uri)))).obtained =
        some found) :
    Finds mode events validation.id validation.document.uri found := by
  -- It matters whether the client can be asked, and then whether anything is kept.
  cases capable : ((fresh mode).run events).1.session.capabilities.configuration with
  | false =>
    rw [Session.settingsFor_of_incapable capable] at obtained
    cases obtained
    rw [shared_run mode events capable]
    exact .announced capable
  | true =>
    cases kept : ((fresh mode).run events).1.kept? validation.document.uri with
    | some entry =>
      have attached : ((fresh mode).run events).1.session.Attached :=
        attached_run Session.attached_empty events
      have opened := attached validation.document.uri (Option.isSome_of_eq_some kept)
      rw [Session.settingsFor_of_kept capable opened kept] at obtained
      cases obtained
      exact .kept capable kept (fetched_run mode events kept)
    | none =>
      obtain ⟨own, started⟩ := Session.settingsFor_of_unkept capable kept
        (.asked (((fresh mode).run events).1.nextFetch validation.document.uri))
      have asked := own.symm.trans obtained
      cases asked
      refine .asked capable kept rfl ?_
      simp [reaction, step, validationStarted, inFlight, scheduled, lookUp_outputs started]

/-- The start of a validation cuts a run, for a document that was to be validated then. -/
structure StartedAt (mode : Mode) (events before behind : List Event) (id : ValidationId)
    (document : Document) : Prop where
  cut : events = before ++ .validationStarted id :: behind
  scheduled : ((fresh mode).run before).1.validation? id = some { id, document }

/-- What was started stays started. -/
theorem StartedAt.later {before behind : List Event} {id : ValidationId} {document : Document}
    (started : StartedAt mode events before behind id document) (event : Event) :
    StartedAt mode (events ++ [event]) before (behind ++ [event]) id document where
  -- The cut stays where it is.
  cut := by rw [started.cut]; simp
  scheduled := started.scheduled

/-- The settings that a validation has got since it was started. -/
inductive Gets (mode : Mode) (before behind : List Event) (id : ValidationId)
    (document : Document) : Settings → Prop where
  /-- It has found them when it was started. -/
  | atOnce {found : Obtained SettingsEntry} {settings : Settings}
      (finds : Finds mode before id document.uri found) (known : found.settings? = some settings) :
      Gets mode before behind id document settings
  /-- They are the client's answer to the request for which it has waited since. -/
  | answered {fetch : FetchId} {between rest : List Event} {values : Option (List Json)}
      (finds : Finds mode before id document.uri (.fetched (.asked fetch)))
      (cut : behind = between ++ .settingsAnswered fetch values :: rest)
      (awaiting : ((fresh mode).run (before ++ .validationStarted id :: between)).1.validation? id =
        some { id, document, phase := .awaiting fetch }) :
      Gets mode before behind id document (settingsOfAnswer values).value

/-- What a validation has got it keeps. -/
theorem Gets.later {before behind : List Event} {id : ValidationId} {document : Document}
    {settings : Settings} (gets : Gets mode before behind id document settings) (event : Event) :
    Gets mode before (behind ++ [event]) id document settings := by
  -- An answer stays where it is.
  cases gets with
  | atOnce finds known => exact .atOnce finds known
  | @answered fetch between rest values finds cut awaiting =>
    have longer : behind ++ [event] =
        between ++ .settingsAnswered fetch values :: (rest ++ [event]) := by
      rw [cut]
      simp
    exact .answered finds longer awaiting

/-- Whether a validation that was started is in its phase by what it has found and got since. -/
def Sourced (mode : Mode) (before behind : List Event) (validation : Validation) : Prop :=
  -- One that has not looked for its settings was not started.
  match validation.phase with
  | .scheduled => False
  | .awaiting fetch =>
    Finds mode before validation.id validation.document.uri (.fetched (.asked fetch))
  | .configured settings | .compiling settings =>
    Gets mode before behind validation.id validation.document settings

/-- Nothing that happens takes from a validation what it has found and got. -/
theorem Sourced.later {before behind : List Event} {validation : Validation}
    (sourced : Sourced mode before behind validation) (event : Event) :
    Sourced mode before (behind ++ [event]) validation := by
  -- What is found is found at the start.
  unfold Sourced at sourced ⊢
  split at sourced
  · exact sourced
  · exact sourced
  · exact sourced.later event
  · exact sourced.later event

/-- A validation comes from its start to the phase of what it finds. -/
theorem Finds.sourced {before : List Event} {validation : Validation}
    {found : Obtained SettingsEntry}
    (finds : Finds mode before validation.id validation.document.uri found) :
    Sourced mode before [] { validation with phase := found.phase } := by
  -- Without settings of its own it waits for those of the request.
  cases found with
  | known settings => exact Gets.atOnce finds rfl
  | fetched entry =>
    cases entry with
    | answered settings => exact Gets.atOnce finds rfl
    | asked fetch => exact finds

/-- A validation that moves on after its start does so by what it has found and gets. -/
theorem Moves.sourced {before behind : List Event} {former later : Validation}
    {session : Session SettingsEntry}
    (moves : Moves ((fresh mode).run events).1 event session former later)
    (started : StartedAt mode events before behind former.id former.document)
    (inFlight : ((fresh mode).run events).1.validation? former.id = some former)
    (sourced : Sourced mode before behind former) :
    Sourced mode before (behind ++ [event]) later := by
  -- Only an answer brings anything new.
  cases moves with
  | stays => exact sourced.later event
  | lookedUp scheduled =>
    rw [Sourced, scheduled] at sourced
    exact absurd sourced id
  | @settled _ fetch values awaiting =>
    rw [Sourced, awaiting] at sourced
    refine Gets.answered sourced rfl ?_
    rw [← started.cut, inFlight, ← awaiting]
  | resumed configured =>
    have kept := sourced.later (.validationResumed former.id)
    rw [Sourced, configured] at kept
    exact kept

/-- Every validation that has moved was started in the run and is in its phase by its settings. -/
theorem sourced_run (grows : Along Grows (fresh mode) events) {validation : Validation}
    (inFlight : validation ∈ ((fresh mode).run events).1.validations)
    (moved : validation.phase ≠ .scheduled) :
    ∃ before behind, StartedAt mode events before behind validation.id validation.document ∧
      Sourced mode before behind validation := by
  -- It was started with the last event or has moved with it.
  revert validation
  refine run_induction (motive := fun events server _ => ∀ {validation},
    validation ∈ server.validations → validation.phase ≠ .scheduled →
    ∃ before behind, StartedAt mode events before behind validation.id validation.document ∧
      Sourced mode before behind validation) (by simp [fresh]) ?_ grows
  intro events event before _ ih later member moved
  have distinct := ((sound_fresh mode).run before).distinct
  rcases step_moved distinct event later member with scheduled | ⟨former, inFlight, moves⟩
  · exact absurd scheduled moved
  have found := distinct.validation?_eq inFlight
  by_cases scheduled : former.phase = .scheduled
  · obtain ⟨rfl, looked, obtained, rfl⟩ := moves.started scheduled moved
    refine ⟨events, [], ⟨rfl, ?_⟩, (finds_of_obtained found scheduled obtained).sourced⟩
    rw [found, ← scheduled]
  · obtain ⟨start, behind, started, sourced⟩ := ih inFlight scheduled
    have sameId : former.id = later.id := congrArg Prod.fst moves.brief
    have sameDocument : former.document = later.document := congrArg Prod.snd moves.brief
    refine ⟨start, behind ++ [event], ?_, moves.sourced started found sourced⟩
    rw [← sameId, ← sameDocument]
    exact started.later event

/-- Whether a validation of a document was started in a run and has got some settings since. -/
def Supplied (mode : Mode) (events : List Event) (id : ValidationId) (document : Document)
    (settings : Settings) : Prop :=
  -- The run is cut at the start.
  ∃ before behind, StartedAt mode events before behind id document ∧
    Gets mode before behind id document settings

/-- A validation calls the compiler under the settings that it has got. -/
theorem supplied_run (grows : Along Grows (fresh mode) events) {validation : Validation}
    {settings : Settings} (inFlight : validation ∈ ((fresh mode).run events).1.validations)
    (compiling : validation.phase = .compiling settings) :
    Supplied mode events validation.id validation.document settings := by
  -- They are those of its phase.
  obtain ⟨before, behind, started, sourced⟩ := sourced_run grows inFlight (by simp [compiling])
  rw [Sourced, compiling] at sourced
  exact ⟨before, behind, started, sourced⟩

end Server

end LanguageServer
