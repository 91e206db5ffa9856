import LanguageServer.Proofs.Server.Session

/-! Settings that are kept for a document were fetched since the configuration last changed. -/

namespace LanguageServer.Server

/-- The settings that are kept for a document, whether the client has answered for them or not. -/
def kept? (server : Server) (uri : Uri) : Option SettingsEntry :=
  -- They stand beside the settings of all documents.
  server.session.settings.fetched.find? uri

/-- How settings come to be kept for a document by an event. -/
inductive Keeping (server : Server) (uri : Uri) : Event → SettingsEntry → Prop where
  /-- They were kept before, and the configuration has not changed. -/
  | still {event : Event} {entry : SettingsEntry} (kept : server.kept? uri = some entry)
      (other : ∀ settings, event ≠ .configurationChanged settings) :
      Keeping server uri event entry
  /-- The client answers the request for them. -/
  | answered {fetch : FetchId} (values : Option (List Json))
      (kept : server.kept? uri = some (.asked fetch)) :
      Keeping server uri (.settingsAnswered fetch values)
        (.answered (settingsOfAnswer values).value)
  /-- A validation asks for them. -/
  | asked {id : ValidationId} (capable : server.session.capabilities.configuration = true)
      (told : .askSettings (server.nextFetch uri) ∈ (server.step (.validationStarted id)).2) :
      Keeping server uri (.validationStarted id) (.asked (server.nextFetch uri))

/-- Settings are kept only under a client that can be asked for them. -/
def Justified (server : Server) : Prop :=
  -- Such a client was the first to introduce itself.
  ∀ uri entry, server.kept? uri = some entry → server.session.capabilities.configuration = true

variable {server : Server} {event : Event} {uri : Uri}

/-- A look for settings that starts a fetch asks the client for them. -/
theorem lookUp_outputs {validation : Validation}
    (started : (server.session.settingsFor validation.document.uri
      (some (.asked (server.nextFetch validation.document.uri)))).started = true) :
    (server.lookUp validation).2 = [.askSettings (server.nextFetch validation.document.uri)] := by
  -- The request is the one that the look has found.
  rcases server.session.settingsFor_obtained validation.document.uri
    (some (.asked (server.nextFetch validation.document.uri))) with
      ⟨-, unstarted⟩ | ⟨_, -, -, unstarted⟩ | ⟨obtained, -⟩
  · rw [started] at unstarted
    cases unstarted
  · rw [started] at unstarted
    cases unstarted
  · simp [lookUp, obtained, started]

/-- Whatever is kept after an event has come to be kept in one of the ways. -/
theorem Justified.keeping (justified : server.Justified) {entry : SettingsEntry}
    (kept : (server.step event).1.kept? uri = some entry) : Keeping server uri event entry := by
  -- Few of the turns of a session bring anything.
  have turn := step_turns server event
  rw [kept?] at kept
  generalize (server.step event).1.session = session at turn kept
  cases turn with
  | kept other => exact .still kept other
  | negotiated =>
    rw [Session.negotiate_session] at kept
    exact .still kept (by simp)
  | opened | changed => exact .still kept (by simp)
  | closed other =>
    simp only [Session.close, SettingsCache.remove, Table.find?_erase] at kept
    split at kept
    · cases kept
    · exact .still kept (by simp)
  | cleared | discarded => cases kept
  | set settings incapable =>
    have capable := justified uri entry kept
    rw [incapable] at capable
    cases capable
  | @lookedUp id validation found scheduled =>
    rcases Session.settingsFor_session server.session validation.document.uri
      (some (.asked (server.nextFetch validation.document.uri))) with
        same | ⟨started, asked, capable, opened, absent, after⟩
    · rw [same] at kept
      exact .still kept (by simp)
    · rw [after] at kept
      simp only [Session.withSettings, Table.find?_insert] at kept
      split at kept
      · rename_i same
        subst same
        cases asked
        cases kept
        have look := Session.settingsFor_of_absent capable opened absent
          (.asked (server.nextFetch validation.document.uri))
        have told := lookUp_outputs (congrArg Lookup.started look)
        refine .asked capable ?_
        simp [step, validationStarted, found, scheduled, told]
      · exact .still kept (by simp)
  | @settled fetch values =>
    simp only [Session.withSettings, Table.find?_map] at kept
    obtain ⟨former, formerKept, rfl⟩ := Option.map_eq_some_iff.mp kept
    cases former with
    | answered settings => exact .still formerKept (by simp)
    | asked other =>
      by_cases same : other = fetch
      · subst same
        rw [SettingsEntry.settle, if_pos rfl]
        exact .answered values formerKept
      · rw [SettingsEntry.settle, if_neg same]
        exact .still formerKept (by simp)

/-- A client that can be asked for settings can be asked for them ever after. -/
theorem capable_step (capable : server.session.capabilities.configuration = true) (event : Event) :
    (server.step event).1.session.capabilities.configuration = true := by
  -- Features are fixed by the first introduction.
  have turn := step_turns server event
  generalize (server.step event).1.session = session at turn
  cases turn with
  | negotiated request capabilities =>
    rw [Session.negotiate_session]
    unfold Session.capabilities at capable ⊢
    cases negotiated : server.session.negotiated with
    | none => rw [negotiated] at capable; cases capable
    | some former => rw [negotiated] at capable; exact capable
  | lookedUp => rw [Session.settingsFor_frame]; exact capable
  | kept | opened | changed | closed | cleared | set | discarded | settled => exact capable

/-- Whatever comes to be kept is kept under a client that can be asked for it. -/
theorem Justified.step (justified : server.Justified) (event : Event) :
    (server.step event).1.Justified := by
  -- A client that could be asked before can still be asked.
  intro uri entry kept
  refine capable_step ?_ event
  cases justified.keeping kept with
  | still former => exact justified uri entry former
  | answered values former => exact justified uri _ former
  | asked capable => exact capable

/-- Settings are kept only under a client that can be asked for them throughout a run. -/
theorem Justified.run {server : Server} (justified : server.Justified) (events : List Event) :
    (server.run events).1.Justified := by
  -- Every step keeps it so.
  induction events generalizing server with
  | nil => exact justified
  | cons event rest ih => exact ih (justified.step event)

/-- A request for settings cuts a run, and the configuration has not changed since. -/
structure AskedAt (mode : Mode) (events before : List Event) (event : Event)
    (behind : List Event) (fetch : FetchId) : Prop where
  cut : events = before ++ event :: behind
  told : .askSettings fetch ∈ reaction mode before event
  unchanged : ∀ settings, .configurationChanged settings ∉ behind

/--
Where settings that are kept for a document come from in a run.

The request for them was made behind the last change of the configuration. If the client has
answered for them, they are those of its answer to that request, which had been kept until then.
-/
def Fetched (mode : Mode) (events : List Event) (uri : Uri) (entry : SettingsEntry) : Prop :=
  -- The request names the document.
  ∃ before event behind fetch, AskedAt mode events before event behind fetch ∧ fetch.uri = uri ∧
    (entry = .asked fetch ∨
      ∃ between values rest, behind = between ++ .settingsAnswered fetch values :: rest ∧
        ((fresh mode).run (before ++ event :: between)).1.kept? uri = some (.asked fetch) ∧
        entry = .answered (settingsOfAnswer values).value)

variable {mode : Mode} {events : List Event}

/-- What was asked stays asked while the configuration does not change. -/
theorem AskedAt.later {before behind : List Event} {cutting : Event} {fetch : FetchId}
    (asked : AskedAt mode events before cutting behind fetch)
    (other : ∀ settings, event ≠ .configurationChanged settings) :
    AskedAt mode (events ++ [event]) before cutting (behind ++ [event]) fetch where
  -- The cut stays where it is.
  cut := by rw [asked.cut]; simp
  told := asked.told
  unchanged := by
    intro settings member
    rcases List.mem_append.mp member with former | last
    · exact asked.unchanged settings former
    · exact other settings (List.mem_singleton.mp last).symm

/-- What was fetched stays fetched while the configuration does not change. -/
theorem Fetched.later {entry : SettingsEntry} (fetched : Fetched mode events uri entry)
    (other : ∀ settings, event ≠ .configurationChanged settings) :
    Fetched mode (events ++ [event]) uri entry := by
  -- An answer stays where it is, too.
  obtain ⟨before, cutting, behind, fetch, asked, about, origin⟩ := fetched
  refine ⟨before, cutting, behind ++ [event], fetch, asked.later other, about, ?_⟩
  rcases origin with same | ⟨between, values, rest, rfl, kept, same⟩
  · exact .inl same
  · exact .inr ⟨between, values, rest ++ [event], by simp, kept, same⟩

/-- An answer to the request for settings that are kept brings them. -/
theorem Fetched.answered {fetch : FetchId} (fetched : Fetched mode events uri (.asked fetch))
    (kept : ((fresh mode).run events).1.kept? uri = some (.asked fetch))
    (values : Option (List Json)) :
    Fetched mode (events ++ [.settingsAnswered fetch values]) uri
      (.answered (settingsOfAnswer values).value) := by
  -- It is the answer to the request that was kept, and comes last.
  obtain ⟨before, cutting, behind, request, asked, about, origin⟩ := fetched
  rcases origin with same | ⟨_, _, _, _, _, impossible⟩
  · cases same
    have other : ∀ settings, Event.settingsAnswered fetch values ≠
        .configurationChanged settings := by simp
    refine ⟨before, cutting, _, fetch, asked.later other, about,
      .inr ⟨behind, values, [], rfl, ?_, rfl⟩⟩
    rw [← asked.cut]
    exact kept
  · cases impossible

/-- What an event comes to keep has its origin in the run. -/
theorem Keeping.fetched {entry : SettingsEntry}
    (keeping : Keeping ((fresh mode).run events).1 uri event entry)
    (known : ∀ former, ((fresh mode).run events).1.kept? uri = some former →
      Fetched mode events uri former) :
    Fetched mode (events ++ [event]) uri entry := by
  -- A request that is made now is cut off at once.
  cases keeping with
  | still kept other => exact (known entry kept).later other
  | answered values kept => exact (known _ kept).answered kept values
  | asked _ told => exact ⟨events, _, [], _, ⟨rfl, told, by simp⟩, rfl, .inl rfl⟩

/-- All that is kept after a run was fetched in it since the configuration last changed. -/
theorem fetched_run (mode : Mode) (events : List Event) {uri : Uri} {entry : SettingsEntry}
    (kept : ((fresh mode).run events).1.kept? uri = some entry) :
    Fetched mode events uri entry := by
  -- It was kept before the last event or has come with it.
  have empty : (fresh mode).Justified := by
    intro uri entry kept
    cases kept
  induction events using List.reverseRecOn generalizing uri entry with
  | nil => cases kept
  | append_singleton events event ih =>
    rw [run_concat] at kept
    exact ((empty.run events).keeping kept).fetched fun _ former => ih former

end LanguageServer.Server
