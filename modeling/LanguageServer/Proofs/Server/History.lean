import LanguageServer.Proofs.Server.Sound

/-! Where the validations in flight come from, and what they have asked of the compiler. -/

namespace LanguageServer

/-- What a validation of a text has asked of the compiler when it is in a phase. -/
def Phase.calls (mode : Mode) (text : String) : Phase → List (Mode × String)
  -- The compiler is called once, at the start of the last phase.
  | .compiling _ => [(mode, text)]
  | _ => []

/-- A validation that does not wait for the compiler has asked nothing of it. -/
theorem Phase.calls_of_waiting {phase : Phase}
    (waiting : ∀ settings, phase ≠ .compiling settings) (mode : Mode) (text : String) :
    phase.calls mode text = [] := by
  -- Only the last phase is excluded.
  cases phase with
  | compiling settings => exact absurd rfl (waiting settings)
  | scheduled | awaiting | configured => rfl

/-- Phases that agree on waiting for the compiler agree on what has been asked of it. -/
theorem Phase.calls_congr {first second : Phase}
    (same : ∀ settings, first = .compiling settings ↔ second = .compiling settings) (mode : Mode)
    (text : String) : first.calls mode text = second.calls mode text := by
  -- The settings do not matter for the call.
  cases second with
  | compiling settings => rw [(same settings).mpr rfl]
  | scheduled | awaiting | configured =>
    exact calls_of_waiting (fun settings compiling => by cases (same settings).mp compiling) _ _

/-- One call is counted for the validation that makes it. -/
theorem invocations_invoke (id other : ValidationId) (mode : Mode) (source : String) :
    invocations id [.invoke (.validation other) mode source] =
      if other = id then [(mode, source)] else [] := by
  -- Other validations are passed over.
  by_cases same : other = id
  · simp [invocations, same]
  · simp [invocations, same]

namespace Server

/-- The log holds exactly the calls of the compiler that the validations have made so far. -/
structure Recorded (server : Server) (log : List Output) : Prop where
  inFlight : ∀ validation ∈ server.validations,
    invocations validation.id log = validation.phase.calls server.mode validation.document.text
  unborn : ∀ id : ValidationId, server.startedFor id.uri ≤ id.number → invocations id log = []

/-- Nothing is in the log of a fresh server. -/
theorem recorded_fresh (mode : Mode) : (fresh mode).Recorded [] where
  -- There are no validations either.
  inFlight := by simp [fresh]
  unborn _ _ := rfl

/-- The log stays right when no call is made and no validation turns to the compiler. -/
theorem Recorded.silent {server next : Server} {log outputs : List Output}
    (recorded : server.Recorded log) (mode : next.mode = server.mode)
    (origin : ∀ validation ∈ next.validations, ∃ former ∈ server.validations,
      former.brief = validation.brief ∧ ∀ settings,
        validation.phase = .compiling settings ↔ former.phase = .compiling settings)
    (started : next.started = server.started) (uncalled : ∀ id, invocations id outputs = []) :
    next.Recorded (log ++ outputs) := by
  -- The validation's former self has made the same calls.
  refine ⟨?_, ?_⟩
  · intro validation member
    obtain ⟨former, inFlight, brief, same⟩ := origin validation member
    have sameId : former.id = validation.id := congrArg Prod.fst brief
    have sameDocument : former.document = validation.document := congrArg Prod.snd brief
    have before := recorded.inFlight former inFlight
    rw [invocations_append, uncalled, List.append_nil, mode, ← sameId, ← sameDocument, before]
    exact (Phase.calls_congr same _ _).symm
  · intro id unborn
    rw [startedFor, started] at unborn
    rw [invocations_append, uncalled, List.append_nil]
    exact recorded.unborn id unborn

/-- The log stays right when a validation ends. -/
theorem Recorded.drop {server : Server} {log outputs : List Output}
    (recorded : server.Recorded log) (id : ValidationId)
    (uncalled : ∀ id, invocations id outputs = []) :
    (server.dropValidation id).Recorded (log ++ outputs) := by
  -- Those that are left have not changed.
  refine recorded.silent rfl ?_ rfl uncalled
  intro validation member
  exact ⟨validation, List.mem_of_mem_filter member, rfl, fun _ => Iff.rfl⟩

/-- The log stays right when no call is made and the validations stay as they are. -/
theorem Recorded.of_keeps {server next : Server} {log outputs : List Output}
    (recorded : server.Recorded log) (keeps : server.Keeps next)
    (mode : next.mode = server.mode) (uncalled : ∀ id, invocations id outputs = []) :
    next.Recorded (log ++ outputs) := by
  -- Every validation is its own former self.
  refine recorded.silent mode ?_ keeps.started uncalled
  intro validation member
  exact ⟨validation, keeps.validations ▸ member, rfl, fun _ => Iff.rfl⟩

/-- A validation that is scheduled has made no call. -/
theorem Recorded.schedule {server : Server} {log : List Output} (recorded : server.Recorded log)
    (document : Document) : (server.schedule document).Recorded log := by
  -- Its number is new.
  refine ⟨?_, ?_⟩
  · intro validation member
    rcases mem_schedule.mp member with former | rfl
    · exact recorded.inFlight validation former
    · exact recorded.unborn _ (Nat.le_refl _)
  · intro id unborn
    refine recorded.unborn id (Nat.le_trans ?_ unborn)
    rw [startedFor_schedule]
    split <;> omega

/-- Validations that are scheduled have made no call. -/
theorem Recorded.foldl_schedule {documents : List Document} {server : Server} {log : List Output}
    (recorded : server.Recorded log) : (documents.foldl Server.schedule server).Recorded log := by
  -- They are scheduled one after another.
  induction documents generalizing server with
  | nil => exact recorded
  | cons document rest ih => exact ih (recorded.schedule document)

/-- The call of a validation is added to the log. -/
theorem Recorded.call {server next : Server} {log : List Output} (recorded : server.Recorded log)
    (sound : server.Sound) (mode : next.mode = server.mode) {id : ValidationId}
    {validation : Validation} {settings : Settings}
    (found : server.validation? id = some validation)
    (waiting : ∀ settings, validation.phase ≠ .compiling settings)
    (validations : next.validations = (server.setPhase id (.compiling settings)).validations)
    (started : next.started = server.started) :
    next.Recorded
      (log ++ [.invoke (.validation id) server.mode validation.document.text]) := by
  -- The validation that calls is the only one of its identity and has not called before.
  obtain ⟨inFlight, rfl⟩ := validation?_some found
  refine ⟨?_, ?_⟩
  · intro other member
    rw [validations, setPhase, List.mem_map] at member
    obtain ⟨former, formerInFlight, rfl⟩ := member
    have before := recorded.inFlight former formerInFlight
    by_cases same : former.id = validation.id
    · have equal := sound.distinct.eq formerInFlight inFlight same
      subst equal
      rw [Phase.calls_of_waiting waiting] at before
      simp [invocations_invoke, before, Phase.calls, mode]
    · simp [same, invocations_invoke, Ne.symm same, before, mode]
  · intro other unborn
    rw [startedFor, started] at unborn
    have apart : validation.id ≠ other := by
      rintro rfl
      exact Nat.not_le_of_lt (sound.numbered validation inFlight) unborn
    rw [invocations_append, invocations_invoke, if_neg apart, List.append_nil]
    exact recorded.unborn other unborn

/-- Every event adds to the log what it calls. -/
theorem Recorded.step {server : Server} {log : List Output} (recorded : server.Recorded log)
    (sound : server.Sound) (event : Event) :
    (server.step event).1.Recorded (log ++ (server.step event).2) := by
  -- Only one of the effects calls the compiler for a validation.
  have effect := sound.effect event
  have mode := step_mode server event
  generalize (server.step event).1 = next at effect mode ⊢
  generalize (server.step event).2 = outputs at effect ⊢
  cases effect with
  | idle keeps quiet => exact recorded.of_keeps keeps mode quiet.invocations
  | closed keeps _ uncalled => exact recorded.of_keeps keeps mode uncalled
  | scheduled _ _ keeps quiet =>
    rw [foldl_schedule_mode] at mode
    exact (recorded.of_keeps keeps mode quiet.invocations).foldl_schedule
  | rephased change validations same started quiet =>
    refine recorded.silent mode ?_ started quiet.invocations
    intro validation member
    rw [validations] at member
    obtain ⟨former, inFlight, rfl⟩ := List.mem_map.mp member
    exact ⟨former, inFlight, rfl, same former inFlight⟩
  | called found waiting validations started =>
    exact recorded.call sound mode found waiting validations started
  | concluded _ _ _ _ uncalled => exact recorded.drop _ uncalled
  | dropped _ _ quiet => exact recorded.drop _ quiet.invocations

/-- A validation begins with a step, for a document as the step leaves it in the store. -/
structure Begins (server next : Server) (id : ValidationId) (document : Document) : Prop where
  unborn : server.validation? id = none
  scheduled : next.validation? id = some { id, document }
  stored : next.session.documents.find? id.uri = some document

/-- A validation that scheduling has added is for one of the documents and has a new number. -/
theorem mem_foldl_schedule {documents : List Document} {server : Server} {validation : Validation}
    (member : validation ∈ (documents.foldl schedule server).validations) :
    validation ∈ server.validations ∨
      validation.document ∈ documents ∧ validation.id.uri = validation.document.uri ∧
        validation.phase = .scheduled ∧
        server.startedFor validation.id.uri ≤ validation.id.number := by
  -- The documents are scheduled one after another, and numbers only grow.
  induction documents generalizing server with
  | nil => exact .inl member
  | cons document rest ih =>
    rcases ih member with former | ⟨listed, named, scheduled, numbered⟩
    · rcases mem_schedule.mp former with former | rfl
      · exact .inl former
      · exact .inr ⟨by simp, rfl, rfl, Nat.le_refl _⟩
    · refine .inr ⟨by simp [listed], named, scheduled, Nat.le_trans ?_ numbered⟩
      rw [startedFor_schedule]
      split <;> omega

/-- A validation that is in flight has a number that was given before. -/
theorem Sound.unborn {server : Server} (sound : server.Sound) {id : ValidationId}
    (new : server.startedFor id.uri ≤ id.number) : server.validation? id = none := by
  -- A validation that is found would have a smaller number.
  cases found : server.validation? id with
  | none => rfl
  | some former =>
    obtain ⟨inFlight, rfl⟩ := validation?_some found
    exact absurd new (Nat.not_le_of_lt (sound.numbered former inFlight))

/-- A validation in flight after an event was in flight before or begins with the event. -/
theorem Sound.origin {server : Server} (sound : server.Sound) {event : Event}
    (grows : server.Grows event) {validation : Validation}
    (member : validation ∈ (server.step event).1.validations) :
    (∃ former ∈ server.validations, former.brief = validation.brief) ∨
      server.Begins (server.step event).1 validation.id validation.document := by
  -- Only scheduling brings new validations.
  have next := sound.step grows
  have documents := step_documents server event
  have effect := sound.effect event
  generalize (server.step event).1 = later at effect member next documents ⊢
  generalize (server.step event).2 = outputs at effect
  cases effect with
  | idle keeps _ | closed keeps _ _ =>
    exact .inl ⟨validation, keeps.validations ▸ member, rfl⟩
  | scheduled scheduled held keeps _ =>
    rcases mem_foldl_schedule member with former | ⟨listed, named, fresh, new⟩
    · exact .inl ⟨validation, keeps.validations ▸ former, rfl⟩
    · rw [startedFor, keeps.started] at new
      refine .inr ⟨sound.unborn new, ?_, ?_⟩
      · rw [next.distinct.validation?_eq member, ← fresh]
      · rw [documents, named]
        exact held _ listed
  | rephased change validations _ _ _ =>
    rw [validations] at member
    obtain ⟨former, inFlight, rfl⟩ := List.mem_map.mp member
    exact .inl ⟨former, inFlight, rfl⟩
  | called _ _ validations _ =>
    have brief : validation.brief ∈ server.validations.map Validation.brief := by
      rw [← map_brief_setPhase, ← validations]
      exact List.mem_map_of_mem member
    exact .inl (List.mem_map.mp brief)
  | concluded | dropped => exact .inl ⟨validation, List.mem_of_mem_filter member, rfl⟩

/-- A validation began at some event of a run, for a document as that event left it. -/
def Begun (mode : Mode) (events : List Event) (id : ValidationId) (document : Document) : Prop :=
  -- The run is cut at that event.
  ∃ first event rest, events = first ++ event :: rest ∧
    ((fresh mode).run first).1.Begins (((fresh mode).run first).1.step event).1 id document

/-- What has begun stays begun. -/
theorem Begun.later {mode : Mode} {events : List Event} {id : ValidationId} {document : Document}
    (begun : Begun mode events id document) (event : Event) :
    Begun mode (events ++ [event]) id document := by
  -- The cut stays where it is.
  obtain ⟨first, cut, rest, rfl, begins⟩ := begun
  exact ⟨first, cut, rest ++ [event], by simp, begins⟩

variable {mode : Mode} {events : List Event}

/-- The log is right after every run in which versions grow. -/
theorem recorded_run (grows : Along Grows (fresh mode) events) :
    ((fresh mode).run events).1.Recorded ((fresh mode).run events).2 := by
  -- Every step keeps it right.
  refine run_induction (motive := fun _ server log => server.Recorded log) (recorded_fresh mode) ?_
    grows
  intro events event before _ recorded
  exact recorded.step ((sound_fresh mode).run before) event

/-- Every validation in flight after a run in which versions grow began in that run. -/
theorem begun_run (grows : Along Grows (fresh mode) events) {validation : Validation}
    (member : validation ∈ ((fresh mode).run events).1.validations) :
    Begun mode events validation.id validation.document := by
  -- It began with the last event or was there before it.
  revert validation
  refine run_induction (motive := fun events server _ => ∀ {validation},
    validation ∈ server.validations → Begun mode events validation.id validation.document)
    (by simp [fresh]) ?_ grows
  intro events event before grows ih validation member
  rcases ((sound_fresh mode).run before).origin grows member with ⟨former, inFlight, brief⟩ | begins
  · have sameId : former.id = validation.id := congrArg Prod.fst brief
    have sameDocument : former.document = validation.document := congrArg Prod.snd brief
    rw [← sameId, ← sameDocument]
    exact (ih inFlight).later event
  · exact ⟨events, event, [], rfl, begins⟩

end Server

end LanguageServer
