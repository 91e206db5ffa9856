import LanguageServer.Proofs.Server.Publication

/-! Once all validations have ended, the last word on every document is the right one. -/

namespace LanguageServer.Server

variable {server : Server} {uri : Uri}

/-- Scheduling more validations leaves those that are in flight there. -/
theorem subset_foldl_schedule (documents : List Document) (server : Server) :
    server.validations ⊆ (documents.foldl schedule server).validations := by
  -- Each of the new ones comes behind the others.
  induction documents generalizing server with
  | nil => exact List.Subset.refl _
  | cons document rest ih =>
    intro validation inFlight
    exact ih (server.schedule document) (mem_schedule.mpr (.inl inFlight))

/-- The end of one validation leaves the others in flight. -/
theorem Sound.persists_drop (sound : server.Sound) {validation other : Validation}
    (inFlight : validation ∈ server.validations) {id : ValidationId}
    (found : server.validation? id = some other) :
    validation ∈ (server.dropValidation id).validations ∨ validation = other := by
  -- The validation that ends is the only one of its identity.
  by_cases same : validation.id = id
  · subst same
    rw [sound.distinct.validation?_eq inFlight] at found
    exact .inr (Option.some.inj found)
  · exact .inl (List.mem_filter.mpr ⟨inFlight, by simpa using same⟩)

/-- A validation stays in flight until the compiler has answered it. -/
theorem Sound.persists (sound : server.Sound) {validation : Validation}
    (inFlight : validation ∈ server.validations) (event : Event) :
    (∃ later ∈ (server.step event).1.validations, later.brief = validation.brief) ∨
      ∃ answer settings, event = .compilerAnswered (.validation validation.id) answer ∧
        validation.phase = .compiling settings := by
  -- Only two of the effects end a validation.
  have effect := sound.effect event
  generalize (server.step event).1 = next at effect ⊢
  generalize (server.step event).2 = outputs at effect
  cases effect with
  | idle keeps _ | closed keeps _ _ =>
    exact .inl ⟨validation, keeps.validations ▸ inFlight, rfl⟩
  | scheduled _ _ keeps _ =>
    exact .inl ⟨validation, subset_foldl_schedule _ _ (keeps.validations ▸ inFlight), rfl⟩
  | rephased change validations _ _ _ =>
    rw [validations]
    exact .inl ⟨_, List.mem_map_of_mem inFlight, rfl⟩
  | called _ _ validations _ =>
    rw [validations]
    refine .inl (List.mem_map.mp ?_)
    rw [map_brief_setPhase]
    exact List.mem_map_of_mem inFlight
  | concluded found compiling _ _ _ | dropped found compiling _ =>
    rcases sound.persists_drop inFlight found with stays | rfl
    · exact .inl ⟨validation, stays, rfl⟩
    · obtain ⟨-, rfl⟩ := validation?_some found
      exact .inr ⟨_, _, rfl, compiling⟩

/-- A document that is there after an event was there before it or is being validated. -/
theorem found_step {event : Event} {document : Document}
    (found : (server.step event).1.session.documents.find? uri = some document) :
    server.session.documents.find? uri = some document ∨
      ∃ validation ∈ (server.step event).1.validations, validation.document = document := by
  -- An open and an edit schedule a validation of the document that they bring.
  rw [step_documents] at found
  cases event with
  | documentOpened other languageId version text =>
    rw [follow, DocumentStore.find?_add] at found
    split at found
    · cases found
      exact .inr ⟨_, mem_schedule.mpr (.inr rfl), rfl⟩
    · exact .inl found
  | documentChanged other version changes =>
    rw [follow, DocumentStore.find?_change] at found
    split at found
    · obtain ⟨former, held, rfl⟩ := Option.map_eq_some_iff.mp found
      simp only [step, documentChanged, DocumentStore.change_of_found held]
      exact .inr ⟨_, mem_schedule.mpr (.inr rfl), rfl⟩
    · exact .inl found
  | documentClosed other =>
    rw [follow, DocumentStore.find?_remove] at found
    split at found
    · cases found
    · exact .inl found
  | shutdownAsked request => cases found
  | _ => exact .inl found

/-- Until the end of the session a document is there as its last open or close says. -/
theorem isSome_step {event : Event} (lasting : ∀ request, event ≠ .shutdownAsked request)
    (uri : Uri) :
    ((server.step event).1.session.documents.find? uri).isSome =
      (event.opening? uri).getD (server.session.documents.find? uri).isSome := by
  -- Edits neither bring a document nor take it away.
  rw [step_documents]
  cases event with
  | documentOpened other languageId version text =>
    rw [follow, DocumentStore.find?_add]
    by_cases same : uri = other
    · simp [Event.opening?, same]
    · simp [Event.opening?, same, Ne.symm same]
  | documentChanged other version changes =>
    rw [follow, DocumentStore.find?_change]
    by_cases same : uri = other
    · simp [Event.opening?, same]
    · simp [Event.opening?, same]
  | documentClosed other =>
    rw [follow, DocumentStore.find?_remove]
    by_cases same : uri = other
    · simp [Event.opening?, same]
    · simp [Event.opening?, same, Ne.symm same]
  | shutdownAsked request => exact absurd rfl (lasting request)
  | _ => rfl

/-- Whether the last event that opens or closes a document opens it. -/
def lastOpening? (uri : Uri) (events : List Event) : Option Bool :=
  -- Documents that are neither opened nor closed have none.
  (events.filterMap (Event.opening? uri)).getLast?

/-- One more event counts if it opens or closes the document. -/
theorem lastOpening?_concat (uri : Uri) (events : List Event) (event : Event) :
    lastOpening? uri (events ++ [event]) = (event.opening? uri).or (lastOpening? uri events) := by
  -- It is the last one then.
  unfold lastOpening?
  rw [List.filterMap_append]
  cases opening : event.opening? uri with
  | none => simp [opening]
  | some opens => simp [opening]

/--
The compiler answers every validation by a function of the mode and the text.

The mode and the text are those with which the validation has called it.
-/
def Answered (out : Mode → String → String) (mode : Mode) (events : List Event) : Prop :=
  -- The run is cut at each of the answers.
  ∀ first id answer rest, events = first ++ .compilerAnswered (.validation id) answer :: rest →
    ∀ call ∈ invocations id ((fresh mode).run first).2, answer = .ok (out call.1 call.2)

/-- Nothing is asked of a run without answers. -/
theorem answered_of_unanswered {out : Mode → String → String} {mode : Mode} {events : List Event}
    (unanswered : ∀ id answer, .compilerAnswered (.validation id) answer ∉ events) :
    Answered out mode events := by
  -- There is no answer at which it could be cut.
  rintro first id answer rest rfl
  exact absurd (by simp) (unanswered id answer)

/-- One more event is looked at with all calls that were made before it. -/
theorem answered_concat {out : Mode → String → String} {mode : Mode} {events : List Event}
    {event : Event} :
    Answered out mode (events ++ [event]) ↔ Answered out mode events ∧
      ∀ id answer, event = .compilerAnswered (.validation id) answer →
        ∀ call ∈ invocations id ((fresh mode).run events).2, answer = .ok (out call.1 call.2) := by
  -- The longer run is cut at its last event or inside the shorter one.
  constructor
  · intro answered
    refine ⟨?_, ?_⟩
    · rintro first id answer rest rfl
      exact answered first id answer (rest ++ [event]) (by simp)
    · rintro id answer rfl
      exact answered events id answer [] rfl
  · rintro ⟨before, last⟩ first id answer rest cut
    cases rest using List.reverseRecOn with
    | nil =>
      obtain ⟨rfl, same⟩ := List.append_inj' cut rfl
      exact last id answer (List.head_eq_of_cons_eq same)
    | append_singleton rest final =>
      rw [← List.cons_append, ← List.append_assoc] at cut
      obtain ⟨same, -⟩ := List.append_inj' cut rfl
      exact before first id answer rest same

/-- An answer to the only call of a validation is right if it is the one for that call. -/
theorem Answered.concat {out : Mode → String → String} {mode called : Mode} {events : List Event}
    {id : ValidationId} {text : String} (answered : Answered out mode events)
    (calls : invocations id ((fresh mode).run events).2 = [(called, text)]) :
    Answered out mode
      (events ++ [.compilerAnswered (.validation id) (.ok (out called text))]) := by
  -- No other call is answered by it.
  refine answered_concat.mpr ⟨answered, ?_⟩
  rintro other answer same call made
  cases same
  rw [calls] at made
  rw [List.mem_singleton.mp made]

/--
Whether a validation of a document called the compiler under some settings in a run.

The settings are those that it got from the client since it was started.
-/
def ValidatedUnder (mode : Mode) (events : List Event) (document : Document)
    (settings : Settings) : Prop :=
  -- It was in flight after a part of the run.
  ∃ first rest validation, events = first ++ rest ∧
    validation ∈ ((fresh mode).run first).1.validations ∧ validation.document = document ∧
    validation.phase = .compiling settings ∧ Supplied mode first validation.id document settings

/-- What a validation of a document publishes under some settings. -/
def verdict (out : Mode → String → String) (mode : Mode) (document : Document)
    (settings : Settings) : List Diagnostic × Option Int :=
  -- It tells the version that it is about.
  ((diagnose (out mode document.text)).value.toList.take settings.maxProblems,
    some document.version)

/--
The invariant of convergence for one document.

What was published last for an open document is right unless the document is being validated.
-/
structure Converging (out : Mode → String → String) (mode : Mode) (uri : Uri)
    (events : List Event) (server : Server) (log : List Output) : Prop where
  shown : ∀ document, server.session.documents.find? uri = some document →
    (∃ validation ∈ server.validations, validation.document = document) ∨
      ∃ settings, ValidatedUnder mode events document settings ∧
        (published uri log).getLast? = some (verdict out mode document settings)
  withdrawn : lastOpening? uri events = some false →
    (published uri log).getLast? = some ([], none)
  opened : (server.session.documents.find? uri).isSome = true ↔
    lastOpening? uri events = some true

variable {out : Mode → String → String} {mode : Mode} {events : List Event} {event : Event}

/-- What was validated in a run was validated in every longer run. -/
theorem ValidatedUnder.later {document : Document} {settings : Settings}
    (validated : ValidatedUnder mode events document settings) (event : Event) :
    ValidatedUnder mode (events ++ [event]) document settings := by
  -- The cut stays where it is.
  obtain ⟨first, rest, validation, rfl, cut⟩ := validated
  exact ⟨first, rest ++ [event], validation, by simp, cut⟩

/-- The answer to a validation is the compiler's for the text of its document. -/
theorem Answered.answer_eq (answered : Answered out mode (events ++ [event]))
    (grows : Along Grows (fresh mode) events) {validation : Validation} {settings : Settings}
    (inFlight : validation ∈ ((fresh mode).run events).1.validations)
    (compiling : validation.phase = .compiling settings) {answer : Except InvocationError String}
    (ended : event = .compilerAnswered (.validation validation.id) answer) :
    answer = .ok (out mode validation.document.text) := by
  -- The log holds the call.
  have calls := (recorded_run grows).inFlight validation inFlight
  rw [compiling, run_mode] at calls
  refine (answered_concat.mp answered).2 validation.id answer ended
    (mode, validation.document.text) ?_
  rw [calls]
  exact List.mem_singleton.mpr rfl

/-- What is published for a document that stays open is right. -/
theorem Answered.verdict_of_told (answered : Answered out mode (events ++ [event]))
    (grows : Along Grows (fresh mode) events) {document : Document}
    (stored : ((fresh mode).run events).1.session.documents.find? uri = some document)
    (another : event ≠ .documentClosed uri) {publication : List Diagnostic × Option Int}
    (told : publication ∈ published uri (reaction mode events event)) :
    ∃ settings, ValidatedUnder mode events document settings ∧
      publication = verdict out mode document settings := by
  -- It comes from a validation of the stored document, whose text the compiler was given.
  rcases published_reaction grows told with
    ⟨closed, -⟩ | ⟨validation, settings, output, ended, upToDate⟩
  · exact absurd closed another
  · have same := stored.symm.trans upToDate.stored
    cases same
    refine ⟨settings, ⟨events, [], validation, by simp, upToDate.inFlight, rfl,
      upToDate.obtained, upToDate.supplied⟩, ?_⟩
    have answer := answered.answer_eq grows upToDate.inFlight upToDate.obtained ended
    cases answer
    exact upToDate.published

/-- A validation of the stored document goes on as long as nothing is published. -/
theorem Answered.goes_on (answered : Answered out mode (events ++ [event]))
    (grows : Along Grows (fresh mode) events) {validation : Validation}
    (inFlight : validation ∈ ((fresh mode).run events).1.validations)
    (stored : ((fresh mode).run events).1.session.documents.find? uri = some validation.document)
    (silent : published uri (reaction mode events event) = []) :
    ∃ later ∈ (((fresh mode).run events).1.step event).1.validations,
      later.document = validation.document := by
  -- It would publish if it ended.
  have sound := (sound_fresh mode).run grows
  rcases sound.persists inFlight event with ⟨later, stays, brief⟩ |
    ⟨answer, settings, rfl, compiling⟩
  · exact ⟨later, stays, congrArg Prod.snd brief⟩
  · have right := answered.answer_eq grows inFlight compiling rfl
    subst right
    have loud := sound.published_answered inFlight compiling stored
      (out mode validation.document.text)
    rw [reaction, loud] at silent
    cases silent

/-- A document that an event leaves open is being validated or was told about rightly. -/
theorem Converging.shown_step
    (converging : Converging out mode uri events ((fresh mode).run events).1
      ((fresh mode).run events).2)
    (grows : Along Grows (fresh mode) events) (answered : Answered out mode (events ++ [event]))
    {document : Document}
    (found : (((fresh mode).run events).1.step event).1.session.documents.find? uri =
      some document) :
    (∃ validation ∈ (((fresh mode).run events).1.step event).1.validations,
      validation.document = document) ∨
      ∃ settings, ValidatedUnder mode (events ++ [event]) document settings ∧
        (published uri (((fresh mode).run events).2 ++ reaction mode events event)).getLast? =
          some (verdict out mode document settings) := by
  -- A new document is being validated; for another one it matters whether anything is published.
  rcases found_step found with stored | validated
  · have another : event ≠ .documentClosed uri := by
      rintro rfl
      have leaves : Leaves uri (.documentClosed uri) := rfl
      rw [find?_of_leaves leaves] at found
      cases found
    rw [published_append]
    cases told : (published uri (reaction mode events event)).getLast? with
    | some publication =>
      obtain ⟨settings, validated, right⟩ := answered.verdict_of_told grows stored another
        (List.mem_of_getLast? told)
      refine .inr ⟨settings, validated.later event, ?_⟩
      rw [List.getLast?_append, told, right]
      rfl
    | none =>
      have silent := List.getLast?_eq_none_iff.mp told
      rw [silent, List.append_nil]
      rcases converging.shown document stored with ⟨validation, inFlight, rfl⟩ |
        ⟨settings, validated, right⟩
      · exact .inl (answered.goes_on grows inFlight stored silent)
      · exact .inr ⟨settings, validated.later event, right⟩
  · exact .inl validated

/-- The invariant of convergence is kept by every event but the end of the session. -/
theorem Converging.step
    (converging : Converging out mode uri events ((fresh mode).run events).1
      ((fresh mode).run events).2)
    (grows : Along Grows (fresh mode) events) (answered : Answered out mode (events ++ [event]))
    (lasting : ∀ request, event ≠ .shutdownAsked request) :
    Converging out mode uri (events ++ [event]) (((fresh mode).run events).1.step event).1
      (((fresh mode).run events).2 ++ (((fresh mode).run events).1.step event).2) where
  -- What is told about a closed document is told by the close itself.
  shown document found := converging.shown_step grows answered found
  withdrawn := by
    rw [lastOpening?_concat, published_append]
    intro last
    by_cases closed : event = .documentClosed uri
    · subst closed
      simp [Server.step, published_documentClosed]
    · -- The document has been closed before, so that nothing is told about it now.
      have former : lastOpening? uri events = some false := by
        cases opening : event.opening? uri with
        | none => simpa [opening] using last
        | some opens =>
          simp only [opening, Option.some_or, Option.some.injEq] at last
          exact absurd (Event.opening?_eq_false.mp (last ▸ opening)) closed
      have absent : ((fresh mode).run events).1.session.documents.find? uri = none := by
        rw [← Option.not_isSome_iff_eq_none, converging.opened, former]
        simp
      have silent := published_of_absent grows absent closed
      rw [reaction] at silent
      rw [silent, List.append_nil]
      exact converging.withdrawn former
  opened := by
    rw [isSome_step lasting, lastOpening?_concat]
    cases event.opening? uri with
    | none => exact converging.opened
    | some opens => simp

/-- Nothing has been told about any document at first. -/
theorem converging_fresh (out : Mode → String → String) (mode : Mode) (uri : Uri) :
    Converging out mode uri [] (fresh mode) [] where
  -- There are no documents and no events.
  shown document found := by cases found
  withdrawn last := by cases last
  opened := by constructor <;> intro impossible <;> cases impossible

/-- The invariant of convergence holds after every run in which the session does not end. -/
theorem converging_run (grows : Along Grows (fresh mode) events)
    (answered : Answered out mode events) (lasting : ∀ request, .shutdownAsked request ∉ events)
    (uri : Uri) :
    Converging out mode uri events ((fresh mode).run events).1 ((fresh mode).run events).2 := by
  -- Every step keeps it, and what is asked of a run is asked of its parts.
  revert answered lasting
  refine run_induction (motive := fun events server log => Answered out mode events →
    (∀ request, .shutdownAsked request ∉ events) → Converging out mode uri events server log)
    ?_ ?_ grows
  · exact fun _ _ => converging_fresh out mode uri
  · intro events event grows _ ih answered lasting
    refine Converging.step (ih ?_ ?_) grows answered ?_
    · exact (answered_concat.mp answered).1
    · intro request member
      exact lasting request (List.mem_append_left _ member)
    · rintro request rfl
      exact lasting request (by simp)

/--
Diagnostics converge.

Once all validations of a run have ended, the last diagnostics that were published for an open
document are those of its current text at its current version, as many as the settings allow that a
validation of that very document got from the client. The last that were published for a closed
document take all of them back. A document is open or closed as its last open or close says.
-/
theorem diagnostics_converge (grows : Along Grows (fresh mode) events)
    (answered : Answered out mode events) (lasting : ∀ request, .shutdownAsked request ∉ events)
    (ended : ((fresh mode).run events).1.validations = []) (uri : Uri) :
    (∀ document, ((fresh mode).run events).1.session.documents.find? uri = some document →
      ∃ settings, ValidatedUnder mode events document settings ∧
        (published uri ((fresh mode).run events).2).getLast? =
          some ((diagnose (out mode document.text)).value.toList.take settings.maxProblems,
            some document.version)) ∧
    (lastOpening? uri events = some false →
      (published uri ((fresh mode).run events).2).getLast? = some ([], none)) ∧
    ((((fresh mode).run events).1.session.documents.find? uri).isSome = true ↔
      lastOpening? uri events = some true) := by
  -- No document is being validated any more.
  have converging := converging_run grows answered lasting uri
  refine ⟨?_, converging.withdrawn, converging.opened⟩
  intro document found
  rcases converging.shown document found with ⟨validation, inFlight, -⟩ | right
  · rw [ended] at inFlight
    cases inFlight
  · exact right

/-- A document is edited while it is validated, and another one is closed. -/
theorem diagnostics_converge_overtaking :
    let edited : Uri := ⟨"file:///edited.mypl"⟩
    let closed : Uri := ⟨"file:///closed.mypl"⟩
    let out (_ : Mode) (text : String) : String := "Parse error: " ++ text ++ " at line 1 column 1"
    let answered (uri : Uri) (number : Nat) (text : String) : Event :=
      .compilerAnswered (.validation ⟨uri, number⟩) (.ok (out .check text))
    let work : List Event :=
      [.documentOpened edited "mypl" 1 "x", .documentOpened closed "mypl" 7 "z",
        .validationStarted ⟨edited, 0⟩, .documentChanged edited 2 [⟨none, "y"⟩],
        .validationStarted ⟨edited, 1⟩, .validationStarted ⟨closed, 0⟩, .documentClosed closed]
    let events := work ++ [answered edited 1 "y"] ++ [answered edited 0 "x"] ++
      [answered closed 0 "z"]
    (Along Grows (fresh .check) events ∧ Answered out .check events ∧
      (∀ request, .shutdownAsked request ∉ events) ∧
      ((fresh .check).run events).1.validations = []) ∧
    (∃ settings, ValidatedUnder .check events ⟨edited, "mypl", 2, "y", 1⟩ settings ∧
      (published edited ((fresh .check).run events).2).getLast? =
        some ((diagnose (out .check "y")).value.toList.take settings.maxProblems, some 2)) ∧
    (published closed ((fresh .check).run events).2).getLast? = some ([], none) := by
  intro edited closed out answered work events
  have grows : Along Grows (fresh .check) events := by decide +kernel
  have right : Answered out .check events := by
    have unanswered : Answered out .check work := answered_of_unanswered (by simp [work])
    have second : invocations ⟨edited, 1⟩ ((fresh .check).run work).2 = [(.check, "y")] := by
      decide +kernel
    have first : invocations ⟨edited, 0⟩
        ((fresh .check).run (work ++ [answered edited 1 "y"])).2 = [(.check, "x")] := by
      decide +kernel
    have other : invocations ⟨closed, 0⟩ ((fresh .check).run
        (work ++ [answered edited 1 "y"] ++ [answered edited 0 "x"])).2 = [(.check, "z")] := by
      decide +kernel
    exact ((unanswered.concat second).concat first).concat other
  have lasting : ∀ request, .shutdownAsked request ∉ events := by simp [events, work, answered]
  have ended : ((fresh .check).run events).1.validations = [] := by decide +kernel
  have stored : ((fresh .check).run events).1.session.documents.find? edited =
      some ⟨edited, "mypl", 2, "y", 1⟩ := by
    decide +kernel
  have last : lastOpening? closed events = some false := by decide +kernel
  refine ⟨⟨grows, right, lasting, ended⟩, ?_, ?_⟩
  · exact (diagnostics_converge grows right lasting ended edited).1 _ stored
  · exact (diagnostics_converge grows right lasting ended closed).2.1 last

end LanguageServer.Server
