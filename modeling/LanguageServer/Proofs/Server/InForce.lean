import LanguageServer.Proofs.Server.Convergence
import LanguageServer.Proofs.Server.Fetch
import LanguageServer.Proofs.Server.Settings

/-! Which settings have the last word on a document, and when they are those in force. -/

namespace LanguageServer.Server

variable {out : Mode → String → String} {mode : Mode} {events : List Event} {event : Event}
  {uri : Uri}

/-- No event since the start of a validation has touched the choice of settings. -/
def CalmSince (mode : Mode) (before behind : List Event) (id : ValidationId) : Prop :=
  -- The start itself does not matter.
  Along Calm ((fresh mode).run before).1 (.validationStarted id :: behind)

/-- One more event is looked at in the state that the run has reached. -/
theorem StartedAt.calm_concat {before behind : List Event} {id : ValidationId}
    {document : Document} (started : StartedAt mode events before behind id document)
    (calm : CalmSince mode before (behind ++ [event]) id) :
    CalmSince mode before behind id ∧ ((fresh mode).run events).1.Calm event := by
  -- That state is the one behind the start and what came after it.
  rw [CalmSince, ← List.cons_append] at calm
  obtain ⟨former, last, -⟩ := along_append.mp calm
  refine ⟨former, ?_⟩
  rw [started.cut, run_append]
  exact last

/--
A validation that was started goes with what stands for its document.

The choice of settings must not have been touched since the start.
-/
theorem StartedAt.tuned {before behind : List Event} {id : ValidationId} {document : Document}
    (started : StartedAt mode events before behind id document)
    (grows : Along Grows (fresh mode) events) (calm : CalmSince mode before behind id) :
    ∀ validation ∈ ((fresh mode).run events).1.validations, validation.id = id →
      ((fresh mode).run events).1.Tuned validation := by
  -- The events behind the start are taken one after another.
  induction behind using List.reverseRecOn generalizing events with
  | nil =>
    obtain ⟨grown, last, -⟩ := along_append.mp (started.cut ▸ grows)
    have sound := (sound_fresh mode).run grown
    rw [started.cut, run_concat]
    refine sound.tuned_all last trivial ?_
    -- Before the start the validation has not looked for its settings.
    intro former inFlight same
    have found := sound.distinct.validation?_eq inFlight
    rw [same, started.scheduled] at found
    cases found
    exact tuned_of_scheduled rfl
  | append_singleton behind event ih =>
    have former : StartedAt mode (before ++ .validationStarted id :: behind) before behind id
        document := ⟨rfl, started.scheduled⟩
    have cut : events = before ++ .validationStarted id :: behind ++ [event] := by
      rw [started.cut]
      simp
    obtain ⟨calmBefore, calmNow⟩ := former.calm_concat calm
    obtain ⟨grown, last, -⟩ := along_append.mp (cut ▸ grows)
    rw [cut, run_concat]
    exact ((sound_fresh mode).run grown).tuned_all last calmNow (ih former grown calmBefore)

/-- The compiler's answer to a validation of a document. -/
def answerTo (out : Mode → String → String) (mode : Mode) (id : ValidationId)
    (document : Document) : Event :=
  -- It depends on the mode and on the text alone.
  .compilerAnswered (.validation id) (.ok (out mode document.text))

/--
The last word on a document in a run.

A validation of the document was started, has called the compiler under the settings that it got
since, and was the last to publish anything about the document.
-/
structure LastWord (out : Mode → String → String) (mode : Mode) (uri : Uri)
    (events before between behind : List Event) (id : ValidationId) (document : Document)
    (settings : Settings) : Prop where
  started : StartedAt mode events before (between ++ answerTo out mode id document :: behind) id
    document
  obtained : ((fresh mode).run (before ++ .validationStarted id :: between)).1.validation? id =
    some { id, document, phase := .compiling settings }
  supplied : Gets mode before between id document settings
  told : published uri (reaction mode (before ++ .validationStarted id :: between)
    (answerTo out mode id document)) = [verdict out mode document settings]
  silent : published uri (((fresh mode).run (before ++ .validationStarted id :: between ++
    [answerTo out mode id document])).1.run behind).2 = []

section LastWords

variable {before between behind : List Event} {id : ValidationId} {document : Document}
  {settings : Settings}

/-- The answer cuts the run a second time. -/
theorem LastWord.cut
    (last : LastWord out mode uri events before between behind id document settings) :
    events = before ++ .validationStarted id :: between ++ [answerTo out mode id document] ++
      behind := by
  -- It comes behind the start.
  rw [last.started.cut]
  simp

/-- The last word stays the last while nothing is published. -/
theorem LastWord.later
    (last : LastWord out mode uri events before between behind id document settings)
    (silent : published uri (reaction mode events event) = []) :
    LastWord out mode uri (events ++ [event]) before between (behind ++ [event]) id document
      settings where
  -- The cuts stay where they are.
  started := by simpa using last.started.later event
  obtained := last.obtained
  supplied := last.supplied
  told := last.told
  silent := by
    rw [reaction, last.cut, run_append] at silent
    rw [run_concat, published_append, last.silent, silent]
    rfl

end LastWords

/--
Whether the last word on a document has been spoken.

It was spoken under the settings in force if the choice of settings was not touched since its
validation was started.
-/
def Spoken (out : Mode → String → String) (mode : Mode) (uri : Uri) (events : List Event)
    (document : Document) : Prop :=
  -- The validation that spoke is one of possibly many.
  ∃ before between behind id settings,
    LastWord out mode uri events before between behind id document settings ∧
      (CalmSince mode before (between ++ answerTo out mode id document :: behind) id →
        ((fresh mode).run events).1.inForce? uri = some settings)

/-- The last word stays spoken while nothing is published and the document stays. -/
theorem Spoken.later {document : Document} (spoken : Spoken out mode uri events document)
    (silent : published uri (reaction mode events event) = []) (stays : ¬ Leaves uri event) :
    Spoken out mode uri (events ++ [event]) document := by
  -- Settings in force stay in force, too.
  obtain ⟨before, between, behind, id, settings, last, inForce⟩ := spoken
  refine ⟨before, between, behind ++ [event], id, settings, last.later silent, ?_⟩
  intro calm
  rw [← List.cons_append, ← List.append_assoc] at calm
  obtain ⟨calmBefore, calmNow⟩ := last.started.calm_concat calm
  rw [run_concat]
  exact inForce?_step (inForce calmBefore) calmNow stays

/-- The answer to a validation of the stored document is the last word on it. -/
theorem UpToDate.spoken {validation : Validation} {settings : Settings} {output : String}
    {publication : List Diagnostic × Option Int}
    (upToDate : UpToDate mode events validation settings output uri publication)
    (grows : Along Grows (fresh mode) events)
    (right : event = answerTo out mode validation.id validation.document) :
    Spoken out mode uri (events ++ [event]) validation.document := by
  -- The validation has got its settings since it was started, and its answer comes last.
  have sound := (sound_fresh mode).run grows
  obtain ⟨before, between, started, gets⟩ := upToDate.supplied
  refine ⟨before, between, [], validation.id, settings, ⟨?_, ?_, gets, ?_, rfl⟩, ?_⟩
  · rw [← right]
    exact started.later event
  · rw [← started.cut, sound.distinct.validation?_eq upToDate.inFlight, ← upToDate.obtained]
  · rw [← started.cut]
    exact sound.published_answered upToDate.inFlight upToDate.obtained upToDate.stored _
  · intro calm
    rw [← right] at calm
    obtain ⟨calmBefore, calmNow⟩ := started.calm_concat calm
    have filed : validation.document.uri = uri := sound.store.filed upToDate.stored
    have tuned := started.tuned grows calmBefore validation upToDate.inFlight rfl
    have agrees := tuned (by rw [filed]; exact upToDate.stored)
    rw [upToDate.obtained, filed] at agrees
    have stays : ¬ Leaves uri event := by
      rw [right]
      exact id
    rw [run_concat]
    exact inForce?_step agrees calmNow stays

end LanguageServer.Server
