import Mathlib.Data.List.Perm.Basic
import LanguageServer.Proofs.Server.Sound

/-! Every reason to validate a document brings one run of the compiler, and nothing else does. -/

namespace LanguageServer

/-- The runs of the compiler that outputs ask for on behalf of validations. -/
def validationCalls (outputs : List Output) : List (Mode × String) :=
  -- Formatting requests are passed over.
  outputs.filterMap fun output => match output with
    | .invoke (.validation _) mode source => some (mode, source)
    | _ => none

/-- What two lists of outputs ask of the compiler for validations is asked by both in turn. -/
@[simp] theorem validationCalls_append (first second : List Output) :
    validationCalls (first ++ second) = validationCalls first ++ validationCalls second :=
  -- Outputs are looked at one by one.
  List.filterMap_append

/-- Notices ask nothing of the compiler. -/
@[simp] theorem validationCalls_notes (notices : List Notice) :
    validationCalls (notes notices) = [] := by
  -- They go to the log alone.
  simp [validationCalls, notes]

/-- The run of the compiler that a validation of a text still has to ask for in a phase. -/
def Phase.owes (mode : Mode) (text : String) : Phase → List (Mode × String)
  -- The compiler is called at the start of the last phase.
  | .scheduled | .awaiting _ | .configured _ => [(mode, text)]
  | .compiling _ => []

/-- A validation that does not wait for the compiler has yet to call it. -/
theorem Phase.owes_of_waiting {phase : Phase} (waiting : ∀ settings, phase ≠ .compiling settings)
    (mode : Mode) (text : String) : phase.owes mode text = [(mode, text)] := by
  -- Only the last phase is excluded.
  cases phase with
  | compiling settings => exact absurd rfl (waiting settings)
  | scheduled | awaiting | configured => rfl

/-- A settings request that is answered calls no compiler. -/
theorem owes_settlePhase (fetch : FetchId) (settings : Settings) (phase : Phase) (mode : Mode)
    (text : String) :
    (Server.settlePhase fetch settings phase).owes mode text = phase.owes mode text := by
  -- Before and after the answer the compiler has not been called.
  cases phase with
  | awaiting other =>
    simp only [Server.settlePhase]
    split
    · rfl
    · rfl
  | scheduled | configured | compiling => rfl

namespace Server

/-- The runs of the compiler that the validations in flight still have to ask for. -/
def owed (server : Server) : List (Mode × String) :=
  -- Each validation asks in the mode of the server for the text that it was given.
  server.validations.flatMap fun validation =>
    validation.phase.owes server.mode validation.document.text

/-- The runs of the compiler that an event calls for, with the documents that it finds. -/
def triggered (mode : Mode) (store : DocumentStore) : Event → List (Mode × String)
  -- A changed configuration calls for one run for each open document.
  | .documentOpened _ _ _ text => [(mode, text)]
  | .documentChanged uri _ changes => (store.find? uri).toList.map fun document =>
    (mode, changes.foldl Change.apply document.text)
  | .configurationChanged _ => store.all.map fun document => (mode, document.text)
  | _ => []

/-- The runs of the compiler that events call for, one event after another. -/
def triggers (mode : Mode) (store : DocumentStore) : List Event → List (Mode × String)
  -- Each event finds the documents as the one before it left them.
  | [] => []
  | event :: rest => triggered mode store event ++ triggers mode (follow store event) rest

/--
Whether a step asks for what it is called for or leaves it to be asked for.

Together with what was owed before the step, that is what the step asks for and what is owed
behind it.
-/
def Balanced (server : Server) (called : List (Mode × String)) (step : Step) : Prop :=
  -- The order in which the compiler is called does not matter.
  (validationCalls step.2 ++ step.1.owed).Perm (server.owed ++ called)

variable {server : Server} {validation : Validation}

/-- A step that leaves the validations alone is balanced. -/
theorem balanced_of_same {step : Step} (mode : step.1.mode = server.mode)
    (validations : step.1.validations = server.validations)
    (uncalled : validationCalls step.2 = []) : server.Balanced [] step := by
  -- What is owed stays owed.
  simp only [Balanced, owed, mode, validations, uncalled, List.nil_append, List.append_nil]
  exact List.Perm.refl _

/-- A step that only moves validations between phases before the last is balanced. -/
theorem balanced_of_rephased {step : Step} (change : Validation → Phase)
    (mode : step.1.mode = server.mode)
    (validations : step.1.validations = server.validations.map fun validation =>
      { validation with phase := change validation })
    (same : ∀ validation ∈ server.validations, ∀ text,
      (change validation).owes server.mode text = validation.phase.owes server.mode text)
    (uncalled : validationCalls step.2 = []) : server.Balanced [] step := by
  -- Each validation owes what it owed.
  have stays : step.1.owed = server.owed := by
    unfold owed
    rw [validations, mode, List.flatMap_map]
    exact List.flatMap_congr fun validation inFlight => same validation inFlight _
  rw [Balanced, uncalled, stays, List.nil_append, List.append_nil]

/-- The validations around one of them have other identities. -/
theorem Distinct.cut (distinct : server.Distinct) (inFlight : validation ∈ server.validations) :
    ∃ before behind, server.validations = before ++ validation :: behind ∧
      (∀ other ∈ before, other.id ≠ validation.id) ∧
      ∀ other ∈ behind, other.id ≠ validation.id := by
  -- The list of identities holds none of them twice.
  obtain ⟨before, behind, parts⟩ := List.append_of_mem inFlight
  have ids := distinct
  rw [Distinct, parts, List.map_append, List.map_cons, List.nodup_middle, List.nodup_cons,
    List.mem_append] at ids
  refine ⟨before, behind, parts, ?_, ?_⟩
  · intro other member same
    exact ids.1 (.inl (same ▸ List.mem_map_of_mem member))
  · intro other member same
    exact ids.1 (.inr (same ▸ List.mem_map_of_mem member))

/-- A new phase for one of the validations is set at its place. -/
theorem setPhase_cut {before behind : List Validation}
    (parts : server.validations = before ++ validation :: behind)
    (early : ∀ other ∈ before, other.id ≠ validation.id)
    (late : ∀ other ∈ behind, other.id ≠ validation.id) (phase : Phase) :
    (server.setPhase validation.id phase).validations =
      before ++ { validation with phase } :: behind := by
  -- The others do not have its identity.
  have stays : ∀ others : List Validation, (∀ other ∈ others, other.id ≠ validation.id) →
      others.map (fun other => if other.id = validation.id then { other with phase } else other) =
        others := by
    intro others apart
    refine (List.map_congr_left fun other member => ?_).trans (List.map_id others)
    exact if_neg (apart other member)
  simp only [setPhase, parts, List.map_append, List.map_cons, stays before early, stays behind late,
    if_true]

/-- A validation that calls the compiler owes nothing any more. -/
theorem Distinct.balanced_called (distinct : server.Distinct) {id : ValidationId}
    (found : server.validation? id = some validation)
    (waiting : ∀ settings, validation.phase ≠ .compiling settings) {settings : Settings}
    {step : Step} (mode : step.1.mode = server.mode)
    (validations : step.1.validations = (server.setPhase id (.compiling settings)).validations)
    (called : step.2 = [.invoke (.validation id) server.mode validation.document.text]) :
    server.Balanced [] step := by
  -- Its call is the one that it owed.
  obtain ⟨inFlight, rfl⟩ := validation?_some found
  obtain ⟨before, behind, parts, early, late⟩ := distinct.cut inFlight
  rw [Balanced, called, owed, validations, setPhase_cut parts early late, mode, owed, parts,
    List.flatMap_append, List.flatMap_append, List.flatMap_cons, List.flatMap_cons,
    Phase.owes_of_waiting waiting, List.append_nil]
  have paid : (Phase.compiling settings).owes server.mode validation.document.text = [] := rfl
  have asked : validationCalls
      [.invoke (.validation validation.id) server.mode validation.document.text] =
        [(server.mode, validation.document.text)] := rfl
  rw [paid, asked, List.nil_append, List.singleton_append, List.singleton_append]
  exact List.perm_middle.symm

/-- The end of a validation that has called the compiler leaves nothing owed. -/
theorem Distinct.balanced_dropped (distinct : server.Distinct) {id : ValidationId}
    (found : server.validation? id = some validation) {settings : Settings}
    (compiling : validation.phase = .compiling settings) {outputs : List Output}
    (uncalled : validationCalls outputs = []) :
    server.Balanced [] (server.dropValidation id, outputs) := by
  -- The others are still in flight.
  obtain ⟨inFlight, rfl⟩ := validation?_some found
  obtain ⟨before, behind, parts, early, late⟩ := distinct.cut inFlight
  have kept : ∀ others : List Validation, (∀ other ∈ others, other.id ≠ validation.id) →
      others.filter (fun other => other.id ≠ validation.id) = others := by
    intro others apart
    exact List.filter_eq_self.mpr fun other member => by simpa using apart other member
  have left : (server.dropValidation validation.id).validations = before ++ behind := by
    rw [dropValidation, parts, List.filter_append, kept before early,
      List.filter_cons_of_neg (by simp), kept behind late]
  have owes : (server.dropValidation validation.id).owed = server.owed := by
    rw [owed, left, owed, parts]
    simp only [List.flatMap_append, List.flatMap_cons, compiling, Phase.owes, List.nil_append]
    rfl
  rw [Balanced, uncalled, owes, List.nil_append, List.append_nil]

/-- A validation that is scheduled has yet to call the compiler. -/
theorem owed_schedule (server : Server) (document : Document) :
    (server.schedule document).owed = server.owed ++ [(server.mode, document.text)] := by
  -- It comes behind the others.
  simp only [owed, schedule, List.flatMap_append, List.flatMap_cons, List.flatMap_nil,
    List.append_nil]
  rfl

/-- Validations that are scheduled have yet to call the compiler. -/
theorem owed_foldl_schedule (documents : List Document) (server : Server) :
    (documents.foldl schedule server).owed =
      server.owed ++ documents.map fun document => (server.mode, document.text) := by
  -- They are scheduled one after another.
  induction documents generalizing server with
  | nil => exact (List.append_nil _).symm
  | cons document rest ih =>
    rw [List.foldl_cons, ih, owed_schedule, List.map_cons, List.append_assoc,
      List.singleton_append]
    rfl

/-- A step that schedules validations leaves their calls owed. -/
theorem balanced_of_scheduled (documents : List Document) {base : Server}
    (mode : base.mode = server.mode) (validations : base.validations = server.validations)
    {outputs : List Output} (uncalled : validationCalls outputs = []) :
    server.Balanced (documents.map fun document => (server.mode, document.text))
      (documents.foldl schedule base, outputs) := by
  -- All that was owed before is still owed.
  rw [Balanced, uncalled, List.nil_append, owed_foldl_schedule, mode, owed, mode, validations]
  exact List.Perm.refl _

/-- A validation that looks for its settings calls the compiler or has yet to call it. -/
theorem Distinct.balanced_lookUp (distinct : server.Distinct) {id : ValidationId}
    (found : server.validation? id = some validation) (scheduled : validation.phase = .scheduled) :
    server.Balanced [] (server.lookUp validation) := by
  -- It calls the compiler at once if its settings are known.
  obtain ⟨inFlight, rfl⟩ := validation?_some found
  have waiting : ∀ settings, validation.phase ≠ .compiling settings := by simp [scheduled]
  have awaiting : ∀ (fetch : FetchId) {step : Step}, step.1.mode = server.mode →
      step.1.validations = (server.setPhase validation.id (.awaiting fetch)).validations →
      validationCalls step.2 = [] → server.Balanced [] step := by
    intro fetch step mode validations uncalled
    refine balanced_of_rephased
      (fun other => if other.id = validation.id then .awaiting fetch else other.phase) mode ?_ ?_
      uncalled
    · rw [validations]
      refine List.map_congr_left fun other _ => ?_
      by_cases same : other.id = validation.id <;> simp [same]
    · intro other otherInFlight text
      by_cases same : other.id = validation.id
      · rw [if_pos same, distinct.eq otherInFlight inFlight same, scheduled]
        rfl
      · rw [if_neg same]
  unfold lookUp
  simp only
  split
  · exact balanced_of_same rfl rfl rfl
  · exact distinct.balanced_called found waiting rfl rfl rfl
  · exact distinct.balanced_called found waiting rfl rfl rfl
  · split
    · exact awaiting _ rfl rfl rfl
    · exact awaiting _ rfl rfl rfl

/-- The result of a validation calls no compiler. -/
theorem validationCalls_conclude (server : Server) (document : Document) (settings : Settings)
    (output : String) : validationCalls (server.conclude document settings output) = [] := by
  -- It goes to the client and to the log.
  obtain ⟨notices, told⟩ := conclude_eq server document settings output
  rw [told, validationCalls_append, validationCalls_notes, List.nil_append]
  split
  · rfl
  · rfl

/-- Every event asks for what it calls for or leaves it to be asked for. -/
theorem Distinct.balanced_step (distinct : server.Distinct) (event : Event) :
    server.Balanced (triggered server.mode server.session.documents event) (server.step event) := by
  -- Three of the events call for runs, and the work on validations asks for them.
  have idle : server.Balanced [] (server, []) := balanced_of_same rfl rfl rfl
  cases event with
  | documentOpened uri languageId version text =>
    exact balanced_of_scheduled [server.session.documents.incoming uri languageId version text]
      rfl rfl rfl
  | documentChanged uri version changes =>
    simp only [triggered, step, documentChanged]
    cases held : server.session.documents.find? uri with
    | none =>
      simp only [DocumentStore.change_of_absent held]
      exact balanced_of_same rfl rfl (validationCalls_notes _)
    | some document =>
      simp only [DocumentStore.change_of_found held]
      exact balanced_of_scheduled [document.edit version changes] rfl rfl (validationCalls_notes _)
  | configurationChanged settings =>
    refine balanced_of_scheduled server.session.documents.all rfl rfl ?_
    rw [validationCalls_append, validationCalls_notes, validationCalls_notes, List.nil_append]
  | validationStarted id =>
    simp only [triggered, step, validationStarted]
    split
    · rename_i validation found
      split
      · rename_i scheduled
        exact distinct.balanced_lookUp found scheduled
      · exact idle
    · exact idle
  | settingsAnswered fetch values =>
    simp only [triggered, step, settingsAnswered]
    split
    · refine balanced_of_rephased
        (fun waiting => settlePhase fetch (settingsOfAnswer values).value waiting.phase)
        rfl rfl ?_ (validationCalls_notes _)
      intro waiting _ text
      exact owes_settlePhase fetch _ waiting.phase server.mode text
    · exact idle
  | validationResumed id =>
    simp only [triggered, step, validationResumed]
    split
    · rename_i validation found
      split
      · rename_i settings configured
        obtain ⟨-, rfl⟩ := validation?_some found
        exact distinct.balanced_called found (by simp [configured]) rfl rfl rfl
      · exact idle
    · exact idle
  | compilerAnswered caller answer =>
    cases caller with
    | validation id =>
      simp only [triggered, step, validationAnswered]
      split
      · rename_i validation found
        split
        · rename_i settings compiling
          cases answer with
          | ok output =>
            exact distinct.balanced_dropped found compiling (validationCalls_conclude _ _ _ _)
          | error error =>
            exact distinct.balanced_dropped found compiling (validationCalls_notes _)
        · exact idle
      · exact idle
    | formatting request =>
      simp only [triggered, step, formattingAnswered]
      split
      · exact balanced_of_same rfl rfl (by simp [validationCalls, notes])
      · exact idle
  | handshake request capabilities =>
    exact balanced_of_same rfl rfl (by simp [step, handshake, validationCalls, notes])
  | ready =>
    simp only [triggered, step, ready]
    split
    · exact balanced_of_same rfl rfl rfl
    · exact balanced_of_same rfl rfl rfl
  | registrationAnswered accepted =>
    simp only [triggered, step, registrationAnswered]
    split
    · exact idle
    · refine balanced_of_same rfl rfl ?_
      split
      · rfl
      · rfl
  | foldersChanged =>
    simp only [triggered, step, foldersChanged]
    split
    · exact balanced_of_same rfl rfl rfl
    · exact idle
  | formattingAsked request uri =>
    simp only [triggered, step, formattingAsked]
    split
    · exact balanced_of_same rfl rfl rfl
    · exact balanced_of_same rfl rfl rfl
  | documentClosed uri =>
    exact balanced_of_same rfl rfl (by simp [step, documentClosed, validationCalls, notes])
  | shutdownAsked request | filesChanged count | completionAsked request
  | resolutionAsked request item => exact balanced_of_same rfl rfl rfl

/-- What a run has asked for and still owes is what was owed before and what it was called for. -/
theorem Orderly.balanced_run {server : Server} (orderly : server.Orderly) (events : List Event) :
    (validationCalls (server.run events).2 ++ (server.run events).1.owed).Perm
      (server.owed ++ triggers server.mode server.session.documents events) := by
  -- Every step balances, and what it leaves owed is taken up by the rest of the run.
  induction events generalizing server with
  | nil => exact List.perm_append_comm
  | cons event rest ih =>
    have first := orderly.distinct.balanced_step event
    have later := ih (orderly.step event)
    rw [step_mode, step_documents] at later
    rw [Server.run, validationCalls_append, List.append_assoc, triggers,
      ← List.append_assoc server.owed]
    refine (later.append_left _).trans ?_
    rw [← List.append_assoc]
    exact first.append_right _

/--
The compiler is run exactly once for every reason to validate a document.

Once all validations of a run have ended, what they asked of the compiler is, in some order, what
the run called for: the text of every opened document, the text of every open document after an
edit of it, and the texts of all open documents whenever the configuration changed. Failures, stale
results and events about unknown documents make no difference.
-/
theorem one_call_for_each_trigger (mode : Mode) (events : List Event)
    (ended : ((fresh mode).run events).1.validations = []) :
    (validationCalls ((fresh mode).run events).2).Perm (triggers mode {} events) := by
  -- Nothing is owed by a server without validations.
  have balanced := (sound_fresh mode).orderly.balanced_run events
  have settled : ((fresh mode).run events).1.owed = [] := by
    rw [owed, ended]
    rfl
  rw [settled, List.append_nil] at balanced
  exact balanced

/-- Validations share a request, are overtaken, fail and outlive their document. -/
theorem one_call_for_each_trigger_overtaken :
    let edited : Uri := ⟨"file:///edited.mypl"⟩
    let closed : Uri := ⟨"file:///closed.mypl"⟩
    let unknown : Uri := ⟨"file:///unknown.mypl"⟩
    let early : List Event :=
      [.handshake (.number 1) { configuration := true }, .documentOpened edited "mypl" 1 "x",
        .documentOpened closed "mypl" 7 "z", .documentChanged edited 2 [⟨none, "y"⟩],
        .documentChanged unknown 1 [⟨none, "u"⟩], .validationStarted ⟨edited, 0⟩,
        .validationStarted ⟨edited, 1⟩, .configurationChanged none, .documentClosed closed,
        .documentClosed unknown]
    let work : List Event :=
      [.settingsAnswered ⟨edited, 0⟩ none, .validationResumed ⟨edited, 1⟩,
        .validationStarted ⟨edited, 2⟩, .validationStarted ⟨closed, 1⟩,
        .validationStarted ⟨closed, 0⟩, .settingsAnswered ⟨closed, 1⟩ (some []),
        .validationResumed ⟨closed, 0⟩, .validationResumed ⟨edited, 0⟩,
        .settingsAnswered ⟨edited, 1⟩ (some []), .validationResumed ⟨edited, 2⟩,
        .settingsAnswered ⟨closed, 0⟩ none, .validationResumed ⟨closed, 1⟩]
    let answers : List Event :=
      [.compilerAnswered (.validation ⟨edited, 1⟩) (.error (.task "lost")),
        .compilerAnswered (.validation ⟨closed, 0⟩) (.ok ""),
        .compilerAnswered (.validation ⟨edited, 2⟩) (.ok ""),
        .compilerAnswered (.validation ⟨edited, 0⟩) (.ok ""),
        .compilerAnswered (.validation ⟨closed, 1⟩) (.error .unavailable)]
    let events := early ++ work ++ answers
    ((fresh .check).run events).1.validations = [] ∧
    (validationCalls ((fresh .check).run events).2).Perm
      [(.check, "x"), (.check, "z"), (.check, "y"), (.check, "z"), (.check, "y")] := by
  intro edited closed unknown early work answers events
  have ended : ((fresh .check).run events).1.validations = [] := by decide +kernel
  have called : triggers .check {} events =
      [(.check, "x"), (.check, "z"), (.check, "y"), (.check, "z"), (.check, "y")] := by
    decide +kernel
  have calls := one_call_for_each_trigger .check events ended
  rw [called] at calls
  exact ⟨ended, calls⟩

end Server

end LanguageServer
