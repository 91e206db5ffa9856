import LanguageServer.Proofs.Server.Unwinding

/-! What the server does for a document does not depend on what happens to other documents. -/

namespace LanguageServer

/-- The document that an event asks to be formatted under the name of a request. -/
def Event.formatting? (request : RequestId) : Event → Option Uri
  -- Other events ask for no formatting.
  | .formattingAsked other uri => if other = request then some uri else none
  | _ => none

/-- The document that was last asked to be formatted under the name of a request. -/
def formatted? (request : RequestId) (events : List Event) : Option Uri :=
  -- The client may use a name again once it was answered.
  events.foldl (fun last event => (event.formatting? request).or last) none

/-- One more event counts if it asks for formatting under that name. -/
theorem formatted?_concat (request : RequestId) (events : List Event) (event : Event) :
    formatted? request (events ++ [event]) =
      (event.formatting? request).or (formatted? request events) := by
  -- It is the last one then.
  rw [formatted?, List.foldl_append]
  rfl

/--
Whether an event behind others can have to do with a document.

Those about another document cannot: what the client says of it, the work on its validations, and
requests to format it together with their answers.
-/
def Event.concerns (uri : Uri) (before : List Event) : Event → Bool
  -- The answer to a formatting request belongs to the document that was asked for.
  | .documentOpened other _ _ _ | .documentChanged other _ _ | .documentClosed other
  | .formattingAsked _ other => other = uri
  | .validationStarted id | .validationResumed id | .compilerAnswered (.validation id) _ =>
    id.uri = uri
  | .settingsAnswered fetch _ => fetch.uri = uri
  | .compilerAnswered (.formatting request) _ => formatted? request before = some uri
  | _ => true

/-- The events behind others that can have to do with a document. -/
def confinedBehind (uri : Uri) (before : List Event) : List Event → List Event
  -- Each event is judged with all that came before it, what was left out included.
  | [] => []
  | event :: rest =>
    (if event.concerns uri before then [event] else []) ++
      confinedBehind uri (before ++ [event]) rest

/-- The events of a run that can have to do with a document. -/
def confined (uri : Uri) (events : List Event) : List Event :=
  -- Nothing came before the run.
  confinedBehind uri [] events

/-- Two parts of a run are confined one behind the other. -/
theorem confinedBehind_append (uri : Uri) (before first second : List Event) :
    confinedBehind uri before (first ++ second) =
      confinedBehind uri before first ++ confinedBehind uri (before ++ first) second := by
  -- The events of the first part are judged as if the second did not follow.
  induction first generalizing before with
  | nil => simp [confinedBehind]
  | cons event rest ih => simp [confinedBehind, ih]

/-- The beginning of a run is confined to the beginning of the confined run. -/
theorem confined_start (uri : Uri) (first second : List Event) :
    confined uri first <+: confined uri (first ++ second) := by
  -- Its events are judged by what came before them.
  rw [confined, confined, confinedBehind_append]
  exact List.prefix_append _ _

/-- One more event stays in the run if it can have to do with the document. -/
theorem confined_concat (uri : Uri) (events : List Event) (event : Event) :
    confined uri (events ++ [event]) =
      confined uri events ++ if event.concerns uri events then [event] else [] := by
  -- It is judged with all the others before it.
  simp [confined, confinedBehind_append, confinedBehind]

namespace Server

/-- What the server does for a document in a run, in order. -/
def trace (uri : Uri) (server : Server) : List Event → List Output
  -- Each event finds the server as the one before it left it.
  | [] => []
  | event :: rest =>
    (server.step event).2.filter (Output.about uri event) ++ trace uri (server.step event).1 rest

/-- One more event adds what the server does at it. -/
theorem trace_concat (uri : Uri) (server : Server) (events : List Event) (event : Event) :
    trace uri server (events ++ [event]) = trace uri server events ++
      ((server.run events).1.step event).2.filter (Output.about uri event) := by
  -- The event finds the server as the others left it.
  induction events generalizing server with
  | nil => simp [trace, run]
  | cons first rest ih => simp [trace, run, ih]

variable {server : Server} {uri : Uri} {mode : Mode} {events : List Event} {event : Event}

/-- An event that cannot have to do with a document does nothing in its machine. -/
theorem Addressed.step_elsewhere (addressed : server.Addressed) {before : List Event}
    (elsewhere : event.concerns uri before = false) :
    (server.facet uri).step event = (server.facet uri, []) := by
  -- Events about other documents name them.
  have unfound : ∀ id : ValidationId, id.uri ≠ uri → (server.facet uri).validation? id = none := by
    intro id apart
    rw [facet_validation?, if_neg apart]
  cases event with
  | documentOpened other | documentChanged other | documentClosed other | formattingAsked _ other =>
    have apart : other ≠ uri := of_decide_eq_false elsewhere
    rw [Facet.step, facet_uri, if_neg apart]
  | validationStarted id | validationResumed id =>
    rw [Facet.step, unfound id (of_decide_eq_false elsewhere)]
  | settingsAnswered fetch values =>
    have apart : decide (fetch.uri = uri) = false := elsewhere
    rw [Facet.step, addressed.any_awaiting, apart, Bool.false_and]
    rfl
  | compilerAnswered caller answer =>
    cases caller with
    | validation id => rw [Facet.step, unfound id (of_decide_eq_false elsewhere)]
    | formatting request => rfl
  | _ => cases elsewhere

/-- One more event of a run is a step of the machine of the document. -/
theorem shown_run (mode : Mode) (uri : Uri) (events : List Event) (event : Event) :
    shown uri event (((fresh mode).run events).1.step event) =
      (((fresh mode).run events).1.facet uri).step event :=
  -- The invariants hold throughout a run.
  shown_step ((sound_fresh mode).orderly.run events) (addressed_run mode events) uri event

/-- A document sees the same in a run and in the run that is confined to it. -/
theorem confined_run (mode : Mode) (uri : Uri) (events : List Event) :
    ((fresh mode).run (confined uri events)).1.facet uri =
        ((fresh mode).run events).1.facet uri ∧
      trace uri (fresh mode) (confined uri events) = trace uri (fresh mode) events := by
  -- Both runs take the same steps of the machine of the document, and the rest does nothing there.
  induction events using List.reverseRecOn with
  | nil => exact ⟨rfl, rfl⟩
  | append_singleton events event ih =>
    obtain ⟨facets, traces⟩ := ih
    have step := shown_run mode uri events event
    rw [confined_concat, trace_concat, run_concat]
    cases concerns : event.concerns uri events with
    | false =>
      rw [(addressed_run mode events).step_elsewhere concerns] at step
      have facet := congrArg Prod.fst step
      have told := congrArg Prod.snd step
      simp only [shown] at facet told
      simp [facet, told, facets, traces]
    | true =>
      have confinedStep := shown_run mode uri (confined uri events) event
      rw [facets, ← step] at confinedStep
      have facet := congrArg Prod.fst confinedStep
      have told := congrArg Prod.snd confinedStep
      simp only [shown] at facet told
      simp [trace_concat, run_concat, facet, told, traces]

/--
The client and the compiler, as far as they answer the server.

Each answer depends on the request alone, by which those who ask can be told apart.
-/
structure World where
  compile : Caller → Mode → String → Except InvocationError String
  configuration : FetchId → Option (List Json)
  registration : Bool

/--
Whether an event can happen to a server in a world.

Validations take the steps for which they are ready, requests that are under way get the answers of
the world, and the client uses no name for two requests at once.
-/
def Admits (world : World) (server : Server) : Event → Prop
  -- All other messages of the client can come at any time.
  | .validationStarted id => ∃ validation, server.validation? id = some validation ∧
    validation.phase = .scheduled
  | .settingsAnswered fetch values =>
    (server.validations.any fun validation => validation.phase = .awaiting fetch) = true ∧
      values = world.configuration fetch
  | .validationResumed id => ∃ validation, server.validation? id = some validation ∧
    ∃ settings, validation.phase = .configured settings
  | .compilerAnswered (.validation id) answer => ∃ validation,
    server.validation? id = some validation ∧ (∃ settings, validation.phase = .compiling settings) ∧
      answer = world.compile (.validation id) server.mode validation.document.text
  | .compilerAnswered (.formatting request) answer => ∃ formatting,
    server.formatting? request = some formatting ∧
      answer = world.compile (.formatting request) .print formatting.text
  | .registrationAnswered accepted =>
    0 < server.registrations ∧ accepted = world.registration
  | .formattingAsked request _ | .completionAsked request | .resolutionAsked request _ =>
    server.formatting? request = none
  | _ => True

/-- A validation of the document is in flight in both of two servers that look the same to it. -/
theorem validation?_of_facet {first second : Server} (same : second.facet uri = first.facet uri)
    {id : ValidationId} (own : id.uri = uri) {validation : Validation}
    (found : first.validation? id = some validation) :
    ∃ other, second.validation? id = some other ∧ other.phase = validation.phase ∧
      other.document.text = validation.document.text := by
  -- It is found under its identity in the facet.
  have glimpses := congrArg (Facet.validation? · id) same
  simp only [facet_validation?, if_pos own, found, Option.map_some] at glimpses
  obtain ⟨other, present, alike⟩ := Option.map_eq_some_iff.mp glimpses
  exact ⟨other, present, congrArg Glimpse.phase alike,
    congrArg (fun glimpse => glimpse.content.text) alike⟩

/-- Those of some formatting requests that were made for a document. -/
def madeFor (uri : Uri) (events : List Event) (formattings : List Formatting) : List Formatting :=
  -- Their names were last used for it.
  formattings.filter fun formatting => formatted? formatting.request events = some uri

/-- An event that uses none of their names leaves it open for whom requests were made. -/
theorem madeFor_concat (uri : Uri) (events : List Event) {formattings : List Formatting}
    (unused : ∀ formatting ∈ formattings, event.formatting? formatting.request = none) :
    madeFor uri (events ++ [event]) formattings = madeFor uri events formattings := by
  -- The names were last used before.
  refine List.filter_congr fun formatting member => ?_
  rw [formatted?_concat, unused formatting member, Option.none_or]

/-- A new formatting request was made for the document that it asks for. -/
theorem madeFor_asked {formattings : List Formatting} {request : RequestId}
    (unused : ∀ formatting ∈ formattings, formatting.request ≠ request) (asked : Uri)
    (texts : List String) :
    madeFor uri (events ++ [.formattingAsked request asked])
        (formattings ++ texts.map (Formatting.mk request)) =
      madeFor uri events formattings ++
        if asked = uri then texts.map (Formatting.mk request) else [] := by
  -- The names of the others were last used before.
  have others : madeFor uri (events ++ [.formattingAsked request asked]) formattings =
      madeFor uri events formattings :=
    madeFor_concat uri events fun formatting member => if_neg (Ne.symm (unused formatting member))
  have last : formatted? request (events ++ [.formattingAsked request asked]) = some asked := by
    simp [formatted?_concat, Event.formatting?]
  rw [madeFor, List.filter_append]
  refine congrArg₂ _ others ?_
  rw [List.filter_map]
  split
  · rename_i own
    subst own
    rw [List.filter_eq_self.mpr fun text _ => by simp [last]]
  · rename_i apart
    rw [List.filter_eq_nil_iff.mpr fun text _ => by simp [last, apart]]
    rfl

/-- An answer to a formatting request is one for the document for which it was made. -/
theorem madeFor_answered (uri : Uri) (events : List Event) (formattings : List Formatting)
    (request : RequestId) :
    madeFor uri events (formattings.filter fun formatting => formatting.request ≠ request) =
      if formatted? request events = some uri then
        (madeFor uri events formattings).filter fun formatting => formatting.request ≠ request
      else madeFor uri events formattings := by
  -- Other documents have no request of that name.
  simp only [madeFor, List.filter_filter]
  split
  · exact List.filter_congr fun formatting _ => Bool.and_comm _ _
  · rename_i apart
    refine List.filter_congr fun formatting _ => ?_
    by_cases same : formatting.request = request
    · simp [same, apart]
    · simp [same]

/-- A confined run has the formatting requests in flight that were made for the document. -/
theorem formattings_confined {world : World} {full reduced : Server}
    (admits : Admits world full event) (same : reduced.facet uri = full.facet uri)
    (formattings : reduced.formattings = madeFor uri events full.formattings) :
    (if event.concerns uri events then reduced.formattingsAfter event else reduced.formattings) =
      madeFor uri (events ++ [event]) (full.formattingsAfter event) := by
  -- Only a new request and an answer to a request make a difference.
  cases event with
  | formattingAsked request asked =>
    have unused : ∀ formatting ∈ full.formattings, formatting.request ≠ request := by
      intro formatting member
      simpa using List.find?_eq_none.mp admits formatting member
    simp only [formattingsAfter, Event.concerns, decide_eq_true_eq, madeFor_asked unused]
    split
    · rename_i own
      subst own
      have stored := congrArg (fun facet => facet.stored.map Content.text) same
      simp only [facet, Option.map_map] at stored
      rw [formattings]
      exact congrArg (fun texts => _ ++ texts.toList.map (Formatting.mk request)) stored
    · rw [formattings, List.append_nil]
  | compilerAnswered caller answer =>
    cases caller with
    | validation id =>
      rw [madeFor_concat uri events (by simp [Event.formatting?])]
      simpa only [formattingsAfter, ite_self] using formattings
    | formatting request =>
      rw [madeFor_concat uri events (by simp [Event.formatting?])]
      simp only [formattingsAfter, Event.concerns, decide_eq_true_eq, madeFor_answered,
        formattings]
  | _ =>
    rw [madeFor_concat uri events (by simp [Event.formatting?])]
    simpa only [formattingsAfter, ite_self] using formattings

/-- What can happen in a run and stays in the confined run can happen there. -/
theorem Admits.confined {world : World} {full reduced : Server}
    (admits : Admits world full event) (concerns : event.concerns uri events = true)
    (same : reduced.facet uri = full.facet uri)
    (formattings : reduced.formattings = madeFor uri events full.formattings)
    (fullAddressed : full.Addressed) (reducedAddressed : reduced.Addressed) :
    Admits world reduced event := by
  -- Validations of the document are seen in its facet.
  have absent : ∀ request, full.formatting? request = none →
      reduced.formatting? request = none := by
    intro request unused
    refine List.find?_eq_none.mpr fun formatting member => ?_
    rw [formattings] at member
    exact List.find?_eq_none.mp unused formatting (List.mem_of_mem_filter member)
  cases event with
  | validationStarted id =>
    obtain ⟨validation, found, scheduled⟩ := admits
    obtain ⟨other, present, phase, -⟩ :=
      validation?_of_facet same (of_decide_eq_true concerns) found
    exact ⟨other, present, phase.trans scheduled⟩
  | validationResumed id =>
    obtain ⟨validation, found, settings, configured⟩ := admits
    obtain ⟨other, present, phase, -⟩ :=
      validation?_of_facet same (of_decide_eq_true concerns) found
    exact ⟨other, present, settings, phase.trans configured⟩
  | settingsAnswered fetch values =>
    obtain ⟨awaited, answered⟩ := admits
    have own : decide (fetch.uri = uri) = true := concerns
    have waiting := reducedAddressed.any_awaiting uri fetch
    rw [same, fullAddressed.any_awaiting, own, awaited] at waiting
    exact ⟨waiting.symm, answered⟩
  | compilerAnswered caller answer =>
    cases caller with
    | validation id =>
      obtain ⟨validation, found, ⟨settings, compiling⟩, answered⟩ := admits
      obtain ⟨other, present, phase, text⟩ :=
        validation?_of_facet same (of_decide_eq_true concerns) found
      have modes : reduced.mode = full.mode := congrArg Facet.mode same
      refine ⟨other, present, ⟨settings, phase.trans compiling⟩, ?_⟩
      rw [text, modes]
      exact answered
    | formatting request =>
      obtain ⟨formatting, found, answered⟩ := admits
      have made : formatted? request events = some uri := of_decide_eq_true concerns
      refine ⟨formatting, ?_, answered⟩
      rw [formatting?, formattings, madeFor, List.find?_filter]
      refine (congrArg (List.find? · full.formattings) (funext fun other => ?_)).trans found
      by_cases named : other.request = request
      · simp [named, made]
      · simp [named]
  | registrationAnswered accepted =>
    have registrations : reduced.registrations = full.registrations :=
      congrArg Facet.registrations same
    exact ⟨registrations ▸ admits.1, admits.2⟩
  | formattingAsked request _ | completionAsked request | resolutionAsked request _ =>
    exact absent request admits
  | _ => trivial

/-- A run that can happen in a world can happen there when it is confined to a document. -/
theorem along_confined {world : World} (along : Along (Admits world) (fresh mode) events)
    (uri : Uri) :
    Along (Admits world) (fresh mode) (confined uri events) ∧
      ((fresh mode).run (confined uri events)).1.formattings =
        madeFor uri events ((fresh mode).run events).1.formattings := by
  -- Both runs look the same to the document at every event.
  induction events using List.reverseRecOn with
  | nil => exact ⟨trivial, rfl⟩
  | append_singleton events event ih =>
    obtain ⟨before, admits, -⟩ := along_append.mp along
    obtain ⟨confinedBefore, formattings⟩ := ih before
    have facets := (confined_run mode uri events).1
    have after := formattings_confined admits facets formattings
    rw [confined_concat]
    rw [← step_formattings, ← step_formattings] at after
    rw [run_concat, ← after]
    cases concerns : event.concerns uri events with
    | false =>
      rw [if_neg Bool.false_ne_true, if_neg Bool.false_ne_true, List.append_nil]
      exact ⟨confinedBefore, rfl⟩
    | true =>
      rw [if_pos rfl, if_pos rfl, run_concat]
      refine ⟨along_append.mpr ⟨confinedBefore, ?_, trivial⟩, rfl⟩
      exact admits.confined concerns facets formattings (addressed_run mode events)
        (addressed_run mode _)

/-- All that can be seen of a document in a run, numbers of opens apart. -/
structure Sight where
  /-- The diagnostics published for the document, the calls of the compiler and the settings
  requests made for it, in order. -/
  outputs : List Output
  stored : Option Content
  kept : Option SettingsEntry

/-- What can be seen of a document after events. -/
def sight (mode : Mode) (uri : Uri) (events : List Event) : Sight where
  -- The server is fresh before the first of them.
  outputs := trace uri (fresh mode) events
  stored := (((fresh mode).run events).1.session.documents.find? uri).map Document.content
  kept := ((fresh mode).run events).1.kept? uri

/--
Documents are isolated from each other.

Take all events about other documents out of a run: what the client says of them, the steps of
their validations and the requests to format them. What is left can happen in every world in which
the run can happen. At every point of the run, the diagnostics published for the document, the calls
of the compiler made for it, its stored language, version and text, and the settings kept for it are
those at the same point of what is left. Only the numbers of opens may differ.
-/
theorem documents_isolated (mode : Mode) (uri : Uri) (events : List Event) :
    (∀ world, Along (Admits world) (fresh mode) events →
      Along (Admits world) (fresh mode) (confined uri events)) ∧
    ∀ before behind, events = before ++ behind →
      confined uri before <+: confined uri events ∧
        sight mode uri (confined uri before) = sight mode uri before := by
  -- Runs that are confined look the same to the document.
  refine ⟨fun world along => (along_confined along uri).1, ?_⟩
  rintro before behind rfl
  refine ⟨confined_start uri before behind, ?_⟩
  obtain ⟨facets, traces⟩ := confined_run mode uri before
  have stored := congrArg Facet.stored facets
  have kept := congrArg Facet.kept facets
  simp only [facet] at stored kept
  rw [sight, sight, traces, stored, kept]

/-- Two documents are validated and formatted side by side while the configuration changes. -/
theorem documents_isolated_side_by_side :
    let seen : Uri := ⟨"file:///seen.mypl"⟩
    let other : Uri := ⟨"file:///other.mypl"⟩
    let out (text : String) : String := "Parse error: " ++ text ++ " at line 1 column 1"
    let world : World := ⟨fun _ _ text => .ok (out text), fun _ => none, true⟩
    let events : List Event :=
      [.handshake (.number 1) { configuration := true }, .ready,
        .documentOpened other "mypl" 1 "z", .documentOpened seen "mypl" 1 "x",
        .validationStarted ⟨other, 0⟩, .validationStarted ⟨seen, 0⟩,
        .formattingAsked (.number 2) other, .formattingAsked (.number 3) seen,
        .settingsAnswered ⟨other, 0⟩ none, .settingsAnswered ⟨seen, 0⟩ none,
        .registrationAnswered true, .validationResumed ⟨seen, 0⟩,
        .compilerAnswered (.formatting (.number 2)) (.ok (out "z")), .configurationChanged none,
        .documentClosed other, .compilerAnswered (.validation ⟨seen, 0⟩) (.ok (out "x")),
        .compilerAnswered (.formatting (.number 3)) (.ok (out "x")), .validationStarted ⟨seen, 1⟩]
    Along (Admits world) (fresh .check) events ∧
    Along (Admits world) (fresh .check) (confined seen events) ∧
    (confined seen events).length = 12 ∧
    sight .check seen (confined seen events) = sight .check seen events := by
  intro seen other out world events
  have along : Along (Admits world) (fresh .check) events :=
    ⟨trivial, trivial, trivial, trivial,
      ⟨⟨⟨other, 0⟩, ⟨other, "mypl", 1, "z", 1⟩, .scheduled⟩, by decide +kernel, rfl⟩,
      ⟨⟨⟨seen, 0⟩, ⟨seen, "mypl", 1, "x", 2⟩, .scheduled⟩, by decide +kernel, rfl⟩,
      by unfold Admits; decide +kernel, by unfold Admits; decide +kernel,
      ⟨by decide +kernel, rfl⟩, ⟨by decide +kernel, rfl⟩, ⟨by decide +kernel, rfl⟩,
      ⟨⟨⟨seen, 0⟩, ⟨seen, "mypl", 1, "x", 2⟩, .configured {}⟩, by decide +kernel, {}, rfl⟩,
      ⟨⟨.number 2, "z"⟩, by decide +kernel, rfl⟩, trivial, trivial,
      ⟨⟨⟨seen, 0⟩, ⟨seen, "mypl", 1, "x", 2⟩, .compiling {}⟩, by decide +kernel, ⟨{}, rfl⟩, rfl⟩,
      ⟨⟨.number 3, "x"⟩, by decide +kernel, rfl⟩,
      ⟨⟨⟨seen, 1⟩, ⟨seen, "mypl", 1, "x", 2⟩, .scheduled⟩, by decide +kernel, rfl⟩, trivial⟩
  obtain ⟨possible, alike⟩ := documents_isolated .check seen events
  refine ⟨along, possible world along, by decide +kernel, ?_⟩
  exact (alike events [] (List.append_nil events).symm).2

end Server

end LanguageServer
