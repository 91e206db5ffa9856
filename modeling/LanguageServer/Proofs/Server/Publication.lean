import LanguageServer.Proofs.Server.Provenance

/-! What is published is up to date when it is published, in whatever order validations end. -/

namespace LanguageServer.Server

/-- What an event publishes takes back a closed document's diagnostics or ends a validation. -/
theorem Sound.published_step {server : Server} (sound : server.Sound) {event : Event} {uri : Uri}
    {publication : List Diagnostic × Option Int}
    (told : publication ∈ published uri (server.step event).2) :
    (event = .documentClosed uri ∧ publication = ([], none)) ∨
      ∃ validation settings output,
        event = .compilerAnswered (.validation validation.id) (.ok output) ∧
        validation ∈ server.validations ∧ validation.phase = .compiling settings ∧
        server.session.documents.find? uri = some validation.document ∧
        publication = ((diagnose output).value.toList.take settings.maxProblems,
          some validation.document.version) := by
  -- Only two of the effects publish anything.
  have effect := sound.effect event
  generalize (server.step event).1 = next at effect
  generalize (server.step event).2 = outputs at effect told
  cases effect with
  | idle _ quiet | scheduled _ _ _ quiet | rephased _ _ _ _ quiet | dropped _ _ quiet =>
    rw [quiet.published] at told
    cases told
  | called => cases told
  | closed _ all _ =>
    rw [all] at told
    split at told
    · rename_i same
      exact .inl ⟨by rw [same], List.mem_singleton.mp told⟩
    · cases told
  | @concluded id output validation settings _ found compiling current all _ =>
    obtain ⟨inFlight, rfl⟩ := validation?_some found
    rw [all] at told
    split at told
    · rename_i same
      subst same
      -- The store holds a document of the same open and version, so it is the same document.
      obtain ⟨document, held, sameOpen, sameVersion⟩ := DocumentStore.holds_iff.mp current
      rcases sound.current validation inFlight document held sameOpen with older | same
      · omega
      · rw [← same] at held
        exact .inr ⟨validation, settings, output, rfl, inFlight, compiling, held,
          List.mem_singleton.mp told⟩
    · cases told

/-- The answer to a validation of a document that has not changed since is published. -/
theorem Sound.published_answered {server : Server} (sound : server.Sound) {validation : Validation}
    {settings : Settings} (inFlight : validation ∈ server.validations)
    (compiling : validation.phase = .compiling settings) {uri : Uri}
    (stored : server.session.documents.find? uri = some validation.document) (output : String) :
    published uri (server.step (.compilerAnswered (.validation validation.id) (.ok output))).2 =
      [((diagnose output).value.toList.take settings.maxProblems,
        some validation.document.version)] := by
  -- The store holds the very document of the validation.
  have filed : validation.document.uri = uri := sound.store.filed stored
  have found := sound.distinct.validation?_eq inFlight
  have current : server.session.documents.holds validation.document.uri
      validation.document.generation validation.document.version = true :=
    DocumentStore.holds_iff.mpr ⟨validation.document, filed ▸ stored, rfl, rfl⟩
  simp only [Server.step, validationAnswered, found, compiling]
  rw [published_conclude, if_pos ⟨current, filed.symm⟩]

/-- A document that is found after an event that does not open it was there before the event. -/
theorem found_before_step {server : Server} {event : Event} (grows : server.Grows event) {uri : Uri}
    (unopened : event.opening? uri ≠ some true) {document : Document}
    (found : (server.step event).1.session.documents.find? uri = some document) :
    ∃ former, server.session.documents.find? uri = some former ∧
      former.generation = document.generation ∧ former.version ≤ document.version := by
  -- Only an edit of the document itself can have changed it.
  rw [step_documents] at found
  cases event with
  | documentOpened other languageId version text =>
    have apart : uri ≠ other := by
      rintro rfl
      simp [Event.opening?] at unopened
    rw [follow, DocumentStore.find?_add, if_neg apart] at found
    exact ⟨document, found, rfl, Int.le_refl _⟩
  | documentChanged other version changes =>
    rw [follow, DocumentStore.find?_change] at found
    split at found
    · rename_i same
      subst same
      obtain ⟨former, held, rfl⟩ := Option.map_eq_some_iff.mp found
      exact ⟨former, held, rfl, Int.le_of_lt (grows former held)⟩
    · exact ⟨document, found, rfl, Int.le_refl _⟩
  | documentClosed other =>
    rw [follow, DocumentStore.find?_remove] at found
    split at found
    · cases found
    · exact ⟨document, found, rfl, Int.le_refl _⟩
  | shutdownAsked request => cases found
  | _ => exact ⟨document, found, rfl, Int.le_refl _⟩

/-- Whether none of some events opens a document. -/
def Unopened (uri : Uri) (events : List Event) : Prop :=
  -- The document may be edited and closed.
  ∀ event ∈ events, event.opening? uri ≠ some true

/-- A document that is found after events that do not open it was there before them. -/
theorem found_before {server : Server} {events : List Event}
    (grows : Along Grows server events) {uri : Uri} (unopened : Unopened uri events)
    {document : Document}
    (found : (server.run events).1.session.documents.find? uri = some document) :
    ∃ former, server.session.documents.find? uri = some former ∧
      former.generation = document.generation ∧ former.version ≤ document.version := by
  -- Each event takes the document one step back.
  induction events generalizing server with
  | nil => exact ⟨document, found, rfl, Int.le_refl _⟩
  | cons event rest ih =>
    obtain ⟨middle, held, sameOpen, order⟩ := ih grows.2
      (fun other member => unopened other (List.mem_cons_of_mem _ member)) found
    obtain ⟨former, first, formerOpen, formerOrder⟩ :=
      found_before_step grows.1 (unopened event (by simp)) held
    exact ⟨former, first, formerOpen.trans sameOpen, Int.le_trans formerOrder order⟩

/-- Whether an event takes a document away without another one in its place. -/
def Leaves (uri : Uri) : Event → Prop
  -- The end of the session takes all documents away.
  | .documentClosed other => other = uri
  | .shutdownAsked _ => True
  | _ => False

/-- A document is not there after an event that takes it away. -/
theorem find?_of_leaves {server : Server} {uri : Uri} {event : Event} (leaves : Leaves uri event) :
    (server.step event).1.session.documents.find? uri = none := by
  -- A close removes it from the store, and the end of the session empties the store.
  rw [step_documents]
  cases event with
  | documentClosed other =>
    cases leaves
    rw [follow, DocumentStore.find?_remove, if_pos rfl]
  | shutdownAsked request => rfl
  | _ => cases leaves

/-- An event that leaves a document there has not taken it away. -/
theorem not_leaves_of_found {server : Server} {uri : Uri} {event : Event} {document : Document}
    (found : (server.step event).1.session.documents.find? uri = some document) :
    ¬ Leaves uri event := by
  -- The document would be gone.
  intro leaves
  rw [find?_of_leaves leaves] at found
  cases found

/--
What a validation publishes, and why, when it ends behind some events.

The document that the store holds is the one that the validation was begun for: the same open, the
same version and the same text. The settings are those that the validation got from the client
since it was started.
-/
structure UpToDate (mode : Mode) (events : List Event) (validation : Validation)
    (settings : Settings) (output : String) (uri : Uri)
    (publication : List Diagnostic × Option Int) : Prop where
  inFlight : validation ∈ ((fresh mode).run events).1.validations
  obtained : validation.phase = .compiling settings
  supplied : Supplied mode events validation.id validation.document settings
  begun : Begun mode events validation.id validation.document
  given : invocations validation.id ((fresh mode).run events).2 =
    [(mode, validation.document.text)]
  stored : ((fresh mode).run events).1.session.documents.find? uri = some validation.document
  published : publication = ((diagnose output).value.toList.take settings.maxProblems,
    some validation.document.version)

variable {mode : Mode} {events : List Event} {uri : Uri}

/-- A validation that publishes behind events in which versions grow is up to date. -/
theorem published_reaction (grows : Along Grows (fresh mode) events) {event : Event}
    {publication : List Diagnostic × Option Int}
    (told : publication ∈ published uri (reaction mode events event)) :
    (event = .documentClosed uri ∧ publication = ([], none)) ∨
      ∃ validation settings output,
        event = .compilerAnswered (.validation validation.id) (.ok output) ∧
        UpToDate mode events validation settings output uri publication := by
  -- The log tells what the validation gave to the compiler.
  have sound := (sound_fresh mode).run grows
  rcases sound.published_step told with closed | ⟨validation, settings, output, ended, inFlight,
    compiling, stored, same⟩
  · exact .inl closed
  · refine .inr ⟨validation, settings, output, ended, inFlight, compiling,
      supplied_run grows inFlight compiling, begun_run grows inFlight, ?_, stored, same⟩
    rw [(recorded_run grows).inFlight validation inFlight, compiling, run_mode]
    rfl

/-- Only a close publishes for a document that is not there. -/
theorem published_of_absent (grows : Along Grows (fresh mode) events)
    (absent : ((fresh mode).run events).1.session.documents.find? uri = none) {event : Event}
    (another : event ≠ .documentClosed uri) : published uri (reaction mode events event) = [] := by
  -- A validation publishes only for a document that the store holds.
  refine List.eq_nil_iff_forall_not_mem.mpr fun publication told => ?_
  rcases published_reaction grows told with ⟨closed, -⟩ | ⟨validation, _, _, _, upToDate⟩
  · exact another closed
  · have stored := upToDate.stored
    rw [absent] at stored
    cases stored

/-- A document that was taken away is not there until it is opened again. -/
theorem absent_of_left {leaving : Event} {between : List Event}
    (grows : Along Grows (fresh mode) (events ++ leaving :: between)) (leaves : Leaves uri leaving)
    (unopened : Unopened uri between) :
    ((fresh mode).run (events ++ leaving :: between)).1.session.documents.find? uri = none := by
  -- A document that is there would have been there right after it was taken away.
  obtain ⟨-, -, behind⟩ := along_append.mp grows
  rw [run_append]
  refine Option.eq_none_iff_forall_not_mem.mpr fun document stored => ?_
  obtain ⟨former, found, -⟩ := found_before behind unopened stored
  rw [find?_of_leaves leaves] at found
  cases found

/-- Versions that are published within one open do not go back. -/
theorem published_versions {first : Event} {between : List Event}
    (grows : Along Grows (fresh mode) (events ++ first :: between))
    (unopened : Unopened uri between) {second : Event}
    {diagnostics laterDiagnostics : List Diagnostic} {version laterVersion : Int}
    (told : (diagnostics, some version) ∈ published uri (reaction mode events first))
    (later : (laterDiagnostics, some laterVersion) ∈
      published uri (reaction mode (events ++ first :: between) second)) :
    version ≤ laterVersion := by
  -- Both are the versions of stored documents, and the later one goes back to the earlier one.
  obtain ⟨before, behind⟩ := along_append.mp grows
  rcases published_reaction before told with ⟨-, absent⟩ | ⟨validation, _, _, ended, upToDate⟩
  · cases absent
  · rcases published_reaction grows later with ⟨-, absent⟩ | ⟨_, _, _, _, upToDateLater⟩
    · cases absent
    · have stored := upToDateLater.stored
      rw [run_append] at stored
      have stillUnopened : Unopened uri (first :: between) := by
        intro event member
        rcases List.mem_cons.mp member with rfl | behind
        · simp [ended, Event.opening?]
        · exact unopened event behind
      obtain ⟨former, found, -, order⟩ := found_before behind stillUnopened stored
      have same := upToDate.stored.symm.trans found
      cases same
      have sameVersion := congrArg Prod.snd upToDate.published
      have sameLater := congrArg Prod.snd upToDateLater.published
      cases sameVersion
      cases sameLater
      exact order

/--
Whatever is published is up to date.

A validation publishes for a document only in the open and at the version for which it was begun,
with the text that it gave to the compiler and as many diagnostics as the settings allow that it got
since it was started, and then it does publish. So nothing is published for a document that was
taken away and not opened again, and the versions that are published within one open do not go back.
-/
theorem publications_up_to_date (grows : Along Grows (fresh mode) events) (uri : Uri) :
    (∀ before event after, events = before ++ event :: after →
      ∀ publication ∈ published uri (reaction mode before event),
        (event = .documentClosed uri ∧ publication = ([], none)) ∨
          ∃ validation settings output,
            event = .compilerAnswered (.validation validation.id) (.ok output) ∧
            UpToDate mode before validation settings output uri publication) ∧
    (∀ before validation settings output after,
      events = before ++ .compilerAnswered (.validation validation.id) (.ok output) :: after →
      validation ∈ ((fresh mode).run before).1.validations →
      validation.phase = .compiling settings →
      ((fresh mode).run before).1.session.documents.find? uri = some validation.document →
        published uri
            (reaction mode before (.compilerAnswered (.validation validation.id) (.ok output))) =
          [((diagnose output).value.toList.take settings.maxProblems,
            some validation.document.version)]) ∧
    (∀ before leaving between event after,
      events = before ++ leaving :: between ++ event :: after → Leaves uri leaving →
      Unopened uri between → event ≠ .documentClosed uri →
        published uri (reaction mode (before ++ leaving :: between) event) = []) ∧
    ∀ before first between second after,
      events = before ++ first :: between ++ second :: after → Unopened uri between →
      ∀ diagnostics version laterDiagnostics laterVersion,
        (diagnostics, some version) ∈ published uri (reaction mode before first) →
        (laterDiagnostics, some laterVersion) ∈
          published uri (reaction mode (before ++ first :: between) second) →
        version ≤ laterVersion := by
  -- Each part looks at what comes before the events that it is about.
  refine ⟨?_, ?_, ?_, ?_⟩
  · rintro before event after rfl publication told
    exact published_reaction (along_append.mp grows).1 told
  · rintro before validation settings output after rfl inFlight compiling stored
    have sound := (sound_fresh mode).run (along_append.mp grows).1
    exact sound.published_answered inFlight compiling stored output
  · rintro before leaving between event after rfl leaves unopened another
    have grown := (along_append.mp grows).1
    exact published_of_absent grown (absent_of_left grown leaves unopened) another
  · rintro before first between second after rfl unopened _ _ _ _ told later
    exact published_versions (along_append.mp grows).1 unopened told later

/-- A validation that is overtaken by an edit and by the validation of the edited document. -/
theorem publications_up_to_date_overtaking :
    let uri : Uri := ⟨"file:///main.mypl"⟩
    let events : List Event :=
      [.documentOpened uri "mypl" 1 "x", .validationStarted ⟨uri, 0⟩,
        .documentChanged uri 2 [⟨none, "y"⟩], .validationStarted ⟨uri, 1⟩]
    let answered (number : Nat) : Event := .compilerAnswered (.validation ⟨uri, number⟩)
      (.ok "Parse error: odd at line 1 column 1")
    let publication : List Diagnostic × Option Int :=
      ([⟨⟨⟨0, 0⟩, ⟨0, 1⟩⟩, "Parse error: odd"⟩], some 2)
    Along Grows (fresh .check) (events ++ [answered 1, .documentClosed uri, answered 0]) ∧
      publication ∈ published uri (reaction .check events (answered 1)) ∧
      (∃ validation settings output, answered 1 =
          .compilerAnswered (.validation validation.id) (.ok output) ∧
        UpToDate .check events validation settings output uri publication) ∧
      published uri
        (reaction .check (events ++ [answered 1, .documentClosed uri]) (answered 0)) = [] := by
  intro uri events answered publication
  have grows : Along Grows (fresh .check)
      (events ++ [answered 1, .documentClosed uri, answered 0]) := by
    decide +kernel
  have told : publication ∈ published uri (reaction .check events (answered 1)) := by
    decide +kernel
  have upToDate := publications_up_to_date grows uri
  refine ⟨grows, told, ?_, ?_⟩
  · rcases upToDate.1 events (answered 1) _ rfl publication told with ⟨closed, -⟩ | ended
    · cases closed
    · exact ended
  · refine upToDate.2.2.1 (events ++ [answered 1]) (.documentClosed uri) [] (answered 0) [] rfl rfl
      ?_ ?_
    · intro event member
      cases member
    · intro closed
      cases closed

end LanguageServer.Server
