import LanguageServer.Proofs.Server.Facet

/-! Every event shows to a document exactly what the machine of that document does. -/

namespace LanguageServer.Server

variable {server : Server} {uri : Uri}

/-- What a step shows to a document: the facet that it leaves and what it does for the document. -/
def shown (uri : Uri) (event : Event) (step : Step) : Facet × List Output :=
  -- What the server does for others is left out.
  (step.1.facet uri, step.2.filter (Output.about uri event))

/-- An open is seen from the side of its own document. -/
theorem shown_documentOpened (orderly : server.Orderly) (uri opened : Uri) (languageId : String)
    (version : Int) (text : String) :
    shown uri (.documentOpened opened languageId version text)
        (server.documentOpened opened languageId version text) =
      (server.facet uri).step (.documentOpened opened languageId version text) := by
  -- The message about it goes to the log.
  refine Prod.ext ?_ rfl
  by_cases same : opened = uri
  · subst same
    have found : (server.session.documents.add opened languageId version text).find? opened =
        some (server.session.documents.incoming opened languageId version text) := by
      rw [DocumentStore.find?_add, if_pos rfl]
    have renewed :
        ({ server with
          session := server.session.withDocuments
            (server.session.documents.add opened languageId version text) } : Server).facet opened =
          (server.facet opened).renew (some ⟨languageId, version, text⟩) := by
      rw [facet_renewed]
      · simp only [Session.withDocuments, found]
        rfl
      · -- The new open has a number that no snapshot has.
        intro validation inFlight document held
        have dated := orderly.dated validation inFlight
        have newer : document.generation = server.session.documents.opened + 1 := by
          cases found.symm.trans held
          rfl
        omega
    rw [Facet.step, facet_uri, if_pos rfl, ← renewed]
    exact facet_schedule_own _ (server.session.documents.incoming ..) found
  · rw [Facet.step, facet_uri, if_neg same]
    refine (facet_schedule_elsewhere same).trans (facet_unseen rfl rfl ?_ rfl)
    exact (DocumentStore.find?_add ..).trans (if_neg (Ne.symm same))

/-- The store after an edit is seen from the side of the edited document. -/
theorem facet_edited (server : Server) (uri edited : Uri) (version : Int)
    (changes : List Change) :
    ({ server with
      session := server.session.withDocuments
        (server.session.documents.change edited version changes).value.1 } : Server).facet uri =
      if edited = uri then (server.facet uri).edit version changes else server.facet uri := by
  -- The document stays in the same open.
  have after := DocumentStore.find?_change server.session.documents edited uri version changes
  split
  · rename_i same
    subst same
    rw [if_pos rfl] at after
    rw [facet_withSession]
    · simp only [Session.withDocuments, after, Facet.edit, facet, Option.map_map]
      rfl
    · intro generation
      simp only [Session.withDocuments, after, Option.any_map]
      rfl
  · rename_i apart
    rw [if_neg (Ne.symm apart)] at after
    exact facet_unseen rfl rfl after rfl

/-- An edit is seen from the side of its own document. -/
theorem shown_documentChanged (store : server.session.documents.Sound) (uri edited : Uri)
    (version : Int) (changes : List Change) :
    shown uri (.documentChanged edited version changes)
        (server.documentChanged edited version changes) =
      (server.facet uri).step (.documentChanged edited version changes) := by
  -- A document that is not open is not validated.
  have facets := facet_edited server uri edited version changes
  rw [Facet.step, facet_uri]
  cases found : server.session.documents.find? edited with
  | none =>
    have unedited := congrArg Prod.snd (DocumentStore.change_of_absent found version changes)
    simp only [documentChanged, unedited]
    refine Prod.ext (facets.trans ?_) (filter_about_notes ..)
    by_cases same : edited = uri
    · subst same
      rw [if_pos rfl, if_pos rfl]
      simp [Facet.edit, Facet.schedule, facet, found]
    · rw [if_neg same, if_neg same]
  | some document =>
    have brought := congrArg Prod.snd (DocumentStore.change_of_found found version changes)
    have held := store.find?_edit found version changes
    have filed : document.uri = edited := store.filed found
    simp only [documentChanged, brought]
    refine Prod.ext ?_ (filter_about_notes ..)
    by_cases same : edited = uri
    · subst same
      rw [if_pos rfl] at facets ⊢
      rw [← facets]
      subst filed
      exact facet_schedule_own _ (document.edit version changes) held
    · rw [if_neg same] at facets ⊢
      rw [← facets]
      subst filed
      exact facet_schedule_elsewhere same

/-- A close is seen from the side of its own document. -/
theorem shown_documentClosed (server : Server) (uri closed : Uri) :
    shown uri (.documentClosed closed) (server.documentClosed closed) =
      (server.facet uri).step (.documentClosed closed) := by
  -- The client is told about that document.
  rw [Facet.step, facet_uri]
  simp only [shown, documentClosed, List.filter_append, filter_about_notes, List.nil_append]
  by_cases same : closed = uri
  · subst same
    have gone : (server.session.documents.remove closed).find? closed = none := by simp
    have forgotten : (server.session.settings.fetched.erase closed).find? closed = none := by simp
    rw [if_pos rfl, facet_renewed (by simp [Session.close, gone])]
    refine Prod.ext ?_ (by simp [Output.about])
    simp only [Session.close, gone, SettingsCache.remove, forgotten]
    rfl
  · rw [if_neg same]
    refine Prod.ext (facet_unseen rfl rfl ?_ ?_) (by simp [Output.about, same])
    · exact (DocumentStore.find?_remove ..).trans (if_neg (Ne.symm same))
    · exact (Table.find?_erase ..).trans (if_neg (Ne.symm same))

/-- The end of the session is seen from the side of every document. -/
theorem shown_shutdownAsked (server : Server) (uri : Uri) (request : RequestId) :
    shown uri (.shutdownAsked request) (server.shutdownAsked request) =
      (server.facet uri).step (.shutdownAsked request) := by
  -- No document is left.
  refine Prod.ext ?_ rfl
  refine (facet_renewed ?_).trans rfl
  intro validation _ document held
  cases held

/-- A changed configuration is seen from the side of every document. -/
theorem shown_configurationChanged (store : server.session.documents.Sound) (uri : Uri)
    (settings : Option Json) :
    shown uri (.configurationChanged settings) (server.configurationChanged settings) =
      (server.facet uri).step (.configurationChanged settings) := by
  -- Documents that are open are validated again.
  refine Prod.ext ?_ ?_
  · simp only [shown, configurationChanged]
    rw [facet_scheduleAll]
    · refine congrArg Facet.schedule ?_
      have known : (server.facet uri).capable = server.session.capabilities.configuration := rfl
      rw [Facet.reconfigure, known]
      split
      · rfl
      · rfl
    · exact store
  · simp [shown, configurationChanged, scheduleAll, Facet.step]

/-- A call of the compiler by a validation of the document is seen. -/
theorem shown_compile {validation : Validation} (own : validation.id.uri = uri)
    (held : Option Document) (settings : Settings) (event : Event) :
    shown uri event (server.compile validation settings) =
      (server.facet uri).compile (validation.glimpse held) settings := by
  -- The call names the validation.
  refine Prod.ext (facet_setPhase ..) ?_
  exact List.filter_cons_of_pos (by simpa [Output.about] using own)

/-- A settings request is counted for its document. -/
theorem facet_asked (server : Server) (uri : Uri) (number : Nat) :
    ({ server with asked := server.asked.insert uri number } : Server).facet uri =
      { server.facet uri with asked := number } := by
  -- Nothing else changes.
  simp [facet, kept?, startedFor]

/-- A settings request for another document is not seen. -/
theorem facet_asked_elsewhere {other : Uri} (apart : other ≠ uri) (number : Nat) :
    ({ server with asked := server.asked.insert other number } : Server).facet uri =
      server.facet uri := by
  -- Requests are counted for each document.
  simp [facet, kept?, startedFor, Ne.symm apart]

/-- A fetch that is kept for the document is seen. -/
theorem facet_kept (server : Server) (uri : Uri) (entry : SettingsEntry) :
    ({ server with
      session := server.session.withSettings { server.session.settings with
        fetched := server.session.settings.fetched.insert uri entry } } : Server).facet uri =
      { server.facet uri with kept := some entry } := by
  -- Nothing else changes.
  simp [facet, kept?, startedFor, Session.withSettings]

/-- A look for settings by a validation of the document is seen. -/
theorem shown_lookUp {validation : Validation} (own : validation.id.uri = uri)
    (named : validation.document.uri = uri) (held : Option Document) (event : Event) :
    shown uri event (server.lookUp validation) =
      (server.facet uri).lookUp (validation.glimpse held) := by
  -- The cases are those of the look itself.
  subst named
  have known : (server.facet validation.document.uri).capable =
    server.session.capabilities.configuration := rfl
  rw [Facet.lookUp, known]
  cases capable : server.session.capabilities.configuration with
  | false =>
    have found := Session.settingsFor_of_incapable capable validation.document.uri
      (some (.asked (server.nextFetch validation.document.uri)))
    simp only [lookUp, found]
    exact shown_compile own held server.session.settings.shared event
  | true =>
    cases stored : server.session.documents.find? validation.document.uri with
    | none =>
      have absent : (server.facet validation.document.uri).stored = none := by simp [facet, stored]
      have found := Session.settingsFor_of_closed capable stored
        (some (.asked (server.nextFetch validation.document.uri)))
      simp only [lookUp, found, absent]
      refine Prod.ext ?_ (List.filter_cons_of_pos (by simp [Output.about, nextFetch]))
      refine (facet_asked ..).trans ?_
      rw [facet_setPhase]
      rfl
    | some document =>
      have opened : (server.session.documents.find? validation.document.uri).isSome = true := by
        rw [stored]; rfl
      have present : (server.facet validation.document.uri).stored = some document.content := by
        simp [facet, stored]
      cases kept : server.session.settings.fetched.find? validation.document.uri with
      | none =>
        have absent : (server.facet validation.document.uri).kept = none := kept
        have found := Session.settingsFor_of_absent capable opened kept
          (.asked (server.nextFetch validation.document.uri))
        simp only [lookUp, found, present, absent]
        refine Prod.ext ?_ (List.filter_cons_of_pos (by simp [Output.about, nextFetch]))
        refine (facet_asked ..).trans ?_
        rw [facet_setPhase, facet_kept]
        rfl
      | some entry =>
        have same : (server.facet validation.document.uri).kept = some entry := kept
        have found := Session.settingsFor_of_kept capable opened kept
          (some (.asked (server.nextFetch validation.document.uri)))
        simp only [lookUp, found, present, same]
        cases entry with
        | asked fetch => exact Prod.ext (facet_setPhase ..) rfl
        | answered settings => exact shown_compile own held settings event

/-- A phase of a validation of another document is not seen. -/
theorem facet_setPhase_elsewhere {id : ValidationId} (apart : id.uri ≠ uri) (phase : Phase) :
    (server.setPhase id phase).facet uri = server.facet uri := by
  -- All that are seen have the address of the document.
  rw [facet_setPhase]
  refine congrArg (fun validations => { server.facet uri with validations }) ?_
  refine (List.map_congr_left fun glimpse member => ?_).trans (List.map_id _)
  obtain ⟨validation, -, own, rfl⟩ := mem_glimpses.mp member
  refine if_neg fun same => apart ?_
  rw [← same]
  exact own

/-- The end of a validation of another document is not seen. -/
theorem facet_dropValidation_elsewhere {id : ValidationId} (apart : id.uri ≠ uri) :
    (server.dropValidation id).facet uri = server.facet uri := by
  -- All that are seen have the address of the document.
  rw [facet_dropValidation]
  refine congrArg (fun validations => { server.facet uri with validations }) ?_
  refine List.filter_eq_self.mpr fun glimpse member => ?_
  obtain ⟨validation, -, own, rfl⟩ := mem_glimpses.mp member
  refine decide_eq_true fun same => apart ?_
  rw [← same]
  exact own

/-- A call of the compiler by a validation of another document is not seen. -/
theorem shown_compile_elsewhere (server : Server) {validation : Validation}
    (apart : validation.id.uri ≠ uri) (settings : Settings) (event : Event) :
    shown uri event (server.compile validation settings) = (server.facet uri, []) := by
  -- The call names the validation.
  refine Prod.ext (facet_setPhase_elsewhere apart _) ?_
  exact List.filter_cons_of_neg (by simpa [Output.about] using apart)

/-- A look for the settings of another document is not seen. -/
theorem shown_lookUp_elsewhere {validation : Validation} (apart : validation.id.uri ≠ uri)
    (named : validation.id.uri = validation.document.uri) (event : Event) :
    shown uri event (server.lookUp validation) = (server.facet uri, []) := by
  -- A request that the look sends names the other document.
  have elsewhere : validation.document.uri ≠ uri := named ▸ apart
  have unseen : ({ server with
      session := (server.session.settingsFor validation.document.uri
        (some (.asked (server.nextFetch validation.document.uri)))).session } : Server).facet uri =
      server.facet uri := by
    rcases Session.settingsFor_session server.session validation.document.uri
      (some (.asked (server.nextFetch validation.document.uri))) with
        same | ⟨started, -, -, -, -, after⟩
    · rw [same]
    · rw [after]
      refine facet_unseen rfl rfl rfl ?_
      exact (Table.find?_insert ..).trans (if_neg (Ne.symm elsewhere))
  rcases Session.settingsFor_obtained server.session validation.document.uri
    (some (.asked (server.nextFetch validation.document.uri))) with
      ⟨obtained, -⟩ | ⟨kept, -, obtained, unstarted⟩ | ⟨obtained, started⟩
  · simp only [lookUp, obtained]
    rw [shown_compile_elsewhere _ apart, unseen]
  · simp only [lookUp, obtained, unstarted]
    cases kept with
    | asked fetch => exact Prod.ext ((facet_setPhase_elsewhere apart _).trans unseen) rfl
    | answered settings =>
      simp only
      rw [shown_compile_elsewhere _ apart, unseen]
  · simp only [lookUp, obtained, started, Option.map_some, if_true]
    refine Prod.ext ?_ (List.filter_cons_of_neg (by simp [Output.about, nextFetch, elsewhere]))
    refine (facet_asked_elsewhere elsewhere _).trans ?_
    exact (facet_setPhase_elsewhere apart _).trans unseen

/-- Settings requests are named after the documents of those who wait for them. -/
structure Addressed (server : Server) : Prop where
  awaited : ∀ validation ∈ server.validations, ∀ fetch, validation.phase = .awaiting fetch →
    fetch.uri = validation.id.uri
  kept : ∀ uri fetch, server.kept? uri = some (.asked fetch) → fetch.uri = uri

/-- A validation that waits behind an event waits for a request that is named after its document. -/
theorem Addressed.awaited_step (addressed : server.Addressed) (orderly : server.Orderly)
    {event : Event} {later : Validation} (inFlight : later ∈ (server.step event).1.validations)
    {fetch : FetchId} (awaiting : later.phase = .awaiting fetch) :
    fetch.uri = later.id.uri := by
  -- It has waited before, or has looked for its settings just now.
  rcases step_moved orderly.distinct event later inFlight with scheduled | ⟨former, member, moves⟩
  · rw [scheduled] at awaiting
    cases awaiting
  · generalize (server.step event).1.session = session at moves
    cases moves with
    | stays => exact addressed.awaited _ member fetch awaiting
    | settled | resumed => cases awaiting
    | @lookedUp _ found _ obtained =>
      have named := orderly.named former member
      have asked : found = .fetched (.asked fetch) := by
        cases found with
        | known => cases awaiting
        | fetched entry =>
          cases entry with
          | answered => cases awaiting
          | asked other => cases awaiting; rfl
      rw [asked] at obtained
      rcases Session.settingsFor_obtained server.session former.document.uri
        (some (.asked (server.nextFetch former.document.uri))) with
          ⟨other, -⟩ | ⟨kept, entry, other, -⟩ | ⟨other, -⟩
      · cases obtained.symm.trans other
      · cases obtained.symm.trans other
        exact (addressed.kept _ fetch entry).trans named.symm
      · cases obtained.symm.trans other
        exact named.symm

/-- Settings requests are named after documents throughout a run. -/
theorem addressed_run (mode : Mode) (events : List Event) :
    ((fresh mode).run events).1.Addressed := by
  -- What is kept is known from its origin, and who waits from the steps.
  have kept : ∀ (events : List Event) (uri : Uri) (fetch : FetchId),
      ((fresh mode).run events).1.kept? uri = some (.asked fetch) → fetch.uri = uri := by
    intro events uri fetch kept
    obtain ⟨_, _, _, other, _, about, same | ⟨_, _, _, _, _, same⟩⟩ := fetched_run mode events kept
    · cases same
      exact about
    · cases same
  induction events using List.reverseRecOn with
  | nil => exact ⟨by simp [fresh, run], kept []⟩
  | append_singleton events event ih =>
    refine ⟨?_, kept _⟩
    rw [run_concat]
    intro validation inFlight fetch awaiting
    exact ih.awaited_step ((sound_fresh mode).orderly.run events) inFlight awaiting

/-- The answer to a settings request reaches all of the document who wait for it. -/
theorem facet_settle (server : Server) (uri : Uri) (fetch : FetchId) (settings : Settings) :
    ({ server with
      session := server.session.withSettings { server.session.settings with
        fetched := server.session.settings.fetched.map (SettingsEntry.settle fetch settings) }
      validations := server.validations.map fun validation =>
        { validation with
          phase := settlePhase fetch settings validation.phase } } : Server).facet uri =
      (server.facet uri).settle fetch settings := by
  -- Nothing else changes.
  have validations := glimpses_map (server.session.documents.find? uri) uri
    (fun validation => { validation with phase := settlePhase fetch settings validation.phase })
    (fun glimpse => { glimpse with phase := settlePhase fetch settings glimpse.phase })
    (fun _ => rfl) (fun _ => rfl) server.validations
  have kept := Table.find?_map (SettingsEntry.settle fetch settings)
    server.session.settings.fetched uri
  simp only [facet, kept?, Session.withSettings, validations, kept]
  rfl

/-- An answer to a request that is named after another document settles nothing. -/
theorem Addressed.settle_elsewhere (addressed : server.Addressed) {fetch : FetchId}
    (apart : fetch.uri ≠ uri) (settings : Settings) :
    (server.facet uri).settle fetch settings = server.facet uri := by
  -- Neither what is kept nor any of those who wait has to do with it.
  have kept : (server.kept? uri).map (SettingsEntry.settle fetch settings) = server.kept? uri := by
    cases entry : server.kept? uri with
    | none => rfl
    | some held =>
      cases held with
      | answered => rfl
      | asked other =>
        have named := addressed.kept uri other entry
        have different : other ≠ fetch := fun same => apart (same ▸ named)
        rw [Option.map_some, SettingsEntry.settle, if_neg different]
  have validations : (server.facet uri).validations.map (fun glimpse =>
      { glimpse with phase := settlePhase fetch settings glimpse.phase }) =
        (server.facet uri).validations := by
    refine (List.map_congr_left fun glimpse member => ?_).trans (List.map_id _)
    obtain ⟨validation, inFlight, own, rfl⟩ := mem_glimpses.mp member
    have waits : validation.phase ≠ .awaiting fetch := fun awaiting =>
      apart ((addressed.awaited validation inFlight fetch awaiting).trans own)
    have stays := settlePhase_of_ne waits settings
    exact congrArg (fun phase => { validation.glimpse _ with phase }) stays
  rw [Facet.settle, validations]
  exact congrArg (fun kept => { server.facet uri with kept }) kept

/-- Those who wait for a request are seen from the side of the document it is named after. -/
theorem Addressed.any_awaiting (addressed : server.Addressed) (uri : Uri) (fetch : FetchId) :
    (server.facet uri).validations.any (fun glimpse => glimpse.phase = .awaiting fetch) =
      (decide (fetch.uri = uri) &&
        server.validations.any fun validation => validation.phase = .awaiting fetch) := by
  -- No validation waits for a request of another document.
  rw [Bool.eq_iff_iff, Bool.and_eq_true, List.any_eq_true, List.any_eq_true, decide_eq_true_eq]
  constructor
  · rintro ⟨glimpse, member, awaiting⟩
    obtain ⟨validation, inFlight, own, rfl⟩ := mem_glimpses.mp member
    have named := addressed.awaited validation inFlight fetch (of_decide_eq_true awaiting)
    exact ⟨named.trans own, validation, inFlight, awaiting⟩
  · rintro ⟨own, validation, inFlight, awaiting⟩
    have named := addressed.awaited validation inFlight fetch (of_decide_eq_true awaiting)
    exact ⟨_, mem_glimpses.mpr ⟨validation, inFlight, named.symm.trans own, rfl⟩, awaiting⟩

/-- An answer to a settings request is seen from the side of the document it is named after. -/
theorem shown_settingsAnswered (addressed : server.Addressed) (uri : Uri) (fetch : FetchId)
    (values : Option (List Json)) :
    shown uri (.settingsAnswered fetch values) (server.settingsAnswered fetch values) =
      (server.facet uri).step (.settingsAnswered fetch values) := by
  -- What is noted about the answer goes to the log.
  have settled := facet_settle server uri fetch (settingsOfAnswer values).value
  rw [Facet.step, addressed.any_awaiting]
  unfold settingsAnswered
  cases awaited : server.validations.any fun validation => validation.phase = .awaiting fetch with
  | false =>
    rw [Bool.and_false]
    rfl
  | true =>
    rw [Bool.and_true, if_pos rfl]
    refine Prod.ext ?_ (filter_about_notes ..)
    refine settled.trans ?_
    by_cases own : fetch.uri = uri
    · simp [own]
    · simp [own, addressed.settle_elsewhere own]

/-- The result of a validation is told from the side of its document, if it still counts. -/
theorem filter_conclude {validation : Validation} (named : validation.document.uri = uri)
    (settings : Settings) (output : String) (event : Event) :
    (server.conclude validation.document settings output).filter (Output.about uri event) =
      (server.facet uri).conclude (validation.glimpse (server.session.documents.find? uri))
        settings output := by
  -- The open and the version are compared on both sides.
  subst named
  generalize seen : validation.glimpse (server.session.documents.find? validation.document.uri) =
    glimpse
  have counts : server.session.documents.holds validation.document.uri
      validation.document.generation validation.document.version =
        (glimpse.current && (server.facet validation.document.uri).stored.any fun content =>
          content.version = glimpse.content.version) := by
    rw [← seen]
    simp only [DocumentStore.holds, Validation.glimpse, facet]
    cases server.session.documents.find? validation.document.uri with
    | none => rfl
    | some document => rfl
  obtain ⟨notices, told⟩ := conclude_eq server validation.document settings output
  rw [told, List.filter_append, filter_about_notes, List.nil_append, counts, Facet.conclude]
  split
  · rw [← seen]
    exact List.filter_cons_of_pos (by simp [Output.about])
  · rfl

/-- The result of a validation of another document is not told. -/
theorem filter_conclude_elsewhere {document : Document} (apart : document.uri ≠ uri)
    (settings : Settings) (output : String) (event : Event) :
    (server.conclude document settings output).filter (Output.about uri event) = [] := by
  -- The message to the client names the document.
  obtain ⟨notices, told⟩ := conclude_eq server document settings output
  rw [told, List.filter_append, filter_about_notes, List.nil_append]
  split
  · exact List.filter_cons_of_neg (by simpa [Output.about] using apart)
  · rfl

/-- What is done with a validation is seen from the side of its document, where it is found. -/
theorem shown_found (uri : Uri) (id : ValidationId) (event : Event) (work : Validation → Step)
    (seen : Glimpse → Facet × List Output)
    (own : ∀ validation ∈ server.validations, validation.id = id → validation.id.uri = uri →
      shown uri event (work validation) =
        seen (validation.glimpse (server.session.documents.find? uri)))
    (elsewhere : ∀ validation ∈ server.validations, validation.id = id → validation.id.uri ≠ uri →
      shown uri event (work validation) = (server.facet uri, [])) :
    shown uri event (match server.validation? id with
        | some validation => work validation
        | none => (server, [])) =
      match (server.facet uri).validation? id with
        | some glimpse => seen glimpse
        | none => (server.facet uri, []) := by
  -- It is found under its identity on both sides.
  rw [facet_validation?]
  cases found : server.validation? id with
  | none =>
    rw [Option.map_none, ite_self]
    rfl
  | some validation =>
    obtain ⟨inFlight, rfl⟩ := validation?_some found
    by_cases same : validation.id.uri = uri
    · rw [if_pos same]
      exact own validation inFlight rfl same
    · rw [if_neg same]
      exact elsewhere validation inFlight rfl same

/-- A validation that is started is seen from the side of its document. -/
theorem shown_validationStarted (orderly : server.Orderly) (uri : Uri) (id : ValidationId) :
    shown uri (.validationStarted id) (server.validationStarted id) =
      (server.facet uri).step (.validationStarted id) := by
  -- It looks for its settings if it has not done so.
  refine shown_found uri id _ _ _ (fun validation inFlight _ own => ?_)
    (fun validation inFlight _ apart => ?_)
  · have named := orderly.named validation inFlight
    simp only [Validation.phase_glimpse]
    cases validation.phase with
    | scheduled => exact shown_lookUp own (named ▸ own) _ _
    | awaiting | configured | compiling => rfl
  · have named := orderly.named validation inFlight
    cases validation.phase with
    | scheduled => exact shown_lookUp_elsewhere apart named _
    | awaiting | configured | compiling => rfl

/-- A validation that goes on is seen from the side of its document. -/
theorem shown_validationResumed (server : Server) (uri : Uri) (id : ValidationId) :
    shown uri (.validationResumed id) (server.validationResumed id) =
      (server.facet uri).step (.validationResumed id) := by
  -- It calls the compiler if its settings have come.
  refine shown_found uri id _ _ _ (fun validation _ _ own => ?_) (fun validation _ _ apart => ?_)
  · simp only [Validation.phase_glimpse]
    cases validation.phase with
    | configured settings => exact shown_compile own _ settings _
    | scheduled | awaiting | compiling => rfl
  · cases validation.phase with
    | configured settings => exact shown_compile_elsewhere server apart settings _
    | scheduled | awaiting | compiling => rfl

/-- The end of a validation is seen from the side of its document. -/
theorem shown_validationAnswered (orderly : server.Orderly) (uri : Uri) (id : ValidationId)
    (answer : Except InvocationError String) :
    shown uri (.compilerAnswered (.validation id) answer) (server.validationAnswered id answer) =
      (server.facet uri).step (.compilerAnswered (.validation id) answer) := by
  -- Its result is told if there is one.
  refine shown_found uri id _ _ _ (fun validation inFlight same own => ?_)
    (fun validation inFlight same apart => ?_)
  · have named := orderly.named validation inFlight
    simp only [Validation.phase_glimpse]
    cases validation.phase with
    | compiling settings =>
      refine Prod.ext (facet_dropValidation ..) ?_
      cases answer with
      | ok output => exact filter_conclude (named ▸ own) settings output _
      | error error => exact filter_about_notes ..
    | scheduled | awaiting | configured => rfl
  · have named := orderly.named validation inFlight
    cases validation.phase with
    | compiling settings =>
      refine Prod.ext (facet_dropValidation_elsewhere (same ▸ apart)) ?_
      cases answer with
      | ok output => exact filter_conclude_elsewhere (named ▸ apart) settings output _
      | error error => exact filter_about_notes ..
    | scheduled | awaiting | configured => rfl

/-- A request to format a document is seen from the side of that document. -/
theorem shown_formattingAsked (server : Server) (uri asked : Uri) (request : RequestId) :
    shown uri (.formattingAsked request asked) (server.formattingAsked request asked) =
      (server.facet uri).step (.formattingAsked request asked) := by
  -- The compiler is called for the text that is stored.
  rw [Facet.step, facet_uri]
  unfold formattingAsked
  by_cases own : asked = uri
  · subst own
    rw [if_pos rfl]
    cases found : server.session.documents.find? asked with
    | none =>
      have absent : (server.facet asked).stored = none := by simp [facet, found]
      rw [absent]
      rfl
    | some document =>
      have present : (server.facet asked).stored = some document.content := by simp [facet, found]
      rw [present]
      exact Prod.ext rfl (List.filter_cons_of_pos (by simp [Output.about, Event.formats]))
  · rw [if_neg own]
    cases server.session.documents.find? asked with
    | none => rfl
    | some document =>
      refine Prod.ext rfl (List.filter_cons_of_neg ?_)
      simpa [Output.about, Event.formats] using own

/--
Every event shows to a document what the machine of the document does.

What the server holds for the document and what it does for the document are determined by the
event and by what it held for the document before.
-/
theorem shown_step (orderly : server.Orderly) (addressed : server.Addressed) (uri : Uri)
    (event : Event) :
    shown uri event (server.step event) = (server.facet uri).step event := by
  -- Each handler has its own law.
  cases event with
  | documentOpened opened languageId version text =>
    exact shown_documentOpened orderly uri opened languageId version text
  | documentChanged edited version changes =>
    exact shown_documentChanged orderly.store uri edited version changes
  | documentClosed closed => exact shown_documentClosed server uri closed
  | shutdownAsked request => exact shown_shutdownAsked server uri request
  | configurationChanged settings => exact shown_configurationChanged orderly.store uri settings
  | validationStarted id => exact shown_validationStarted orderly uri id
  | settingsAnswered fetch values => exact shown_settingsAnswered addressed uri fetch values
  | validationResumed id => exact shown_validationResumed server uri id
  | compilerAnswered caller answer =>
    cases caller with
    | validation id => exact shown_validationAnswered orderly uri id answer
    | formatting request =>
      simp only [step, formattingAnswered]
      split
      · refine Prod.ext rfl ?_
        rw [shown, List.filter_append, filter_about_notes]
        rfl
      · rfl
  | formattingAsked request asked => exact shown_formattingAsked server uri asked request
  | handshake request capabilities =>
    refine Prod.ext ?_ ?_
    · simp only [step, shown, handshake, Session.negotiate_session]
      rfl
    · simp only [step, shown, handshake, List.filter_append, filter_about_notes]
      rfl
  | ready =>
    have known : (server.facet uri).capable = server.session.capabilities.configuration := rfl
    rw [Facet.step, known]
    simp only [step, ready]
    split
    · rfl
    · rfl
  | registrationAnswered accepted =>
    simp only [step, registrationAnswered, Facet.step]
    split
    · rename_i unasked
      have same : server.registrations = server.registrations - 1 := by omega
      exact Prod.ext (congrArg (fun registrations => { server.facet uri with registrations }) same)
        rfl
    · refine Prod.ext rfl ?_
      rw [shown, List.filter_append]
      split
      · rfl
      · rw [filter_about_notes]
        rfl
  | foldersChanged =>
    simp only [step, foldersChanged]
    split
    · rfl
    · rfl
  | filesChanged | completionAsked | resolutionAsked => rfl

end LanguageServer.Server
