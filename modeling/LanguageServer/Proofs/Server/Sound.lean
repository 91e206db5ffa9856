import LanguageServer.Proofs.Server.Effect

/-! What holds between the documents and the validations of a server at any time. -/

namespace LanguageServer

/-- What a validation is given when it is scheduled. -/
def Validation.brief (validation : Validation) : ValidationId × Document :=
  -- Its phase is its own affair.
  (validation.id, validation.document)

namespace Server

/-- Whether an edit of an open document brings it to a greater version. -/
def Grows (server : Server) : Event → Prop
  -- Other events have no version to compare.
  | .documentChanged uri version _ => ∀ document,
    server.session.documents.find? uri = some document → document.version < version
  | _ => True

/-- Whether an edit brings a greater version can be seen from the stored document. -/
instance Grows.decidable (server : Server) : (event : Event) → Decidable (server.Grows event)
  -- There is at most one such document.
  | .documentChanged uri version _ => inferInstanceAs (Decidable
      (∀ document ∈ server.session.documents.find? uri, document.version < version))
  | .handshake .. | .ready | .documentOpened .. | .documentClosed _ | .configurationChanged _
  | .foldersChanged | .filesChanged _ | .completionAsked _ | .resolutionAsked ..
  | .formattingAsked .. | .shutdownAsked _ | .validationStarted _ | .settingsAnswered ..
  | .validationResumed _ | .compilerAnswered .. | .registrationAnswered _ => .isTrue trivial

/-- The number of validations started so far for a document. -/
def startedFor (server : Server) (uri : Uri) : Nat :=
  -- The next validation of the document gets this number.
  (server.started.find? uri).getD 0

/--
The invariant of the server.

A document that is still in the open for which a validation was scheduled is the one that the
validation was given, or has been edited to a greater version since.
-/
structure Sound (server : Server) : Prop where
  store : server.session.documents.Sound
  distinct : server.Distinct
  named : ∀ validation ∈ server.validations, validation.id.uri = validation.document.uri
  numbered : ∀ validation ∈ server.validations,
    validation.id.number < server.startedFor validation.id.uri
  dated : ∀ validation ∈ server.validations,
    validation.document.generation ≤ server.session.documents.opened
  current : ∀ validation ∈ server.validations, ∀ document,
    server.session.documents.find? validation.document.uri = some document →
    document.generation = validation.document.generation →
    validation.document.version < document.version ∨ validation.document = document

/-- Nothing has happened to a fresh server that could break the invariant. -/
theorem sound_fresh (mode : Mode) : (fresh mode).Sound where
  -- There are no documents and no validations.
  store := DocumentStore.sound_empty
  distinct := List.nodup_nil
  named := by simp [fresh]
  numbered := by simp [fresh]
  dated := by simp [fresh]
  current := by simp [fresh]

/--
What holds of a server whatever the versions of edits are.

Validations in flight have identities and numbers of their own, and snapshots of documents that
were opened before.
-/
structure Orderly (server : Server) : Prop where
  store : server.session.documents.Sound
  distinct : server.Distinct
  named : ∀ validation ∈ server.validations, validation.id.uri = validation.document.uri
  numbered : ∀ validation ∈ server.validations,
    validation.id.number < server.startedFor validation.id.uri
  dated : ∀ validation ∈ server.validations,
    validation.document.generation ≤ server.session.documents.opened

/-- A server that keeps the invariant is orderly. -/
theorem Sound.orderly {server : Server} (sound : server.Sound) : server.Orderly where
  -- Only what is known of edited documents is left out.
  store := sound.store
  distinct := sound.distinct
  named := sound.named
  numbered := sound.numbered
  dated := sound.dated

/-- A validation with the brief of one among others has the same identity and document as that. -/
theorem exists_of_briefs {server next : Server}
    (part : (next.validations.map Validation.brief).Sublist
      (server.validations.map Validation.brief)) {validation : Validation}
    (member : validation ∈ next.validations) :
    ∃ former ∈ server.validations,
      former.id = validation.id ∧ former.document = validation.document := by
  -- The brief consists of the two.
  obtain ⟨former, inFlight, same⟩ := List.mem_map.mp
    (part.subset (List.mem_map_of_mem member))
  exact ⟨former, inFlight, congrArg Prod.fst same, congrArg Prod.snd same⟩

/-- A server stays orderly when validations at most disappear or change phase. -/
theorem Orderly.transfer {server next : Server} (orderly : server.Orderly)
    (store : next.session.documents.Sound)
    (opened : server.session.documents.opened ≤ next.session.documents.opened)
    (part : (next.validations.map Validation.brief).Sublist
      (server.validations.map Validation.brief))
    (started : next.started = server.started) : next.Orderly := by
  -- Every validation goes back to one with the same identity and the same document.
  refine ⟨store, ?_, ?_, ?_, ?_⟩
  · have ids := part.map Prod.fst
    simp only [List.map_map] at ids
    exact ids.nodup orderly.distinct
  · intro validation member
    obtain ⟨former, inFlight, sameId, sameDocument⟩ := exists_of_briefs part member
    rw [← sameId, ← sameDocument]
    exact orderly.named former inFlight
  · intro validation member
    obtain ⟨former, inFlight, sameId, -⟩ := exists_of_briefs part member
    rw [← sameId, startedFor, started]
    exact orderly.numbered former inFlight
  · intro validation member
    obtain ⟨former, inFlight, -, sameDocument⟩ := exists_of_briefs part member
    rw [← sameDocument]
    exact Nat.le_trans (orderly.dated former inFlight) opened

/-- The invariant is kept when the store ages and validations at most disappear or change phase. -/
theorem Sound.transfer {server next : Server} (sound : server.Sound)
    (store : next.session.documents.Sound)
    (ages : server.session.documents.Ages next.session.documents)
    (part : (next.validations.map Validation.brief).Sublist
      (server.validations.map Validation.brief))
    (started : next.started = server.started) : next.Sound := by
  -- The document that a validation was given is compared with the one that was held then.
  obtain ⟨_, distinct, named, numbered, dated⟩ :=
    sound.orderly.transfer store ages.opened part started
  refine ⟨store, distinct, named, numbered, dated, ?_⟩
  intro validation member document found sameOpen
  obtain ⟨former, inFlight, -, sameDocument⟩ := exists_of_briefs part member
  rw [← sameDocument] at found sameOpen ⊢
  have dated := sound.dated former inFlight
  rcases ages.documents found with newer | ⟨held, foundBefore, heldOpen, older⟩
  · omega
  · -- The document that was held then stands between the snapshot and the one held now.
    have before := sound.current former inFlight held foundBefore (heldOpen.trans sameOpen)
    rcases before with earlier | rfl
    · rcases older with grown | rfl
      · exact .inl (Int.lt_trans earlier grown)
      · exact .inl earlier
    · exact older

/-- Scheduling a validation takes one more number of its document. -/
theorem startedFor_schedule (server : Server) (document : Document) (uri : Uri) :
    (server.schedule document).startedFor uri =
      if uri = document.uri then server.startedFor uri + 1 else server.startedFor uri := by
  -- The numbers of other documents stay.
  simp only [startedFor, schedule, Table.find?_insert]
  split
  · rename_i same
    simp [same]
  · rfl

/-- Scheduling adds one validation, of the given document and with the next number. -/
theorem mem_schedule {server : Server} {document : Document} {validation : Validation} :
    validation ∈ (server.schedule document).validations ↔
      validation ∈ server.validations ∨
        validation = { id := ⟨document.uri, server.startedFor document.uri⟩, document } := by
  -- It comes behind the others.
  simp [schedule, startedFor]

/-- Scheduling a validation of a document that is held keeps a server orderly. -/
theorem Orderly.schedule {server : Server} (orderly : server.Orderly) {document : Document}
    (held : server.session.documents.find? document.uri = some document) :
    (server.schedule document).Orderly := by
  -- The new validation takes the next number of its document.
  refine ⟨orderly.store, ?_, ?_, ?_, ?_⟩
  · simp only [Distinct, Server.schedule, List.map_append, List.map_cons, List.map_nil]
    refine List.nodup_append.mpr ⟨orderly.distinct, by simp, ?_⟩
    intro id member other new
    obtain ⟨validation, inFlight, rfl⟩ := List.mem_map.mp member
    rw [List.mem_singleton.mp new]
    intro same
    have numbered := orderly.numbered validation inFlight
    rw [same] at numbered
    exact Nat.lt_irrefl _ numbered
  · intro validation member
    rcases mem_schedule.mp member with former | rfl
    · exact orderly.named validation former
    · rfl
  · intro validation member
    rw [startedFor_schedule]
    rcases mem_schedule.mp member with former | rfl
    · have numbered := orderly.numbered validation former
      split <;> omega
    · simp
  · intro validation member
    rcases mem_schedule.mp member with former | rfl
    · exact orderly.dated validation former
    · exact orderly.store.numbered held

/-- Scheduling a validation of a document that is held keeps the invariant. -/
theorem Sound.schedule {server : Server} (sound : server.Sound) {document : Document}
    (held : server.session.documents.find? document.uri = some document) :
    (server.schedule document).Sound := by
  -- The new validation has the held document itself.
  obtain ⟨store, distinct, named, numbered, dated⟩ := sound.orderly.schedule held
  refine ⟨store, distinct, named, numbered, dated, ?_⟩
  intro validation member other found sameOpen
  rcases mem_schedule.mp member with former | rfl
  · exact sound.current validation former other found sameOpen
  · exact .inr (Option.some.inj (held.symm.trans found))

/-- What scheduling a held document keeps is kept by scheduling held documents in turn. -/
theorem foldl_schedule_induction {motive : Server → Prop}
    (next : ∀ {server document}, motive server →
      server.session.documents.find? document.uri = some document →
      motive (server.schedule document))
    {documents : List Document} {server : Server} (start : motive server)
    (held : ∀ document ∈ documents,
      server.session.documents.find? document.uri = some document) :
    motive (documents.foldl Server.schedule server) := by
  -- They are scheduled one after another in the same store.
  induction documents generalizing server with
  | nil => exact start
  | cons document rest ih =>
    refine ih (next start (held document (by simp))) ?_
    exact fun other member => held other (List.mem_cons_of_mem _ member)

/-- A phase of its own leaves a validation's brief alone. -/
theorem map_brief_setPhase (server : Server) (id : ValidationId) (phase : Phase) :
    (server.setPhase id phase).validations.map Validation.brief =
      server.validations.map Validation.brief := by
  -- Identities and documents stay.
  simp only [setPhase, List.map_map]
  refine List.map_congr_left fun validation _ => ?_
  by_cases same : validation.id = id <;> simp [Validation.brief, same]

/-- Every event keeps the store sound. -/
theorem sound_follow {store : DocumentStore} (sound : store.Sound) (event : Event) :
    (follow store event).Sound := by
  -- Each of the store's operations does.
  cases event with
  | documentOpened => exact sound.add _ _ _ _
  | documentChanged => exact sound.change _ _ _
  | documentClosed => exact sound.remove _
  | shutdownAsked => exact .clear
  | _ => exact sound

/-- The store ages by every event, as long as versions grow. -/
theorem ages_follow {server : Server} {event : Event} (grows : server.Grows event) :
    server.session.documents.Ages (follow server.session.documents event) := by
  -- Each of the store's operations lets it age.
  cases event with
  | documentOpened => exact DocumentStore.ages_add _ _ _ _ _
  | documentChanged => exact DocumentStore.ages_change grows _
  | documentClosed => exact DocumentStore.ages_remove _ _
  | shutdownAsked => exact DocumentStore.ages_clear _
  | _ => exact DocumentStore.Ages.refl _

/-- No event takes back the number of an open. -/
theorem opened_follow (store : DocumentStore) (event : Event) :
    store.opened ≤ (follow store event).opened := by
  -- Only an open counts.
  cases event with
  | documentOpened => exact Nat.le_succ _
  | documentChanged => exact Nat.le_of_eq (DocumentStore.opened_change _ _ _ _).symm
  | _ => exact Nat.le_refl _

/-- An event leaves validations out, moves them to other phases, or adds some of held documents. -/
theorem Effect.briefs {server next : Server} {event : Event} {outputs : List Output}
    (effect : Effect server event next outputs) :
    ((next.validations.map Validation.brief).Sublist
        (server.validations.map Validation.brief) ∧ next.started = server.started) ∨
      ∃ (documents : List Document) (base : Server), next = documents.foldl schedule base ∧
        server.Keeps base ∧ ∀ document ∈ documents,
          (follow server.session.documents event).find? document.uri = some document := by
  -- Only one of the effects adds any.
  cases effect with
  | idle keeps _ | closed keeps _ _ =>
    rw [keeps.validations]
    exact .inl ⟨List.Sublist.refl _, keeps.started⟩
  | scheduled documents held keeps _ => exact .inr ⟨documents, _, rfl, keeps, held⟩
  | rephased change validations _ started _ =>
    rw [validations, List.map_map]
    exact .inl ⟨List.Sublist.refl _, started⟩
  | called _ _ validations started =>
    rw [validations, map_brief_setPhase]
    exact .inl ⟨List.Sublist.refl _, started⟩
  | concluded | dropped => exact .inl ⟨List.filter_sublist.map _, rfl⟩

/-- What can happen at an event to an orderly server. -/
theorem Orderly.effect {server : Server} (orderly : server.Orderly) (event : Event) :
    Effect server event (server.step event).1 (server.step event).2 :=
  -- The store must be sound and the validations distinct.
  step_effect orderly.store orderly.distinct event

/-- Every event keeps a server orderly. -/
theorem Orderly.step {server : Server} (orderly : server.Orderly) (event : Event) :
    (server.step event).1.Orderly := by
  -- Validations of held documents are dropped, moved or added.
  have documents := step_documents server event
  have store := documents ▸ sound_follow orderly.store event
  have opened := documents ▸ opened_follow server.session.documents event
  rcases (orderly.effect event).briefs with ⟨part, started⟩ | ⟨scheduled, base, next, keeps, held⟩
  · exact orderly.transfer store opened part started
  · rw [next, foldl_schedule_session] at documents store opened
    rw [next]
    refine foldl_schedule_induction (motive := Orderly)
      (fun orderly held => orderly.schedule held) ?_ (by rw [documents]; exact held)
    exact orderly.transfer store opened (by rw [keeps.validations]) keeps.started

/-- A server that was orderly is orderly after every run. -/
theorem Orderly.run {server : Server} (orderly : server.Orderly) (events : List Event) :
    (server.run events).1.Orderly := by
  -- Every step keeps it so.
  induction events generalizing server with
  | nil => exact orderly
  | cons event rest ih => exact ih (orderly.step event)

/-- What can happen at an event to a server that keeps the invariant. -/
theorem Sound.effect {server : Server} (sound : server.Sound) (event : Event) :
    Effect server event (server.step event).1 (server.step event).2 :=
  -- The invariant says more than is needed.
  sound.orderly.effect event

/-- Every event keeps the invariant, as long as versions grow. -/
theorem Sound.step {server : Server} (sound : server.Sound) {event : Event}
    (grows : server.Grows event) : (server.step event).1.Sound := by
  -- The store ages, and validations of held documents are dropped, moved or added.
  have documents := step_documents server event
  have store := documents ▸ sound_follow sound.store event
  have ages := documents ▸ ages_follow grows
  rcases (sound.effect event).briefs with ⟨part, started⟩ | ⟨scheduled, base, next, keeps, held⟩
  · exact sound.transfer store ages part started
  · rw [next, foldl_schedule_session] at documents store ages
    rw [next]
    refine foldl_schedule_induction (motive := Sound)
      (fun sound held => sound.schedule held) ?_ (by rw [documents]; exact held)
    exact sound.transfer store ages (by rw [keeps.validations]) keeps.started

/-- Every run in which versions grow keeps the invariant. -/
theorem Sound.run {server : Server} (sound : server.Sound) {events : List Event}
    (grows : Along Grows server events) : (server.run events).1.Sound := by
  -- Every step keeps it.
  induction events generalizing server with
  | nil => exact sound
  | cons event rest ih => exact ih (sound.step grows.1) grows.2

end Server

end LanguageServer
