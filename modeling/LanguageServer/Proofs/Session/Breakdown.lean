import LanguageServer.Proofs.Session.History
import LanguageServer.Session.Locked

/-!
A fetch that breaks down leaves nothing behind in a session but poisoned locks.

These make no difference, so that a run without its breakdowns is answered as the run with them.
-/

namespace LanguageServer

/-- A lock gives its content whether it is poisoned or not. -/
@[simp] theorem Guarded.acquire_eq {α : Type} (guarded : Guarded α) :
    guarded.acquire = guarded.content := by
  -- Both ways of handing it out carry the same content.
  cases poisoned : guarded.poisoned with
  | true => simp [acquire, lock, poisoned]
  | false => simp [acquire, lock, poisoned]

namespace LockedSession

variable {φ : Type}

section Looks

variable {session : LockedSession φ} {uri : Uri}

/-- At a client that cannot be asked no lock is left in another state than before. -/
theorem settingsFor_of_incapable (incapable : session.contents.capabilities.configuration = false)
    (uri : Uri) (fetch : Option φ) :
    session.settingsFor uri fetch =
      (session, .settings (some (.known session.contents.settings.shared)) false) := by
  -- The fetch is not even looked at.
  simp only [settingsFor, incapable, Bool.not_false, if_true, Guarded.acquire_eq]
  rfl

/-- A fetch for a closed document that breaks down poisons the lock of the documents. -/
theorem settingsFor_of_closed_broken (capable : session.contents.capabilities.configuration = true)
    (closed : session.contents.documents.find? uri = none) :
    session.settingsFor uri none =
      ({ session with documents := ⟨session.documents.content, true⟩ }, .settings none true) := by
  -- Only that lock is held.
  have absent : session.documents.content.find? uri = none := closed
  simp [settingsFor, capable, absent, Guarded.abandon]

/-- A fetch for a closed document that brings settings leaves the session as it is. -/
theorem settingsFor_of_closed (capable : session.contents.capabilities.configuration = true)
    (closed : session.contents.documents.find? uri = none) (fetch : φ) :
    session.settingsFor uri (some fetch) = (session, .settings (some (.fetched fetch)) true) := by
  -- Nothing is kept.
  have absent : session.documents.content.find? uri = none := closed
  simp [settingsFor, capable, absent]

/-- Where a fetch is kept no lock is left in another state than before. -/
theorem settingsFor_of_kept (capable : session.contents.capabilities.configuration = true)
    {document : Document} (held : session.contents.documents.find? uri = some document) {kept : φ}
    (found : session.contents.settings.fetched.find? uri = some kept) (fetch : Option φ) :
    session.settingsFor uri fetch = (session, .settings (some (.fetched kept)) false) := by
  -- The fetch that is given is not started.
  have opened : session.documents.content.find? uri = some document := held
  have present : session.settings.content.fetched.find? uri = some kept := found
  simp [settingsFor, capable, opened, present]

/-- A fetch for an open document that breaks down poisons both locks. -/
theorem settingsFor_of_open_broken (capable : session.contents.capabilities.configuration = true)
    {document : Document} (held : session.contents.documents.find? uri = some document)
    (absent : session.contents.settings.fetched.find? uri = none) :
    session.settingsFor uri none =
      ({ session with
          documents := ⟨session.documents.content, true⟩
          settings := ⟨session.settings.content, true⟩ },
        .settings none true) := by
  -- It breaks down before anything is kept.
  have opened : session.documents.content.find? uri = some document := held
  have missing : session.settings.content.fetched.find? uri = none := absent
  simp [settingsFor, capable, opened, missing, Guarded.abandon]

/-- A fetch for an open document that brings settings is kept. -/
theorem settingsFor_of_open (capable : session.contents.capabilities.configuration = true)
    {document : Document} (held : session.contents.documents.find? uri = some document)
    (absent : session.contents.settings.fetched.find? uri = none) (fetch : φ) :
    session.settingsFor uri (some fetch) =
      (session.onSettings fun cache => (cache.getOrInsert uri fetch).1,
        .settings (some (.fetched fetch)) true) := by
  -- The lock of the settings is held for it.
  have opened : session.documents.content.find? uri = some document := held
  have missing : session.settings.content.fetched.find? uri = none := absent
  simp [settingsFor, capable, opened, missing]

end Looks

/-- A change of the settings is the same behind a lock. -/
theorem contents_onSettings (session : LockedSession φ)
    (change : SettingsCache φ → SettingsCache φ) :
    (session.onSettings change).contents =
      session.contents.withSettings (change session.contents.settings) := by
  -- The lock gives the settings as they are.
  simp only [onSettings, Guarded.acquire_eq]
  rfl

/-- A look for settings finds behind the locks what it finds without them. -/
theorem contents_settingsFor (session : LockedSession φ) (uri : Uri) (fetch : Option φ) :
    ((session.settingsFor uri fetch).1.contents, (session.settingsFor uri fetch).2) =
      ((session.contents.settingsFor uri fetch).session,
        .settings (session.contents.settingsFor uri fetch).obtained
          (session.contents.settingsFor uri fetch).started) := by
  -- The cases are those of the look without locks.
  by_cases capable : session.contents.capabilities.configuration = true
  · cases held : session.contents.documents.find? uri with
    | none =>
      rw [Session.settingsFor_of_closed capable held]
      cases fetch with
      | none =>
        rw [settingsFor_of_closed_broken capable held]
        rfl
      | some started =>
        rw [settingsFor_of_closed capable held]
        rfl
    | some document =>
      have opened : (session.contents.documents.find? uri).isSome = true := by simp [held]
      cases found : session.contents.settings.fetched.find? uri with
      | some kept =>
        rw [Session.settingsFor_of_kept capable opened found,
          settingsFor_of_kept capable held found]
      | none =>
        cases fetch with
        | none =>
          rw [Session.settingsFor_of_broken capable found,
            settingsFor_of_open_broken capable held found]
          rfl
        | some started =>
          rw [Session.settingsFor_of_absent capable opened found,
            settingsFor_of_open capable held found, contents_onSettings]
          simp [SettingsCache.getOrInsert, found]
  · have incapable : session.contents.capabilities.configuration = false := by simpa using capable
    rw [Session.settingsFor_of_incapable incapable, settingsFor_of_incapable incapable]

/-- What an operation does to a session and how it is answered does not depend on the locks. -/
theorem contents_perform (session : LockedSession φ) (step : Session.Step φ) :
    (⟨((session.perform step).value.1.contents, (session.perform step).value.2),
      (session.perform step).notices⟩ : Logged (Session φ × Session.Answer φ)) =
      session.contents.perform step := by
  -- Every operation takes its locks and then does the same.
  cases step with
  | negotiate capabilities =>
    cases session with
    | mk negotiated documents settings =>
      cases negotiated with
      | none => rfl
      | some former => rfl
  | addDocument uri languageId version text =>
    simp only [perform, onDocuments, Guarded.acquire_eq]
    rfl
  | changeDocument uri version changes =>
    simp only [perform, onDocuments, Guarded.acquire_eq]
    rfl
  | closeDocument uri =>
    simp only [perform, onBoth, Guarded.acquire_eq]
    rfl
  | settingsFor uri fetch =>
    have looked := contents_settingsFor session uri fetch
    simp only [perform]
    rw [looked]
    rfl
  | clearSettings =>
    simp only [perform, contents_onSettings]
    rfl
  | setShared settings =>
    simp only [perform, contents_onSettings]
    rfl
  | discard =>
    simp only [perform, onBoth, Guarded.acquire_eq]
    rfl

/-- A run leaves the same contents and gives the same answers whatever happened to the locks. -/
theorem contents_run (session : LockedSession φ) (steps : List (Session.Step φ)) :
    ((session.run steps).1.contents, (session.run steps).2) = session.contents.run steps := by
  -- Operation by operation.
  induction steps generalizing session with
  | nil => rfl
  | cons step rest ih =>
    have performed := congrArg Logged.value (contents_perform session step)
    simp only [run, Session.run, ← performed, ← ih]

end LockedSession

/-- Whether an answer tells that a fetch broke down. -/
def Session.Answer.brokeDown {φ : Type} : Session.Answer φ → Bool
  -- Every other look for settings obtains some.
  | .settings none _ => true
  | _ => false

/-- The operations that did not break down, each with its answer. -/
def withoutBreakdowns {φ : Type} (steps : List (Session.Step φ))
    (answers : List (Session.Answer φ)) : List (Session.Step φ × Session.Answer φ) :=
  -- There is one answer for each operation.
  (steps.zip answers).filter fun done => !done.2.brokeDown

namespace Session

variable {φ : Type} {session : Session φ}

/-- For a document without a kept fetch a look breaks down if its fetch does and is started. -/
theorem settingsFor_none_of_absent {uri : Uri}
    (capable : session.capabilities.configuration = true)
    (absent : session.settings.fetched.find? uri = none) :
    session.perform (.settingsFor uri none) = ⟨(session, .settings none true), []⟩ := by
  -- The document may be open or closed.
  have broken := settingsFor_of_broken capable absent
  simp only [perform, broken]
  rfl

/-- A look for settings obtains some, unless its own fetch is started and breaks down. -/
theorem Attached.obtained_eq_none (attached : session.Attached) {uri : Uri} {fetch : Option φ}
    (nothing : (session.settingsFor uri fetch).obtained = none) :
    fetch = none ∧ session.capabilities.configuration = true ∧
      session.settings.fetched.find? uri = none := by
  -- Settings for all documents and kept fetches are always there.
  by_cases capable : session.capabilities.configuration = true
  · cases found : session.settings.fetched.find? uri with
    | some kept =>
      have opened := attached uri (by rw [found]; rfl)
      rw [settingsFor_of_kept capable opened found] at nothing
      cases nothing
    | none =>
      rcases settingsFor_obtained session uri fetch with
        ⟨known, -⟩ | ⟨kept, -, known, -⟩ | ⟨own, -⟩
      · rw [known] at nothing
        cases nothing
      · rw [known] at nothing
        cases nothing
      · rw [own] at nothing
        exact ⟨Option.map_eq_none_iff.mp nothing, capable, rfl⟩
  · rw [settingsFor_of_incapable (by simpa using capable)] at nothing
    cases nothing

/--
An operation breaks down exactly if it is a look for settings that starts a fetch that does.

The fetch is started if the client can be asked and nothing is kept for the document.
-/
theorem Attached.brokeDown_iff (attached : session.Attached) (step : Step φ) :
    (session.perform step).value.2.brokeDown = true ↔
      ∃ uri, step = .settingsFor uri none ∧ session.capabilities.configuration = true ∧
        session.settings.fetched.find? uri = none := by
  -- Other operations have answers of other kinds.
  cases step with
  | settingsFor uri fetch =>
    constructor
    · intro broke
      have answered : (session.perform (.settingsFor uri fetch)).value.2 =
          .settings (session.settingsFor uri fetch).obtained
            (session.settingsFor uri fetch).started := rfl
      rw [answered] at broke
      cases obtained : (session.settingsFor uri fetch).obtained with
      | none =>
        obtain ⟨rfl, capable, absent⟩ := attached.obtained_eq_none obtained
        exact ⟨uri, rfl, capable, absent⟩
      | some settings =>
        rw [obtained] at broke
        cases broke
    · rintro ⟨other, same, capable, absent⟩
      cases same
      rw [settingsFor_none_of_absent capable absent]
      rfl
  | _ =>
    constructor
    · intro broke
      cases broke
    · rintro ⟨uri, same, -⟩
      cases same

/-- An operation that breaks down leaves the session as it was. -/
theorem Attached.perform_of_brokeDown (attached : session.Attached) {step : Step φ}
    (broke : (session.perform step).value.2.brokeDown = true) :
    (session.perform step).value.1 = session := by
  -- It is a look for settings whose fetch breaks down.
  obtain ⟨uri, rfl, capable, absent⟩ := (attached.brokeDown_iff step).mp broke
  rw [settingsFor_none_of_absent capable absent]

/-- A run without the operations that break down gives the same answers and ends the same. -/
theorem Attached.run_withoutBreakdowns (attached : session.Attached) (steps : List (Step φ)) :
    session.run ((withoutBreakdowns steps (session.run steps).2).map Prod.fst) =
      ((session.run steps).1, (withoutBreakdowns steps (session.run steps).2).map Prod.snd) := by
  -- A breakdown leaves the session from which the rest would have started without it.
  induction steps generalizing session with
  | nil => rfl
  | cons step rest ih =>
    have later := ih (attached.perform step)
    have shape : withoutBreakdowns (step :: rest) (session.run (step :: rest)).2 =
        if (session.perform step).value.2.brokeDown then
          withoutBreakdowns rest ((session.perform step).value.1.run rest).2
        else (step, (session.perform step).value.2) ::
          withoutBreakdowns rest ((session.perform step).value.1.run rest).2 := by
      simp only [withoutBreakdowns, run, List.zip_cons_cons, List.filter_cons]
      cases (session.perform step).value.2.brokeDown with
      | true => rfl
      | false => rfl
    rw [shape]
    by_cases broke : (session.perform step).value.2.brokeDown = true
    · rw [if_pos broke]
      simp only [run]
      rw [attached.perform_of_brokeDown broke] at later ⊢
      exact later
    · rw [if_neg broke]
      simp only [List.map_cons, run, later]

end Session

namespace LockedSession

variable {φ : Type}

/-- A run from the start leaves what it leaves without locks. -/
theorem contents_run_fresh (history : List (Session.Step φ)) :
    (run ({} : LockedSession φ) history).1.contents = (Session.run ({} : Session φ) history).1 :=
  -- A new session holds nothing.
  congrArg Prod.fst (contents_run ({} : LockedSession φ) history)

/-- A run from the start is answered as it is without locks. -/
theorem answers_run_fresh (history : List (Session.Step φ)) :
    (run ({} : LockedSession φ) history).2 = (Session.run ({} : Session φ) history).2 :=
  -- A new session holds nothing.
  congrArg Prod.snd (contents_run ({} : LockedSession φ) history)

/-- A session that was run keeps fetches for open documents alone. -/
theorem attached_contents_run (history : List (Session.Step φ)) :
    (run ({} : LockedSession φ) history).1.contents.Attached := by
  -- It holds what the session without locks holds.
  rw [contents_run_fresh]
  exact (Session.follows_run history).attached

/-- A breakdown poisons the lock of the documents, and for an open one that of the settings too. -/
theorem poisoned_of_broken {session : LockedSession φ} {uri : Uri}
    (capable : session.contents.capabilities.configuration = true)
    (absent : session.contents.settings.fetched.find? uri = none) :
    (session.settingsFor uri none).1.documents.poisoned = true ∧
      ((session.contents.documents.find? uri).isSome = true →
        (session.settingsFor uri none).1.settings.poisoned = true) := by
  -- These are the locks that are held when the fetch is started.
  cases held : session.contents.documents.find? uri with
  | none =>
    rw [settingsFor_of_closed_broken capable held]
    exact ⟨rfl, fun opened => by cases opened⟩
  | some document =>
    rw [settingsFor_of_open_broken capable held absent]
    exact ⟨rfl, fun _ => rfl⟩

/-- A look for settings that does not start its fetch changes nothing, whatever the fetch is. -/
theorem settingsFor_of_idle {session : LockedSession φ} (attached : session.contents.Attached)
    {uri : Uri} (idle : session.contents.capabilities.configuration = false ∨
      (session.contents.settings.fetched.find? uri).isSome = true) :
    ∃ answer, ∀ fetch, session.settingsFor uri fetch = (session, answer) := by
  -- It finds the settings of all documents or a kept fetch.
  cases capable : session.contents.capabilities.configuration with
  | false => exact ⟨_, fun fetch => settingsFor_of_incapable capable uri fetch⟩
  | true =>
    have present := idle.resolve_left (by simp [capable])
    obtain ⟨kept, found⟩ := Option.isSome_iff_exists.mp present
    obtain ⟨document, held⟩ := Option.isSome_iff_exists.mp (attached uri present)
    exact ⟨_, fun fetch => settingsFor_of_kept capable held found fetch⟩

/--
A fetch that breaks down leaves no trace.

Of a run, the operations that break down can be left out: all others are answered as before, and
the session holds the same in the end. What breaks down is a look for settings that starts a fetch
that does, and it leaves behind nothing but poisoned locks. If its fetch is not started, because the
client cannot be asked or a fetch is kept, it does what it would do with any other fetch, and
nothing changes at all.
-/
theorem breakdowns_leave_no_trace :
    (∀ steps : List (Session.Step φ),
      let done := withoutBreakdowns steps (run ({} : LockedSession φ) steps).2
      (run ({} : LockedSession φ) (done.map Prod.fst)).1.contents =
          (run ({} : LockedSession φ) steps).1.contents ∧
        (run ({} : LockedSession φ) (done.map Prod.fst)).2 = done.map Prod.snd) ∧
    ∀ (history : List (Session.Step φ)) (step : Session.Step φ),
      let reached := (run ({} : LockedSession φ) history).1
      let performed := (reached.perform step).value
      (performed.2.brokeDown = true ↔ ∃ uri, step = .settingsFor uri none ∧
        reached.contents.capabilities.configuration = true ∧
          reached.contents.settings.fetched.find? uri = none) ∧
      (performed.2.brokeDown = true → performed.1.contents = reached.contents) ∧
      ∀ uri, step = .settingsFor uri none →
        (performed.2.brokeDown = true → performed.1.documents.poisoned = true ∧
          ((reached.contents.documents.find? uri).isSome = true →
            performed.1.settings.poisoned = true)) ∧
        (reached.contents.capabilities.configuration = false ∨
            (reached.contents.settings.fetched.find? uri).isSome = true →
          performed.1 = reached ∧
            ∀ fetch, reached.perform (.settingsFor uri fetch) = reached.perform step) := by
  refine ⟨fun steps => ?_, fun history step => ?_⟩
  · -- Without locks the rest of the run goes on from the same session.
    intro done
    have kept : done = withoutBreakdowns steps (Session.run ({} : Session φ) steps).2 := by
      rw [← answers_run_fresh]
    have left := Session.attached_empty.run_withoutBreakdowns steps
    rw [contents_run_fresh, contents_run_fresh, answers_run_fresh, kept, left]
    exact ⟨rfl, rfl⟩
  · -- The operation does what it does without locks.
    intro reached performed
    have attached : reached.contents.Attached := attached_contents_run history
    have same : (performed.1.contents, performed.2) = (reached.contents.perform step).value :=
      congrArg Logged.value (contents_perform reached step)
    have after : performed.1.contents = (reached.contents.perform step).value.1 :=
      congrArg Prod.fst same
    have answered : performed.2 = (reached.contents.perform step).value.2 :=
      congrArg Prod.snd same
    have breaks := attached.brokeDown_iff step
    rw [← answered] at breaks
    refine ⟨breaks, fun broke => ?_, ?_⟩
    · rw [after]
      exact attached.perform_of_brokeDown (answered ▸ broke)
    · rintro uri rfl
      refine ⟨fun broke => ?_, fun idle => ?_⟩
      · obtain ⟨other, looked, capable, absent⟩ := breaks.mp broke
        cases looked
        exact poisoned_of_broken capable absent
      · obtain ⟨answer, looked⟩ := settingsFor_of_idle attached idle
        refine ⟨congrArg Prod.fst (looked none), fun fetch => ?_⟩
        simp only [perform, looked]

/-- Breakdowns for an open and for a closed document, and a broken fetch that is not started. -/
theorem breakdowns_leave_no_trace_open_and_closed :
    let uri : Uri := ⟨"file:///main.mypl"⟩
    let look : Option Nat → Session.Step Nat := .settingsFor uri
    let start : List (Session.Step Nat) :=
      [.negotiate { configuration := true }, .addDocument uri "mypl" 1 "x"]
    let steps := start ++ [look none, .settingsFor ⟨"file:///other.mypl"⟩ none, look (some 4),
      look none, .closeDocument uri]
    let rest := start ++ [look (some 4), look none, .closeDocument uri]
    ((withoutBreakdowns steps (run {} steps).2).map Prod.fst = rest ∧
      (run {} steps).1.documents.poisoned = true ∧ (run {} steps).1.settings.poisoned = true ∧
      (run {} rest).1.documents.poisoned = false) ∧
    (run {} rest).1.contents = (run {} steps).1.contents := by
  intro uri look start steps rest
  have left : (withoutBreakdowns steps (run {} steps).2).map Prod.fst = rest := by decide +kernel
  have traceless := (breakdowns_leave_no_trace.1 steps).1
  rw [left] at traceless
  exact ⟨⟨left, by decide +kernel, by decide +kernel, by decide +kernel⟩, traceless⟩

end LockedSession

end LanguageServer
