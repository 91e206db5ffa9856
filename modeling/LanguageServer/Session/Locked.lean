import LanguageServer.Session.Step

/-! A session with its documents and its settings behind locks, which breakdowns poison. -/

namespace LanguageServer

/-- A value behind a lock. -/
structure Guarded (α : Type) where
  content : α
  /-- Whether a holder of the lock ever broke down. -/
  poisoned : Bool := false
  deriving Repr

namespace Guarded

variable {α : Type}

/-- What is given to one who asks for a lock. -/
def lock (guarded : Guarded α) : Except α α :=
  -- The content of a poisoned lock is handed out as an error.
  if guarded.poisoned then .error guarded.content else .ok guarded.content

/-- The content of a lock that is taken whether it is poisoned or not. -/
def acquire (guarded : Guarded α) : α :=
  -- A breakdown is no reason to refuse what it left.
  match guarded.lock with
  | .ok content => content
  | .error content => content

/-- A lock after its holder put content back. -/
def release (guarded : Guarded α) (content : α) : Guarded α :=
  -- A lock that is poisoned stays so.
  { guarded with content }

/-- A lock after its holder broke down and left content behind. -/
def abandon (_guarded : Guarded α) (content : α) : Guarded α :=
  -- Whoever asks for it next is warned.
  ⟨content, true⟩

end Guarded

/-- A session with a lock for its documents and one for its settings. -/
structure LockedSession (φ : Type) where
  negotiated : Option Capabilities := none
  documents : Guarded DocumentStore := ⟨{}, false⟩
  settings : Guarded (SettingsCache φ) := ⟨{}, false⟩
  deriving Repr

namespace LockedSession

variable {φ : Type}

/-- What a session holds, whatever happened to its locks. -/
def contents (session : LockedSession φ) : Session φ :=
  -- Features are not behind a lock.
  ⟨session.negotiated, session.documents.content, session.settings.content⟩

/-- The session and the answer after an operation on the documents. -/
def onDocuments (session : LockedSession φ) (step : DocumentStore.Step) :
    Logged (LockedSession φ × Session.Answer φ) := do
  -- Only the lock of the documents is held.
  let (documents, document) ← session.documents.acquire.perform step
  return ({ session with documents := session.documents.release documents }, .document document)

/-- The session after a change of the settings. -/
def onSettings (session : LockedSession φ) (change : SettingsCache φ → SettingsCache φ) :
    LockedSession φ :=
  -- Only the lock of the settings is held.
  { session with settings := session.settings.release (change session.settings.acquire) }

/-- The session after an operation that holds both locks, the one of the documents first. -/
def onBoth (session : LockedSession φ) (documents : DocumentStore → DocumentStore)
    (settings : SettingsCache φ → SettingsCache φ) : LockedSession φ :=
  -- Neither of the two can break down.
  { session with
    documents := session.documents.release (documents session.documents.acquire)
    settings := session.settings.release (settings session.settings.acquire) }

/-- The session and the answer after a look for settings, whose fetch breaks down if it is none. -/
def settingsFor (session : LockedSession φ) (uri : Uri) (fetch : Option φ) :
    LockedSession φ × Session.Answer φ :=
  -- A fetch is started under the lock of the documents, and for an open document under both.
  if !session.contents.capabilities.configuration then
    (session, .settings (some (.known session.settings.acquire.shared)) false)
  else
    let documents := session.documents.acquire
    if (documents.find? uri).isSome then
      let cache := session.settings.acquire
      match cache.fetched.find? uri, fetch with
      | some kept, _ => (session, .settings (some (.fetched kept)) false)
      | none, some fetch =>
        (session.onSettings fun cache => (cache.getOrInsert uri fetch).1,
          .settings (some (.fetched fetch)) true)
      | none, none =>
        ({ session with
            documents := session.documents.abandon documents
            settings := session.settings.abandon cache },
          .settings none true)
    else match fetch with
      | some fetch => (session, .settings (some (.fetched fetch)) true)
      | none =>
        ({ session with documents := session.documents.abandon documents }, .settings none true)

/-- The session after an operation, with the operation's answer. -/
def perform (session : LockedSession φ) :
    Session.Step φ → Logged (LockedSession φ × Session.Answer φ)
  -- The count of documents at the end is taken under the same lock as they are.
  | .negotiate capabilities => do
    let (after, taken) ← session.contents.negotiate capabilities
    return ({ session with negotiated := after.negotiated }, .accepted taken)
  | .addDocument uri languageId version text =>
    session.onDocuments (.add uri languageId version text)
  | .changeDocument uri version changes => session.onDocuments (.change uri version changes)
  | .closeDocument uri =>
    ⟨(session.onBoth (·.remove uri) (·.remove uri),
      .document (session.documents.acquire.find? uri)), []⟩
  | .settingsFor uri fetch => ⟨session.settingsFor uri fetch, []⟩
  | .clearSettings => ⟨(session.onSettings SettingsCache.clear, .nothing), []⟩
  | .setShared settings => ⟨(session.onSettings (·.setShared settings), .nothing), []⟩
  | .discard =>
    ⟨(session.onBoth DocumentStore.clear SettingsCache.clear, .nothing),
      [.tearingDown session.documents.acquire.size]⟩

/-- The session after operations in the given order, with their answers. -/
def run (session : LockedSession φ) :
    List (Session.Step φ) → LockedSession φ × List (Session.Answer φ)
  -- Each operation starts from what the one before it left.
  | [] => (session, [])
  | step :: rest =>
    let (after, answer) := (session.perform step).value
    let (last, answers) := run after rest
    (last, answer :: answers)

end LockedSession

end LanguageServer
