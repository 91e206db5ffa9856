import LanguageServer.Document.Store
import LanguageServer.Settings.Cache

/-! A session ties open documents, their settings and the client's features together. -/

namespace LanguageServer

/-- All that the server remembers between messages of one client. -/
structure Session (φ : Type) where
  negotiated : Option Capabilities := none
  documents : DocumentStore := {}
  settings : SettingsCache φ := {}
  deriving Repr

/-- Settings that are known at once, or a fetch that will bring them. -/
inductive Obtained (φ : Type) where
  | known (settings : Settings)
  | fetched (fetch : φ)
  deriving DecidableEq, Repr

/-- What a settings look-up does, with the session it leaves. -/
structure Lookup (φ : Type) where
  session : Session φ
  /-- Absent if the fetch was started and broke down. -/
  obtained : Option (Obtained φ)
  /-- Whether the fetch was started. -/
  started : Bool
  deriving Repr

namespace Session

variable {φ : Type}

/-- The client's features, none of them before they were negotiated. -/
def capabilities (session : Session φ) : Capabilities :=
  -- The least is assumed of an unknown client.
  session.negotiated.getD {}

/-- The session after features were negotiated, and whether they were taken. -/
def negotiate (session : Session φ) (capabilities : Capabilities) : Logged (Session φ × Bool) :=
  -- Features are fixed by the first negotiation.
  match session.negotiated with
  | none => ⟨({ session with negotiated := some capabilities }, true), []⟩
  | some _ => ⟨(session, false), [.alreadyNegotiated]⟩

/-- The session after a document was closed. -/
def close (session : Session φ) (uri : Uri) : Session φ :=
  -- Settings go together with their document.
  { session with
    documents := session.documents.remove uri
    settings := session.settings.remove uri }

/-- The session with other documents. -/
def withDocuments (session : Session φ) (documents : DocumentStore) : Session φ :=
  -- Settings stay.
  { session with documents }

/-- The session with the settings cache changed. -/
def withSettings (session : Session φ) (settings : SettingsCache φ) : Session φ :=
  -- Documents stay.
  { session with settings }

/-- The settings of a document, where the given fetch is started if one is needed. -/
def settingsFor (session : Session φ) (uri : Uri) (fetch : Option φ) : Lookup φ :=
  -- A fetch is kept only for an open document, and a broken one is not kept at all.
  if !session.capabilities.configuration then
    ⟨session, some (.known session.settings.shared), false⟩
  else if (session.documents.find? uri).isNone then
    ⟨session, fetch.map Obtained.fetched, true⟩
  else match session.settings.fetched.find? uri, fetch with
    | some kept, _ => ⟨session, some (.fetched kept), false⟩
    | none, none => ⟨session, none, true⟩
    | none, some fetch =>
      let (settings, kept) := session.settings.getOrInsert uri fetch
      ⟨session.withSettings settings, some (.fetched kept), true⟩

/-- The session after its end, with no document and no settings of documents. -/
def discard (session : Session φ) : Logged (Session φ) :=
  -- Global settings and features stay.
  ⟨{ session with
      documents := session.documents.clear
      settings := session.settings.clear },
    [.tearingDown session.documents.size]⟩

end Session

end LanguageServer
