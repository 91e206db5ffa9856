import LanguageServer.Proofs.Document.Store
import LanguageServer.Session.Basic

/-! What a look for settings finds, and that settings are kept for open documents alone. -/

namespace LanguageServer.Session

variable {φ : Type} {session : Session φ} {uri : Uri}

/-- Without the client's configuration a look for settings finds those of all documents. -/
theorem settingsFor_of_incapable (incapable : session.capabilities.configuration = false)
    (uri : Uri) (fetch : Option φ) :
    session.settingsFor uri fetch = ⟨session, some (.known session.settings.shared), false⟩ := by
  -- The fetch is not even looked at.
  simp [settingsFor, incapable]

/-- For a document that is not open a look for settings starts its own fetch and keeps nothing. -/
theorem settingsFor_of_closed (capable : session.capabilities.configuration = true)
    (closed : session.documents.find? uri = none) (fetch : Option φ) :
    session.settingsFor uri fetch = ⟨session, fetch.map .fetched, true⟩ := by
  -- What is kept for the address does not matter.
  simp [settingsFor, capable, closed]

/-- For an open document a look for settings finds the fetch that is kept. -/
theorem settingsFor_of_kept (capable : session.capabilities.configuration = true)
    (opened : (session.documents.find? uri).isSome = true) {kept : φ}
    (found : session.settings.fetched.find? uri = some kept) (fetch : Option φ) :
    session.settingsFor uri fetch = ⟨session, some (.fetched kept), false⟩ := by
  -- Its own fetch is not started.
  obtain ⟨document, held⟩ := Option.isSome_iff_exists.mp opened
  simp [settingsFor, capable, held, found]

/-- Without a kept fetch, one that breaks down leaves no trace. -/
theorem settingsFor_of_broken (capable : session.capabilities.configuration = true)
    (absent : session.settings.fetched.find? uri = none) :
    session.settingsFor uri none = ⟨session, none, true⟩ := by
  -- There is nothing to keep, whether the document is open or not.
  simp [settingsFor, capable, absent]

/-- For an open document without a kept fetch, the one that is started is kept. -/
theorem settingsFor_of_absent (capable : session.capabilities.configuration = true)
    (opened : (session.documents.find? uri).isSome = true)
    (absent : session.settings.fetched.find? uri = none) (fetch : φ) :
    session.settingsFor uri (some fetch) =
      ⟨session.withSettings
          { session.settings with fetched := session.settings.fetched.insert uri fetch },
        some (.fetched fetch), true⟩ := by
  -- The cache takes it in.
  obtain ⟨document, held⟩ := Option.isSome_iff_exists.mp opened
  simp [settingsFor, capable, held, absent, SettingsCache.getOrInsert]

/-- Without a kept fetch a look for settings starts its own and finds that one. -/
theorem settingsFor_of_unkept (capable : session.capabilities.configuration = true)
    (absent : session.settings.fetched.find? uri = none) (fetch : φ) :
    (session.settingsFor uri (some fetch)).obtained = some (.fetched fetch) ∧
      (session.settingsFor uri (some fetch)).started = true := by
  -- Whether the document is open matters only for what is kept.
  cases held : session.documents.find? uri with
  | none =>
    rw [settingsFor_of_closed capable held]
    exact ⟨rfl, rfl⟩
  | some document =>
    have opened : (session.documents.find? uri).isSome = true := by simp [held]
    rw [settingsFor_of_absent capable opened absent]
    exact ⟨rfl, rfl⟩

/-- A look for settings leaves the session as it is, or keeps its own fetch for an open document. -/
theorem settingsFor_session (session : Session φ) (uri : Uri) (fetch : Option φ) :
    (session.settingsFor uri fetch).session = session ∨
      ∃ started, fetch = some started ∧ session.capabilities.configuration = true ∧
        (session.documents.find? uri).isSome = true ∧
        session.settings.fetched.find? uri = none ∧
        (session.settingsFor uri fetch).session = session.withSettings
          { session.settings with fetched := session.settings.fetched.insert uri started } := by
  -- The cases are those of the look itself.
  by_cases capable : session.capabilities.configuration = true
  · cases held : session.documents.find? uri with
    | none => exact .inl (by rw [settingsFor_of_closed capable held])
    | some document =>
      have opened : (session.documents.find? uri).isSome = true := by simp [held]
      cases found : session.settings.fetched.find? uri with
      | some kept => exact .inl (by rw [settingsFor_of_kept capable opened found])
      | none =>
        cases fetch with
        | none => exact .inl (by rw [settingsFor_of_broken capable found])
        | some started =>
          exact .inr ⟨started, rfl, capable, rfl, rfl,
            by rw [settingsFor_of_absent capable opened found]⟩
  · exact .inl (by rw [settingsFor_of_incapable (by simpa using capable)])

/-- A look for settings finds those of all documents, a kept fetch, or a fetch of its own. -/
theorem settingsFor_obtained (session : Session φ) (uri : Uri) (fetch : Option φ) :
    ((session.settingsFor uri fetch).obtained = some (.known session.settings.shared) ∧
        (session.settingsFor uri fetch).started = false) ∨
      (∃ kept, session.settings.fetched.find? uri = some kept ∧
        (session.settingsFor uri fetch).obtained = some (.fetched kept) ∧
        (session.settingsFor uri fetch).started = false) ∨
      ((session.settingsFor uri fetch).obtained = fetch.map .fetched ∧
        (session.settingsFor uri fetch).started = true) := by
  -- The cases are those of the look itself.
  by_cases capable : session.capabilities.configuration = true
  · cases held : session.documents.find? uri with
    | none =>
      rw [settingsFor_of_closed capable held]
      exact .inr (.inr ⟨rfl, rfl⟩)
    | some document =>
      have opened : (session.documents.find? uri).isSome = true := by simp [held]
      cases found : session.settings.fetched.find? uri with
      | some kept =>
        rw [settingsFor_of_kept capable opened found]
        exact .inr (.inl ⟨kept, rfl, rfl, rfl⟩)
      | none =>
        cases fetch with
        | none =>
          rw [settingsFor_of_broken capable found]
          exact .inr (.inr ⟨rfl, rfl⟩)
        | some started =>
          rw [settingsFor_of_absent capable opened found]
          exact .inr (.inr ⟨rfl, rfl⟩)
  · rw [settingsFor_of_incapable (by simpa using capable)]
    exact .inl ⟨rfl, rfl⟩

/-- A look for settings changes nothing but the fetches that are kept. -/
theorem settingsFor_frame (session : Session φ) (uri : Uri) (fetch : Option φ) :
    (session.settingsFor uri fetch).session = session.withSettings
      { session.settings with
        fetched := (session.settingsFor uri fetch).session.settings.fetched } := by
  -- Either nothing changes, or one fetch is added.
  rcases settingsFor_session session uri fetch with same | ⟨started, -, -, -, -, after⟩
  · rw [same, withSettings]
  · rw [after, withSettings, withSettings]

/-- Negotiating fixes the features of a session unless they are known. -/
theorem negotiate_session (session : Session φ) (capabilities : Capabilities) :
    (session.negotiate capabilities).value.1 =
      { session with negotiated := session.negotiated.or (some capabilities) } := by
  -- Features that are known stay.
  unfold negotiate
  cases session with
  | mk negotiated documents settings =>
    cases negotiated with
    | none => rfl
    | some former => rfl

/-- Fetches are kept for open documents alone. -/
def Attached (session : Session φ) : Prop :=
  -- The fetch need not be done.
  ∀ uri, (session.settings.fetched.find? uri).isSome = true →
    (session.documents.find? uri).isSome = true

/-- A session that has just begun keeps nothing. -/
theorem attached_empty : ({} : Session φ).Attached := by
  -- There are no fetches.
  intro uri kept
  cases kept

/-- Fetches stay with their documents as long as no document goes. -/
theorem Attached.withDocuments (attached : session.Attached) {documents : DocumentStore}
    (stays : ∀ uri, (session.documents.find? uri).isSome = true →
      (documents.find? uri).isSome = true) :
    (session.withDocuments documents).Attached := by
  -- The fetches are those of before.
  intro uri kept
  exact stays uri (attached uri kept)

/-- Fetches stay with their documents as long as no fetch comes. -/
theorem Attached.withSettings (attached : session.Attached) {settings : SettingsCache φ}
    (known : ∀ uri, (settings.fetched.find? uri).isSome = true →
      (session.settings.fetched.find? uri).isSome = true) :
    (session.withSettings settings).Attached := by
  -- The documents are those of before.
  intro uri kept
  exact attached uri (known uri kept)

/-- An open leaves every fetch with a document. -/
theorem Attached.add (attached : session.Attached) (uri : Uri) (languageId : String)
    (version : Int) (text : String) :
    (session.withDocuments (session.documents.add uri languageId version text)).Attached := by
  -- No document goes by an open.
  refine attached.withDocuments fun other opened => ?_
  rw [DocumentStore.find?_add]
  split
  · rfl
  · exact opened

/-- An edit leaves every fetch with a document. -/
theorem Attached.change (attached : session.Attached) (uri : Uri) (version : Int)
    (changes : List Change) :
    (session.withDocuments
      (session.documents.change uri version changes).value.1).Attached := by
  -- The edited document takes the place of the one before it.
  refine attached.withDocuments fun other opened => ?_
  rw [DocumentStore.find?_change]
  split
  · rename_i same
    rw [Option.isSome_map, ← same]
    exact opened
  · exact opened

/-- A close takes the document and its fetch. -/
theorem Attached.close (attached : session.Attached) (uri : Uri) :
    (session.close uri).Attached := by
  -- Other documents keep their fetches.
  intro other kept
  simp only [Session.close, SettingsCache.remove, Table.find?_erase] at kept
  simp only [Session.close, DocumentStore.find?_remove]
  by_cases same : other = uri
  · simp [same] at kept
  · rw [if_neg same] at kept ⊢
    exact attached other kept

/-- Clearing the cache leaves nothing that could be left over. -/
theorem Attached.clear (attached : session.Attached) :
    (session.withSettings session.settings.clear).Attached := by
  -- There are no fetches any more.
  refine attached.withSettings fun other kept => ?_
  cases kept

/-- The end of a session takes all documents and all fetches. -/
theorem attached_discard (session : Session φ) : session.discard.value.Attached := by
  -- There are no fetches any more.
  intro uri kept
  cases kept

/-- Negotiating features leaves fetches and documents alone. -/
theorem Attached.negotiate (attached : session.Attached) (capabilities : Capabilities) :
    (session.negotiate capabilities).value.1.Attached := by
  -- Only the features can change.
  rw [negotiate_session]
  exact attached

/-- A look for settings keeps a fetch only for an open document, whenever it comes. -/
theorem Attached.settingsFor (attached : session.Attached) (uri : Uri) (fetch : Option φ) :
    (session.settingsFor uri fetch).session.Attached := by
  -- A fetch that is kept has found its document open.
  rcases settingsFor_session session uri fetch with same | ⟨started, -, -, opened, -, after⟩
  · rw [same]
    exact attached
  · rw [after]
    intro other kept
    simp only [Session.withSettings, Table.find?_insert] at kept
    by_cases same : other = uri
    · exact same ▸ opened
    · rw [if_neg same] at kept
      exact attached other kept

end LanguageServer.Session
