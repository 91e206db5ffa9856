import LanguageServer.Settings.Basic
import LanguageServer.Table

/-! Settings held for all documents at once, and those fetched for single documents. -/

namespace LanguageServer

/-- Global settings and the fetches kept for single documents. -/
structure SettingsCache (φ : Type) where
  shared : Settings := {}
  fetched : Table φ := {}
  deriving Repr

namespace SettingsCache

variable {φ : Type}

/-- The cache and the fetch kept for a document, started only if there was none. -/
def getOrInsert (cache : SettingsCache φ) (uri : Uri) (fetch : φ) : SettingsCache φ × φ :=
  -- A fetch that is kept is used again, whether it is done or not.
  match cache.fetched.find? uri with
  | some kept => (cache, kept)
  | none => ({ cache with fetched := cache.fetched.insert uri fetch }, fetch)

/-- The cache without the fetch of a document. -/
def remove (cache : SettingsCache φ) (uri : Uri) : SettingsCache φ :=
  -- The next look-up fetches again.
  { cache with fetched := cache.fetched.erase uri }

/-- Whether a fetch is kept for a document. -/
def contains (cache : SettingsCache φ) (uri : Uri) : Bool :=
  -- The fetch need not be done.
  cache.fetched.contains uri

/-- The cache without any fetch. -/
def clear (cache : SettingsCache φ) : SettingsCache φ :=
  -- The global settings stay.
  { cache with fetched := {} }

/-- The cache with other global settings. -/
def setShared (cache : SettingsCache φ) (settings : Settings) : SettingsCache φ :=
  -- Fetches for single documents stay.
  { cache with shared := settings }

/-- The number of documents for which a fetch is kept. -/
def size (cache : SettingsCache φ) : Nat :=
  -- There is one entry for each of them.
  cache.fetched.size

end SettingsCache

end LanguageServer
