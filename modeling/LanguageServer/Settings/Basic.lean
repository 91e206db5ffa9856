import LanguageServer.Json.Decode
import LanguageServer.Notice

/-! The settings that a client may give, as a whole or for each document. -/

namespace LanguageServer

/-- The section of the client's configuration that belongs to the server. -/
def settingsSection : String := "mypl"

/-- What the client can set. -/
structure Settings where
  /-- The largest number of diagnostics that are published for a document. -/
  maxProblems : Nat := 1000
  deriving DecidableEq, Repr

namespace Settings

/-- Settings from the member that may hold the largest number of diagnostics. -/
def ofLimit? (limit : Option Json) : Option Settings :=
  -- A missing number is the default, and one that is there must be readable.
  match limit with
  | none => some {}
  | some value => value.asNat64?.map Settings.mk

/-- The settings that a value writes, as an object or as an array of the values alone. -/
def read? : Json → Option Settings
  -- Unknown members are ignored, further items are not.
  | .object members => ofLimit? (Json.lookup "maxNumberOfProblems" members)
  | .array [] => ofLimit? none
  | .array [limit] => ofLimit? (some limit)
  | _ => none

/-- The settings for a value that may be missing or malformed. -/
def ofValue (value : Option Json) : Logged Settings :=
  -- Whatever cannot be read is replaced by the defaults.
  match value with
  | none | some .null => ⟨{}, []⟩
  | some value =>
    match read? value with
    | some settings => ⟨settings, []⟩
    | none => ⟨{}, [.settingsMalformed]⟩

end Settings

end LanguageServer
