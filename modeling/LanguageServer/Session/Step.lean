import LanguageServer.Session.Basic

/-! Histories of a session, as operations with their answers. -/

namespace LanguageServer.Session

variable {φ : Type}

/-- An operation on a session. -/
inductive Step (φ : Type) where
  | negotiate (capabilities : Capabilities)
  | addDocument (uri : Uri) (languageId : String) (version : Int) (text : String)
  | changeDocument (uri : Uri) (version : Int) (changes : List Change)
  | closeDocument (uri : Uri)
  /-- A look-up whose fetch breaks down when it is started, if there is no fetch. -/
  | settingsFor (uri : Uri) (fetch : Option φ)
  | clearSettings
  | setShared (settings : Settings)
  | discard
  deriving DecidableEq, Repr

/-- What an operation answers. -/
inductive Answer (φ : Type) where
  | nothing
  | accepted (taken : Bool)
  | document (document : Option Document)
  | settings (obtained : Option (Obtained φ)) (started : Bool)
  deriving DecidableEq, Repr

/-- The session after an operation, with the operation's answer. -/
def perform (session : Session φ) : Step φ → Logged (Session φ × Answer φ)
  -- Operations on documents leave the settings alone, except for a close.
  | .negotiate capabilities => do
    let (after, taken) ← session.negotiate capabilities
    return (after, .accepted taken)
  | .addDocument uri languageId version text => do
    let (documents, document) ← session.documents.perform (.add uri languageId version text)
    return (session.withDocuments documents, .document document)
  | .changeDocument uri version changes => do
    let (documents, document) ← session.documents.perform (.change uri version changes)
    return (session.withDocuments documents, .document document)
  | .closeDocument uri => return (session.close uri, .document (session.documents.find? uri))
  | .settingsFor uri fetch =>
    let found := session.settingsFor uri fetch
    return (found.session, .settings found.obtained found.started)
  | .clearSettings => return (session.withSettings session.settings.clear, .nothing)
  | .setShared settings =>
    return (session.withSettings (session.settings.setShared settings), .nothing)
  | .discard => do
    let after ← session.discard
    return (after, .nothing)

/-- The session after operations in the given order, with their answers. -/
def run (session : Session φ) : List (Step φ) → Session φ × List (Answer φ)
  -- Each operation starts from what the one before it left.
  | [] => (session, [])
  | step :: rest =>
    let (after, answer) := (session.perform step).value
    let (last, answers) := run after rest
    (last, answer :: answers)

end LanguageServer.Session
