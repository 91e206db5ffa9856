import LanguageServer.Document.Basic
import LanguageServer.Notice
import LanguageServer.Table

/-! The store of open documents, in which every open gets a number of its own. -/

namespace LanguageServer

/-- The open documents and the number of opens so far. -/
structure DocumentStore where
  documents : Table Document := {}
  opened : Nat := 0
  deriving Repr

namespace DocumentStore

/-- The document that an open brings. -/
def incoming (store : DocumentStore) (uri : Uri) (languageId : String) (version : Int)
    (text : String) : Document :=
  -- Opens are numbered from one.
  ⟨uri, languageId, version, text, store.opened + 1⟩

/-- The store after a document was opened, whatever was held for its address. -/
def add (store : DocumentStore) (uri : Uri) (languageId : String) (version : Int)
    (text : String) : DocumentStore :=
  -- The number of opens never goes back.
  let document := store.incoming uri languageId version text
  ⟨store.documents.insert uri document, store.opened + 1⟩

/-- The document held for an address. -/
def find? (store : DocumentStore) (uri : Uri) : Option Document :=
  -- Documents are held under their addresses.
  store.documents.find? uri

/-- The store and the document after edits of a document, if it is open. -/
def change (store : DocumentStore) (uri : Uri) (version : Int) (changes : List Change) :
    Logged (DocumentStore × Option Document) :=
  -- A version that does not grow is worth a warning and is taken all the same.
  match store.find? uri with
  | none => ⟨(store, none), [.changeOfUnknown uri]⟩
  | some document =>
    let edited := document.edit version changes
    let notices := if version ≤ document.version then
        [.versionNotIncreasing uri document.version version]
      else []
    ⟨({ store with documents := store.documents.insert uri edited }, some edited), notices⟩

/-- The store without the document of an address. -/
def remove (store : DocumentStore) (uri : Uri) : DocumentStore :=
  -- The number of opens stays.
  { store with documents := store.documents.erase uri }

/-- The version of an open document. -/
def version? (store : DocumentStore) (uri : Uri) : Option Int :=
  -- Closed documents have none.
  (store.find? uri).map Document.version

/-- Whether an address is still in the same open and at the same version. -/
def holds (store : DocumentStore) (uri : Uri) (generation : Nat) (version : Int) : Bool :=
  -- A reopened document differs from what it was even at an equal version.
  match store.find? uri with
  | some document => document.generation = generation && document.version = version
  | none => false

/-- Every open document, in the order of the addresses. -/
def all (store : DocumentStore) : List Document :=
  -- The table keeps that order.
  store.documents.values

/-- The store without any document. -/
def clear (store : DocumentStore) : DocumentStore :=
  -- The number of opens stays, so that no number is given twice.
  { store with documents := {} }

/-- The number of open documents. -/
def size (store : DocumentStore) : Nat :=
  -- There is one for each address.
  store.documents.size

/-- An operation that changes a store. -/
inductive Step where
  | add (uri : Uri) (languageId : String) (version : Int) (text : String)
  | change (uri : Uri) (version : Int) (changes : List Change)
  | remove (uri : Uri)
  | clear
  deriving DecidableEq, Repr

/-- The store after an operation, and the document that the operation was about. -/
def perform (store : DocumentStore) : Step → Logged (DocumentStore × Option Document)
  -- A removed document is the one that was held.
  | .add uri languageId version text =>
    let after := store.add uri languageId version text
    ⟨(after, after.find? uri), []⟩
  | .change uri version changes => store.change uri version changes
  | .remove uri => ⟨(store.remove uri, store.find? uri), []⟩
  | .clear => ⟨(store.clear, none), []⟩

/-- The store after operations in the given order. -/
def run (store : DocumentStore) (steps : List Step) : DocumentStore :=
  -- Each operation starts from what the one before it left.
  steps.foldl (fun store step => (store.perform step).value.1) store

end DocumentStore

end LanguageServer
