import LanguageServer.Text.Position
import LanguageServer.Uri

/-! Open documents and the edits that keep them equal to the client's texts. -/

namespace LanguageServer

/-- A document as the client last described it. -/
structure Document where
  uri : Uri
  languageId : String
  version : Int
  text : String
  /-- The number of the open that this document comes from. -/
  generation : Nat
  deriving DecidableEq, Repr

/-- One edit of a text, which replaces a stretch of it or all of it. -/
structure Change where
  range : Option Range := none
  text : String
  deriving DecidableEq, Repr

/-- A text after a stretch of it was replaced. -/
def replaceRange (text : String) (range : Range) (inserted : String) : String :=
  -- A range whose end stands before its start replaces nothing and inserts at the start.
  let start := offsetOf text.toList range.start
  let stop := max (offsetOf text.toList range.stop) start
  match splice? text.toList start stop inserted.toList with
  | some spliced => String.ofList spliced
  | none => text

/-- A text after one edit. -/
def Change.apply (text : String) (change : Change) : String :=
  -- An edit without a range brings the whole text.
  match change.range with
  | some range => replaceRange text range change.text
  | none => change.text

/-- A document after edits in the given order, at a new version. -/
def Document.edit (document : Document) (version : Int) (changes : List Change) : Document :=
  -- Each range is counted in the text that the edits before it left.
  { document with version, text := changes.foldl Change.apply document.text }

end LanguageServer
