import LanguageServer.Diagnostic
import LanguageServer.Document.Basic
import LanguageServer.Formatting
import LanguageServer.Json.Decode

/-! Positions, ranges, edits and diagnostics as they travel between client and server. -/

namespace LanguageServer

/-- A position as it is sent. -/
def Position.toJson (position : Position) : Json :=
  -- Both counts start at zero.
  .object [("line", .nat position.line), ("character", .nat position.character)]

/-- A range as it is sent. -/
def Range.toJson (range : Range) : Json :=
  -- The end is not part of the range.
  .object [("start", range.start.toJson), ("end", range.stop.toJson)]

/-- An edit as it is sent. -/
def TextEdit.toJson (edit : TextEdit) : Json :=
  -- The new text takes the place of the range.
  .object [("range", edit.range.toJson), ("newText", .string edit.newText)]

/-- A diagnostic as it is sent. -/
def Diagnostic.toJson (diagnostic : Diagnostic) : Json :=
  -- Nothing but range and message is told.
  .object [("range", diagnostic.range.toJson), ("message", .string diagnostic.message)]

/-- A position as it is received. -/
def Position.ofJson? (value : Json) : Option Position := do
  -- Both counts are unsigned 32-bit integers.
  let field ← value.record? ["line", "character"]
  let line ← Json.required? Json.asNat32? (field "line")
  let character ← Json.required? Json.asNat32? (field "character")
  return ⟨line, character⟩

/-- A range as it is received. -/
def Range.ofJson? (value : Json) : Option Range := do
  -- The end may stand before the start.
  let field ← value.record? ["start", "end"]
  let start ← Json.required? Position.ofJson? (field "start")
  let stop ← Json.required? Position.ofJson? (field "end")
  return ⟨start, stop⟩

/-- An edit of a document as it is received. -/
def Change.ofJson? (value : Json) : Option Change := do
  -- The length of the range is checked and not used.
  let field ← value.record? ["range", "rangeLength", "text"]
  let range ← Json.optional? Range.ofJson? (field "range")
  let _ ← Json.optional? Json.asNat32? (field "rangeLength")
  let text ← Json.required? Json.asString? (field "text")
  return ⟨range, text⟩

end LanguageServer
