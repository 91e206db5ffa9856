import LanguageServer.Json.Decode
import LanguageServer.Protocol.Position

/-! Completion items that a client sends back, with all that is unknown or null left out. -/

namespace LanguageServer

/-- A way to read a value and to say it again in plain form. -/
abbrev Restate := Json → Option Json

namespace Restate

/-- A text. -/
def text : Restate :=
  -- Texts are said as they are.
  fun value => value.asString?.map Json.string

/-- A truth value. -/
def truth : Restate :=
  -- Truth values are said as they are.
  fun value => value.asBool?.map Json.bool

/-- A code from an open list of numbers. -/
def code : Restate :=
  -- Codes that mean nothing are said as they are.
  fun value => value.asInt32?.map Json.int

/-- Any value at all. -/
def any : Restate :=
  -- Nothing is refused.
  some

/-- A list whose items are all of one kind. -/
def list (item : Restate) : Restate :=
  -- Every item must be readable.
  fun value => (value.asListOf? item).map Json.array

/-- One of two kinds, the first that fits. -/
def either (first second : Restate) : Restate :=
  -- The second is tried where the first refuses.
  fun value => (first value).orElse fun _ => second value

/-- One of a few words. -/
def oneOf (words : List String) : Restate :=
  -- Case matters.
  fun value => value.asString?.bind fun word => if words.contains word then some value else none

/-- A field of a record, which may be left out or not. -/
structure Field where
  name : String
  needed : Bool
  restate : Restate

/-- The restated field of a record, absent if there is nothing to say. -/
def Field.read? (field : Field) (fields : String → Option Json) :
    Option (Option (String × Json)) :=
  -- Null counts as left out where the field may be left out.
  if field.needed then
    ((fields field.name).bind field.restate).map fun value => some (field.name, value)
  else
    (Json.optional? field.restate (fields field.name)).map fun value =>
      value.map fun value => (field.name, value)

/-- A record with the given fields in order. -/
def record (fields : List Field) : Restate :=
  -- Unknown members are left out.
  fun value => do
    let given ← value.record? (fields.map Field.name)
    let read ← fields.mapM fun field => field.read? given
    return .object (read.filterMap id)

/-- A text with a kind of markup. -/
def markup : Restate :=
  -- There are two kinds of markup.
  record [⟨"kind", true, oneOf ["plaintext", "markdown"]⟩, ⟨"value", true, text⟩]

/-- A range. -/
def range : Restate :=
  -- Ranges are said with the names of their parts.
  fun value => (Range.ofJson? value).map Range.toJson

/-- An edit. -/
def edit : Restate :=
  -- The new text may be empty.
  record [⟨"range", true, range⟩, ⟨"newText", true, text⟩]

/-- An edit that either inserts or replaces. -/
def insertOrReplace : Restate :=
  -- Both ranges are given.
  record [⟨"newText", true, text⟩, ⟨"insert", true, range⟩, ⟨"replace", true, range⟩]

/-- A command with its arguments. -/
def command : Restate :=
  -- Arguments are any values.
  record [⟨"title", true, text⟩, ⟨"command", true, text⟩, ⟨"arguments", false, list any⟩]

/-- A completion item. -/
def completionItem : Restate :=
  -- Only the label is needed.
  record [⟨"label", true, text⟩,
    ⟨"labelDetails", false, record [⟨"detail", false, text⟩, ⟨"description", false, text⟩]⟩,
    ⟨"kind", false, code⟩, ⟨"detail", false, text⟩,
    ⟨"documentation", false, either text markup⟩, ⟨"deprecated", false, truth⟩,
    ⟨"preselect", false, truth⟩, ⟨"sortText", false, text⟩, ⟨"filterText", false, text⟩,
    ⟨"insertText", false, text⟩, ⟨"insertTextFormat", false, code⟩,
    ⟨"insertTextMode", false, code⟩, ⟨"textEdit", false, either edit insertOrReplace⟩,
    ⟨"additionalTextEdits", false, list edit⟩, ⟨"command", false, command⟩,
    ⟨"commitCharacters", false, list text⟩, ⟨"data", false, any⟩, ⟨"tags", false, list code⟩]

end Restate

end LanguageServer
