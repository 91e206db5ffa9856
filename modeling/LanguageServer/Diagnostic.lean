import LanguageServer.Notice
import LanguageServer.Text.LeadingInteger
import LanguageServer.Text.Position
import LanguageServer.Text.Search

/-! The compiler's error text read as a diagnostic at the place it names. -/

namespace LanguageServer

/-- A message about a stretch of a document. -/
structure Diagnostic where
  range : Range
  message : String
  deriving DecidableEq, Repr

/-- Lines and columns are below this bound. -/
def positionBound : Int := 4294967296

/-- What an output of the compiler says about the source. -/
inductive Finding where
  /-- No error is reported. -/
  | clean
  /-- An error is reported without a line and a column that can be read. -/
  | unusable
  /-- An error is reported at a line or column that cannot be a position. -/
  | negative
  /-- An error is reported at a line and a column counted from one. -/
  | located (line column : Nat)
  deriving DecidableEq, Repr

/-- What the text behind the word "line" says. -/
def Finding.behindLine (text : List Char) : Finding :=
  -- The column is looked for behind the line number's word.
  let column := (splitFirst? "column".toList text).bind fun parts => leadingInteger? parts.2
  match leadingInteger? text, column with
  | some line, some column =>
    if 0 ≤ line ∧ line < positionBound ∧ 0 ≤ column ∧ column < positionBound then
      .located line.toNat column.toNat
    else .negative
  | _, _ => .unusable

/-- What an output of the compiler says, by the first line number in it. -/
def Finding.ofOutput (output : List Char) : Finding :=
  -- An output that names no line reports no error.
  match splitFirst? "line".toList output with
  | none => .clean
  | some (_, behind) => .behindLine behind

/-- The message of an error text, which ends before the last word "at". -/
def errorMessage (output : List Char) : List Char :=
  -- Without that word the whole text is the message.
  match splitLast? "at".toList output with
  | some (before, _) => trim before
  | none => trim output

/-- The stretch of one character that a line and a column counted from one name. -/
def Range.ofLineColumn (line column : Nat) : Range :=
  -- Zero is read as the first line or column.
  ⟨⟨line - 1, column - 1⟩, ⟨line - 1, column⟩⟩

/-- The diagnostic that an output of the compiler calls for. -/
def diagnose (output : String) : Logged (Option Diagnostic) :=
  -- An error that cannot be placed leaves a warning.
  match Finding.ofOutput output.toList with
  | .clean => ⟨none, []⟩
  | .unusable => ⟨none, [.positionUnusable output]⟩
  | .negative => ⟨none, [.positionNegative output]⟩
  | .located line column =>
    let range := Range.ofLineColumn line column
    ⟨some ⟨range, String.ofList (errorMessage output.toList)⟩,
      [.errorLocated range.start.line range.start.character]⟩

end LanguageServer
