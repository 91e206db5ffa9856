import LanguageServer.Notice
import LanguageServer.Text.Position

/-! Formatting replaces a whole document by what the compiler prints for it. -/

namespace LanguageServer

/-- A stretch of a document and the text to put in its place. -/
structure TextEdit where
  range : Range
  newText : String
  deriving DecidableEq, Repr

/-- The beginnings by which a printed text is known to be an error report. -/
def failureHeads : List String :=
  -- They are compared without regard to the case of ASCII letters.
  ["Parser Error", "Lexer Error", "Print Error"]

/-- Whether a text begins with a word, whatever the case of ASCII letters. -/
def beginsWith (word text : List Char) : Bool :=
  -- Letters of other scripts keep their case.
  (text.take word.length).map Char.toLower == word.map Char.toLower

/-- Whether a printed text is an error report. -/
def reportsFailure (output : List Char) : Bool :=
  -- Only the beginning is looked at.
  failureHeads.any fun head => beginsWith head.toList output

/-- The first line of a text without its line break. -/
def firstLine (text : List Char) : List Char :=
  -- A carriage return just before the line feed belongs to the break.
  let line := text.takeWhile (· ≠ '\n')
  if line.length < text.length && line.getLast? = some '\r' then line.dropLast else line

/-- The edits that turn a document into what the compiler printed for it. -/
def replacingEdits (text output : String) : Logged (List TextEdit) :=
  -- A report or an empty print of a text that is not empty changes nothing.
  if reportsFailure output.toList then
    ⟨[], [.printFailed (String.ofList (firstLine output.toList))]⟩
  else if output.isEmpty && !text.isEmpty then ⟨[], [.printedNothing]⟩
  else ⟨[⟨⟨⟨0, 0⟩, positionAfter text.toList⟩, output⟩], []⟩

/-- The edits for a document, given how the compiler answered the order to print it. -/
def formatAnswer (text : String) : Except InvocationError String → Logged (List TextEdit)
  -- A failed invocation changes nothing.
  | .ok output => replacingEdits text output
  | .error error => ⟨[], [.formattingSkipped error]⟩

end LanguageServer
