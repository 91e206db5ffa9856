/-! Shell scripts as commands, words and redirections, with one character for each byte. -/

namespace LanguageServer.Shell

/-- What is done with the value of a parameter. -/
inductive ValueOperator where
  /-- Other characters take the place of a missing value, or of an empty one as well. -/
  | otherwise (emptyToo : Bool)
  /-- Other characters take the place of a value that is there, and not empty where that counts. -/
  | instead (emptyToo : Bool)
  /-- A pattern is taken off at the start or the end, as little or as much as fits. -/
  | trim (atEnd longest : Bool)
  deriving DecidableEq, Repr

/-- A piece of a word before expansion. -/
inductive Part where
  /-- Characters that stand for themselves, and for patterns if they are not quoted. -/
  | literal (text : List Char) (quoted : Bool)
  /-- The value of a variable or special parameter. -/
  | parameter (name : List Char) (quoted : Bool)
  /-- What an operator with an operand makes of a value. -/
  | operated (name : List Char) (operator : ValueOperator) (operand : List Char) (quoted : Bool)
  /-- The number of bytes in a variable. -/
  | size (name : List Char)
  /-- What a script writes. -/
  | output (script : List Char) (quoted : Bool)
  /-- The value of an arithmetic expression. -/
  | arithmetic (expression : List Char)
  /-- Something that was opened and never closed. -/
  | unclosed
  deriving DecidableEq, Repr

/-- A word before expansion. -/
abbrev Word := List Part

/-- The characters of a word that is neither quoted nor expanded. -/
def Word.plain? (word : Word) : Option (List Char) :=
  -- Reserved words are plain.
  word.foldrM (fun part text => match part with
    | .literal characters false => some (characters ++ text)
    | _ => none) []

/-- What a redirection does. -/
inductive Direction where
  | read
  | write
  | append
  | duplicate
  /-- The input is written in the script itself. -/
  | here
  deriving DecidableEq, Repr

/-- A redirection of a file descriptor. -/
structure Redirection where
  descriptor : Nat
  direction : Direction
  target : Word
  deriving DecidableEq, Repr

/-- A shell command. -/
inductive Command where
  /-- Assignments, then a command word with its arguments. -/
  | simple (assignments : List (List Char × Word)) (words : List Word)
      (redirections : List Redirection)
  /-- Commands whose outputs are the inputs of the next ones. -/
  | pipeline (negated : Bool) (stages : List Command)
  /-- The second command runs if the first one succeeds. -/
  | andThen (first second : Command)
  /-- The second command runs if the first one fails. -/
  | orElse (first second : Command)
  | sequence (commands : List Command)
  /-- The body of the first arm that has a pattern for the subject. -/
  | choice (subject : Word) (arms : List (List Word × Command))
  | conditional (test body otherwise : Command)
  /-- The body runs as long as the test ends as wanted. -/
  | loop (wanted : Bool) (test body : Command)
  /-- The body runs once for each of the words. -/
  | each (name : List Char) (words : List Word) (body : Command)
  /-- A name for a command, which can be called by it. -/
  | define (name : List Char) (body : Command)
  /-- Commands that share redirections, in a shell of their own or not. -/
  | group (isolated : Bool) (body : Command) (redirections : List Redirection)
  deriving Repr

end LanguageServer.Shell
