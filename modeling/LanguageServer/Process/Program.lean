import LanguageServer.Process.Shell.Run

/-! Starting programs by name or path. -/

namespace LanguageServer

/-- The characters for the bytes of a text. -/
def byteText (text : String) : List Char :=
  -- Programs see bytes.
  Shell.ofBytes (encode text.toList)

/-- The outcome of a process that writes a text and ends with a status. -/
def Shell.Outcome.plain (written : List Char) (status : Nat) (unread : List Char) :
    Shell.Outcome :=
  -- Empty output is no piece.
  ⟨if written.isEmpty then [] else [.text written], .exit status, unread⟩

/-- Whether an argument is an option of more than one letter. -/
def isLongOption (argument : String) : Bool :=
  -- The small programs know none of them.
  argument.startsWith "--" && argument ≠ "--"

/-- The outcome of a program that comes with the system. -/
def systemProgram (tree : FileTree) (name : String) (arguments : List String)
    (input : List Char) : Shell.Outcome :=
  -- The shell reads its commands from the file that its first argument names.
  match name, arguments with
  | "env", inner :: rest =>
    if (tree.nodeAt? ["usr", "bin", inner]).isSome then systemProgram tree inner rest input
    else .plain [] 127 input
  | "sh", path :: rest | "dash", path :: rest =>
    match tree.read path with
    | .ok source =>
      Shell.runScript tree (byteText path) (rest.map byteText) (Shell.ofBytes source) input
    | .error _ => .plain [] 2 input
  | "sh", [] | "dash", [] => Shell.runScript tree (byteText name) [] input []
  | "echo", _ => .plain ([' '].intercalate (arguments.map byteText) ++ ['\n']) 0 input
  | _, _ =>
    if name ≠ "printf" && arguments.any isLongOption then .plain [] 1 input
    else match Shell.utility? tree name (arguments.map byteText) input with
      | some effect => .plain effect.written effect.status effect.unread
      | none => .plain [] 1 input

/-- The interpreter line of a script, as a path and an optional argument. -/
def interpreterLine? (content : List UInt8) : Option (String × List String) :=
  -- The line starts with a number sign and an exclamation mark.
  match Shell.ofBytes content with
  | '#' :: '!' :: rest =>
    let isBlank (character : Char) : Bool := character = ' ' || character = '\t'
    let line := (rest.takeWhile (· ≠ '\n')).dropWhile isBlank
    let path := line.takeWhile fun character => !isBlank character
    let argument := (line.drop path.length).dropWhile isBlank
    let argument := (argument.reverse.dropWhile isBlank).reverse
    if path.isEmpty then none
    else some (Shell.toPath path, if argument.isEmpty then [] else [Shell.toPath argument])
  | _ => none

/-- What stands under the name of a program. -/
def findProgram (tree : FileTree) (name : String) : Except OsError FileNode :=
  -- A name without a slash is looked for in the system's directories only.
  if name.contains '/' then tree.look name
  else if name.isEmpty then .error .notFound
  else (tree.look ("/usr/bin/" ++ name)).orElseLazy fun _ => tree.look ("/bin/" ++ name)

/-- The outcome of a program with arguments and input, or why it cannot be started. -/
def start (tree : FileTree) (program : String) (arguments : List String) (input : List UInt8) :
    Except OsError Shell.Outcome := do
  -- Only executable files and programs of the system can be started.
  match ← findProgram tree program with
  | .program name => return systemProgram tree name arguments (Shell.ofBytes input)
  | .directory | .sink | .zeros => .error .accessDenied
  | .file _ false => .error .accessDenied
  | .file content true =>
    match interpreterLine? content with
    | none => .error .badFormat
    | some (interpreter, options) =>
      match ← tree.look interpreter with
      | .program name =>
        return systemProgram tree name (options ++ program :: arguments) (Shell.ofBytes input)
      | _ => .error .accessDenied

/-- The reads in which output pieces arrive. -/
def readsOf (pieces : List Shell.Piece) : List (List UInt8) :=
  -- Output between two pauses arrives together.
  let groups := pieces.foldr (fun piece groups => match piece with
    | .pause => [] :: groups
    | .text characters => match groups with
      | group :: rest => (characters ++ group) :: rest
      | [] => [characters]) [[]]
  (groups.filter fun group => !group.isEmpty).map Shell.toBytes

/-- The number of bytes that wait in a pipe before writing into it has to wait. -/
def pipeCapacity : Nat := 65536

/-- What is seen from outside of a process that has come to an outcome. -/
def Shell.Outcome.process (outcome : Shell.Outcome) : Process where
  -- Input that fits into the pipe is never refused.
  input := if pipeCapacity < outcome.unread.length then .refused else .written
  reads := readsOf outcome.pieces
  ending := .ok outcome.ending

/-- The programs and scripts of a file tree as they run. -/
def FileTree.runner (tree : FileTree) : Runner := fun program arguments input =>
  -- Nothing breaks down once a program was started.
  (start tree program arguments input).map Shell.Outcome.process

end LanguageServer
