import LanguageServer.Process.Runner
import LanguageServer.Process.Shell.Command
import LanguageServer.Process.Shell.Pattern
import LanguageServer.Process.Shell.Utility

/-! The state of a running script, and what its parts mean in that state. -/

namespace LanguageServer.Shell

/-- A piece of output, or a pause that a reader notices. -/
inductive Piece where
  | text (characters : List Char)
  | pause
  deriving DecidableEq, Repr

/-- Where a script goes on when it leaves its commands early. -/
inductive Leaving where
  /-- Behind so many loops. -/
  | breaking (count : Nat)
  /-- With the next turn of a loop, so many loops outward. -/
  | continuing (count : Nat)
  /-- Behind the call of a command that the script defines. -/
  | returning
  deriving DecidableEq, Repr

/-- A running script. -/
structure Machine where
  tree : FileTree
  name : List Char
  arguments : List (List Char)
  bindings : List (List Char × List Char) := []
  input : List Char
  /-- The output so far, the last piece first. -/
  written : List Piece := []
  status : Nat := 0
  /-- How the script ends before its last command, if it does. -/
  ending : Option Ending := none
  /-- The commands that the script defines. -/
  functions : List (List Char × Command) := []
  /-- The number of loops around the current command. -/
  loops : Nat := 0
  leaving : Option Leaving := none
  /-- Whether a failure ends the script. -/
  strict : Bool := false
  deriving Repr

/-- The number under which a script knows itself. -/
def processNumber : List Char := "4242".toList

/-- The characters of output pieces that were collected in reverse. -/
def writtenText (pieces : List Piece) : List Char :=
  -- Pauses leave no trace in a text.
  pieces.reverse.flatMap fun piece => match piece with
    | .text characters => characters
    | .pause => []

namespace Machine

/-- Whether the commands that come next are left out. -/
def stopped (machine : Machine) : Bool :=
  -- The script ends or goes on elsewhere.
  machine.ending.isSome || machine.leaving.isSome

/-- The value of a variable or special parameter. -/
def value? (machine : Machine) (name : List Char) : Option (List Char) :=
  -- Positional parameters are counted from one.
  match name with
  | ['#'] => some (toString machine.arguments.length).toList
  | ['?'] => some (toString machine.status).toList
  | ['$'] => some processNumber
  | ['*'] | ['@'] => some ([' '].intercalate machine.arguments)
  | ['0'] => some machine.name
  | [digit] =>
    if digit.isDigit then machine.arguments[digit.toNat - '0'.toNat - 1]?
    else machine.bindings.lookup name
  | _ => machine.bindings.lookup name

/-- The value of a variable, where a missing one is empty. -/
def value (machine : Machine) (name : List Char) : List Char :=
  -- Nothing is reported about a missing variable.
  (machine.value? name).getD []

/-- The machine with a variable set. -/
def assign (machine : Machine) (name text : List Char) : Machine :=
  -- The newest value is found first.
  { machine with bindings := (name, text) :: machine.bindings.filter fun held => held.1 ≠ name }

/-- The machine after more output. -/
def write (machine : Machine) (text : List Char) : Machine :=
  -- Empty output leaves no piece.
  if text.isEmpty then machine else { machine with written := .text text :: machine.written }

/-- The machine after a program. -/
def apply (machine : Machine) (effect : Effect) : Machine :=
  -- What the program did not read is left for others.
  { machine.write effect.written with input := effect.unread, status := effect.status }

/-- The machine for a part of the script that cannot change the variables of the whole. -/
def child (machine : Machine) (input : List Char) : Machine :=
  -- It collects output of its own.
  { machine with input, written := [], ending := none, leaving := none }

/-- The machine after such a part, without its output. -/
def absorb (machine child : Machine) : Machine :=
  -- A kill reaches the whole script, an exit only the part.
  { machine with
    tree := child.tree
    status := match child.ending with
      | some (.exit status) => status
      | _ => child.status
    ending := match child.ending with
      | some (.killed signal) => some (.killed signal)
      | _ => machine.ending }

/-- The machine with the variables that some names had before. -/
def restore (machine before : Machine) (names : List (List Char)) : Machine :=
  -- A variable that was not there is taken away again.
  { machine with bindings :=
      (names.filterMap fun name => (before.bindings.lookup name).map fun text => (name, text)) ++
        machine.bindings.filter fun held => !names.contains held.1 }

/-- The machine behind a turn of a loop, and whether the loop goes on. -/
def endTurn (machine : Machine) : Machine × Bool :=
  -- Each loop counts down by one.
  match machine.leaving with
  | none => (machine, true)
  | some (.breaking count) =>
    ({ machine with leaving := if count ≤ 1 then none else some (.breaking (count - 1)) }, false)
  | some (.continuing count) =>
    if count ≤ 1 then ({ machine with leaving := none }, true)
    else ({ machine with leaving := some (.continuing (count - 1)) }, false)
  | some .returning => (machine, false)

end Machine

/-- A part of a word after expansion. -/
inductive Fragment where
  /-- Characters that stay together. -/
  | whole (text : List Char) (quoted : Bool)
  /-- Characters that are divided at blanks. -/
  | divisible (text : List Char)
  /-- Fields of their own. -/
  | fields (texts : List (List Char))
  deriving DecidableEq, Repr

/-- The characters of expanded parts. -/
def fragmentText (fragments : List Fragment) : List Char :=
  -- Nothing is divided.
  fragments.flatMap fun fragment => match fragment with
    | .whole text _ | .divisible text => text
    | .fields texts => [' '].intercalate texts

/-- The pattern of expanded parts, behind characters that are not quoted. -/
def patternFrom (pending : List Char) : List Fragment → List PatternItem
  -- Quoted characters stand for themselves, and the others are read together.
  | [] => patternItems (pending.length + 1) pending
  | .whole text true :: rest =>
    patternItems (pending.length + 1) pending ++ text.map .exactly ++ patternFrom [] rest
  | .whole text false :: rest | .divisible text :: rest => patternFrom (pending ++ text) rest
  | .fields texts :: rest =>
    patternItems (pending.length + 1) pending ++ ([' '].intercalate texts).map .exactly ++
      patternFrom [] rest

/-- The pattern of expanded parts. -/
def fragmentPattern (fragments : List Fragment) : List PatternItem :=
  -- Nothing stands in front of them.
  patternFrom [] fragments

/-- Finished fields in reverse, and the field that may still grow. -/
structure Fields where
  finished : List (List Char) := []
  /-- The characters of the growing field in reverse. -/
  growing : Option (List Char) := none
  deriving DecidableEq, Repr

namespace Fields

/-- The fields after the growing one has ended. -/
def close (fields : Fields) : Fields :=
  -- Nothing ends if nothing has started.
  match fields.growing with
  | some text => ⟨text.reverse :: fields.finished, none⟩
  | none => fields

/-- The fields after characters that stay together. -/
def add (fields : Fields) (text : List Char) : Fields :=
  -- Even no characters start a field.
  ⟨fields.finished, some (text.reverse ++ fields.growing.getD [])⟩

/-- The fields after one character that may divide them. -/
def addDivisible (fields : Fields) (character : Char) : Fields :=
  -- Blanks and line ends divide.
  if character = ' ' || character = '\t' || character = '\n' then fields.close
  else fields.add [character]

/-- The fields after an expanded part. -/
def addFragment (fields : Fields) : Fragment → Fields
  -- An empty part that is not quoted starts no field.
  | .whole text quoted => if text.isEmpty && !quoted then fields else fields.add text
  | .divisible text => text.foldl addDivisible fields
  | .fields [] => fields
  | .fields (first :: rest) =>
    rest.foldl (fun fields text => fields.close.add text) (fields.add first)

end Fields

/-- The fields into which an expanded word falls. -/
def fragmentFields (fragments : List Fragment) : List (List Char) :=
  -- They were collected in reverse.
  (fragments.foldl Fields.addFragment {}).close.finished.reverse

/-- Whether a comparison of two numbers holds. -/
def compareNumbers? (operator : String) (left right : Int) : Option Bool :=
  -- The operators are named by letters.
  match operator with
  | "-eq" => some (left = right)
  | "-ne" => some (left ≠ right)
  | "-lt" => some (left < right)
  | "-le" => some (left ≤ right)
  | "-gt" => some (left > right)
  | "-ge" => some (left ≥ right)
  | _ => none

/-- The integer that a text writes in decimal digits. -/
def decimalInteger (text : List Char) : Int :=
  -- Blanks in front do not count.
  match text.dropWhile Char.isWhitespace with
  | '-' :: rest => -(decimal (rest.takeWhile Char.isDigit) : Int)
  | rest => decimal (rest.takeWhile Char.isDigit)

/-- Whether a test of one or two operands holds. -/
def testHolds (tree : FileTree) : List (List Char) → Bool
  -- An unknown operator never holds.
  | [] => false
  | [text] => !text.isEmpty
  | ['!'] :: rest => !testHolds tree rest
  | [operator, text] =>
    match String.ofList operator with
    | "-n" => !text.isEmpty
    | "-z" => text.isEmpty
    | "-e" => tree.contains (toPath text)
    | "-f" => match tree.look (toPath text) with
      | .ok (.file _ _) => true
      | _ => false
    | "-d" => match tree.look (toPath text) with
      | .ok .directory => true
      | _ => false
    | _ => false
  | [left, operator, right] =>
    match String.ofList operator with
    | "=" => left = right
    | "!=" => left ≠ right
    | name => (compareNumbers? name (decimalInteger left) (decimalInteger right)).getD false
  | _ => false

/-- The signal that the arguments of kill name, and the processes behind it. -/
def signalOf : List (List Char) → Nat × List (List Char)
  -- Without a signal the usual one is sent.
  | ['-', 's'] :: name :: rest => (named name, rest)
  | ('-' :: text) :: rest => (if text.all Char.isDigit then decimal text else named text, rest)
  | rest => (15, rest)
where
  /-- The number of a named signal. -/
  named (name : List Char) : Nat :=
    match String.ofList name with
    | "HUP" => 1
    | "INT" => 2
    | "KILL" => 9
    | _ => 15

/-- The first words of a line and the rest of it, without blanks around them. -/
def lineFields : Nat → List Char → List (List Char)
  -- The last field holds all that is left.
  | 0, _ => []
  | 1, text =>
    [((text.dropWhile Char.isWhitespace).reverse.dropWhile Char.isWhitespace).reverse]
  | count + 2, text =>
    let text := text.dropWhile Char.isWhitespace
    let field := text.takeWhile fun character => !character.isWhitespace
    field :: lineFields (count + 1) (text.drop field.length)

/-- A line in which a backslash takes the special meaning from the character behind it. -/
def withoutBackslashes : List Char → List Char
  -- No character has one here.
  | '\\' :: character :: rest => character :: withoutBackslashes rest
  | character :: rest => character :: withoutBackslashes rest
  | [] => []

/-- The machine after a line of input was read into variables. -/
def Machine.readLine (machine : Machine) (arguments : List (List Char)) : Machine :=
  -- Blanks around a line are kept only if the script says that nothing divides fields.
  let names := arguments.filter fun argument => !isOption argument
  let line := machine.input.takeWhile (· ≠ '\n')
  let rest := machine.input.drop line.length
  let shown := if arguments.contains ['-', 'r'] then line else withoutBackslashes line
  let fields := if machine.value? "IFS".toList = some [] then [shown]
    else lineFields names.length shown
  let after := { machine with input := rest.drop 1, status := if rest.isEmpty then 1 else 0 }
  (names.zipIdx).foldl (fun machine (name, index) =>
    machine.assign name (fields.getD index [])) after

/-- The machine after the arguments or the strictness of the script were set. -/
def Machine.setOptions (machine : Machine) : List (List Char) → Machine
  -- Options come before arguments.
  | ['-', '-'] :: rest => { machine with arguments := rest, status := 0 }
  | ('-' :: letters) :: rest =>
    ({ machine with strict := machine.strict || letters.contains 'e' } : Machine).setOptions rest
  | ('+' :: letters) :: rest =>
    ({ machine with strict := machine.strict && !letters.contains 'e' } : Machine).setOptions rest
  | [] => { machine with status := 0 }
  | rest => { machine with arguments := rest, status := 0 }

/-- The machine after it was told to leave loops. -/
def Machine.leaveLoops (machine : Machine) (arguments : List (List Char))
    (leaving : Nat → Leaving) : Machine :=
  -- Outside of loops there is nothing to leave.
  let count := arguments.head?.elim 1 decimal
  if machine.loops = 0 then { machine with status := 0 }
  else { machine with leaving := some (leaving (min count machine.loops)), status := 0 }

/-- The machine after a command that is part of the shell, if there is one of that name. -/
def shellCommand? (machine : Machine) (name : String) (arguments : List (List Char)) :
    Option Machine :=
  -- These commands change the machine itself.
  match name with
  | "exit" =>
    let status := match arguments with
      | status :: _ => if status.all Char.isDigit then decimal status % 256 else 2
      | [] => machine.status
    some { machine with ending := some (.exit status), status }
  | "return" =>
    let status := match arguments with
      | status :: _ => decimal status % 256
      | [] => machine.status
    some { machine with leaving := some .returning, status }
  | "break" => some (machine.leaveLoops arguments .breaking)
  | "continue" => some (machine.leaveLoops arguments .continuing)
  | "set" => some (machine.setOptions arguments)
  | "kill" =>
    let (signal, targets) := signalOf arguments
    if targets.contains processNumber && signal ≠ 0 then
      some { machine with ending := some (.killed signal) }
    else some { machine with status := if targets.contains processNumber then 0 else 1 }
  | "sleep" => some { machine with written := .pause :: machine.written, status := 0 }
  | "shift" =>
    let count := match arguments with
      | count :: _ => decimal count
      | [] => 1
    some { machine with arguments := machine.arguments.drop count, status := 0 }
  | "read" => some (machine.readLine arguments)
  | "test" => some { machine with status := if testHolds machine.tree arguments then 0 else 1 }
  | "[" => some
    { machine with status := if testHolds machine.tree arguments.dropLast then 0 else 1 }
  | _ => none

/-- The machine after a command word with its arguments. -/
def runNamed (machine : Machine) (name : List Char) (arguments : List (List Char)) : Machine :=
  -- A command that is not found has a status of its own.
  match shellCommand? machine (String.ofList name) arguments with
  | some after => after
  | none =>
    match utility? machine.tree (String.ofList name) arguments machine.input with
    | some effect => machine.apply effect
    | none => { machine with status := 127 }

/-- Where a command's output goes. -/
inductive Target where
  | same
  | nowhere
  | file (path : String) (append : Bool)
  deriving DecidableEq, Repr

/-- Where a command's input comes from and its output goes to, none if a file cannot be read. -/
structure Routing where
  input : Option (List Char) := none
  target : Target := .same
  deriving DecidableEq, Repr

/-- The routing after one more redirection with its expanded target. -/
def Routing.add? (routing : Routing) (tree : FileTree) (redirection : Redirection)
    (target : List Char) : Option Routing :=
  -- The error output is never looked at.
  match redirection.descriptor, redirection.direction with
  | 0, .read => match tree.read (toPath target) with
    | .ok bytes => some { routing with input := some (ofBytes bytes) }
    | .error _ => none
  | 0, .here => some { routing with input := some target }
  | 1, .write => some { routing with target := .file (toPath target) false }
  | 1, .append => some { routing with target := .file (toPath target) true }
  | 1, .duplicate => some (if target = ['1'] then routing else { routing with target := .nowhere })
  | _, _ => some routing

/-- The machine after a routed command, given the machine before it and what the command did. -/
def Routing.finish (routing : Routing) (before after : Machine) : Machine :=
  -- Output that goes elsewhere is not part of the machine's own.
  let input := if routing.input.isSome then before.input else after.input
  let after := { after with input }
  match routing.target with
  | .same => { after with written := after.written ++ before.written }
  | .nowhere => { after with written := before.written }
  | .file path append =>
    match after.tree.write path (toBytes (writtenText after.written)) append with
    | .ok tree => { after with written := before.written, tree }
    | .error _ => { after with written := before.written, status := 2 }

end LanguageServer.Shell
