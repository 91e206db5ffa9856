import LanguageServer.Process.Shell.Arithmetic
import LanguageServer.Process.Shell.Grammar
import LanguageServer.Process.Shell.Machine

/-! Running scripts, with a bound on the depth of commands and the turns of loops. -/

namespace LanguageServer.Shell

/-- A text without line feeds at its end and without null bytes. -/
def substituted (text : List Char) : List Char :=
  -- Line feeds inside the text stay.
  ((text.reverse.dropWhile (· = '\n')).reverse).filter (· ≠ '\x00')

/-- What an operator makes of a value that may be missing, given its expanded operand. -/
def ValueOperator.apply (operator : ValueOperator) (held : Option (List Char))
    (operand : List Fragment) : List Char :=
  -- A value counts as there unless it is empty and empty values do not count.
  let counts (emptyToo : Bool) : Bool := held.any fun text => !(emptyToo && text.isEmpty)
  match operator with
  | .otherwise emptyToo => if counts emptyToo then held.getD [] else fragmentText operand
  | .instead emptyToo => if counts emptyToo then fragmentText operand else []
  | .trim atEnd longest => trimmed (fragmentPattern operand) atEnd longest (held.getD [])

/-- Whether a failure of a command ends a strict script. -/
def Command.isDecisive : Command → Bool
  -- A failure that decides what is run next is expected.
  | .simple _ _ _ | .pipeline false _ | .group true _ _ => true
  | _ => false

mutual

/-- The machine and the expansion of a word's part. -/
def expandPart : Nat → Machine → Part → Machine × Fragment
  -- A script inside a word reads the same input.
  | 0, machine, _ => (machine, .whole [] false)
  | bound + 1, machine, part =>
    match part with
    | .literal text quoted => (machine, .whole text quoted)
    | .parameter ['@'] true => (machine, .fields machine.arguments)
    | .parameter name quoted =>
      let text := machine.value name
      (machine, if quoted then .whole text true else .divisible text)
    | .operated name operator operand quoted =>
      let (machine, fragments) := expandWord bound machine (wordOf operand)
      let text := operator.apply (machine.value? name) fragments
      (machine, if quoted then .whole text true else .divisible text)
    | .size name => (machine, .whole (toString (machine.value name).length).toList true)
    | .output source quoted =>
      let child := runAll bound (machine.child machine.input) (script source).1
      let text := substituted (writtenText child.written)
      ({ machine.absorb child with input := child.input },
        if quoted then .whole text true else .divisible text)
    | .arithmetic expression =>
      let (machine, fragments) := expandWord bound machine (hereWord expression)
      let value (name : List Char) : Int := argumentInteger (machine.value name)
      match evaluate? value (fragmentText fragments) with
      | some result => (machine, .whole (toString result).toList true)
      | none => ({ machine with ending := some (.exit 2) }, .whole [] true)
    | .unclosed => (machine, .whole [] true)

/-- The machine and the expansion of a word. -/
def expandWord : Nat → Machine → Word → Machine × List Fragment
  -- Parts are expanded from left to right.
  | 0, machine, _ => (machine, [])
  | _ + 1, machine, [] => (machine, [])
  | bound + 1, machine, part :: rest =>
    let (machine, fragment) := expandPart bound machine part
    let (machine, fragments) := expandWord bound machine rest
    (machine, fragment :: fragments)

/-- The machine and the fields of words. -/
def expandWords : Nat → Machine → List Word → Machine × List (List Char)
  -- One word may fall into several fields or none.
  | 0, machine, _ => (machine, [])
  | _ + 1, machine, [] => (machine, [])
  | bound + 1, machine, word :: rest =>
    let (machine, fragments) := expandWord bound machine word
    let (machine, fields) := expandWords bound machine rest
    (machine, fragmentFields fragments ++ fields)

/-- The machine after assignments. -/
def assignAll : Nat → Machine → List (List Char × Word) → Machine
  -- Values are not divided.
  | 0, machine, _ => machine
  | _ + 1, machine, [] => machine
  | bound + 1, machine, (name, word) :: rest =>
    let (machine, fragments) := expandWord bound machine word
    assignAll bound (machine.assign name (fragmentText fragments)) rest

/-- The machine and the routing of redirections. -/
def route : Nat → Machine → Routing → List Redirection → Machine × Option Routing
  -- Redirections are taken from left to right.
  | 0, machine, _, _ => (machine, none)
  | _ + 1, machine, routing, [] => (machine, some routing)
  | bound + 1, machine, routing, redirection :: rest =>
    let (machine, fragments) := expandWord bound machine redirection.target
    match routing.add? machine.tree redirection (fragmentText fragments) with
    | some routing => route bound machine routing rest
    | none => (machine, none)

/-- The machine after the first arm with a pattern for a subject. -/
def choose : Nat → Machine → List Char → List (List Word × Command) → Machine
  -- Without such an arm nothing is done.
  | 0, machine, _, _ => machine
  | _ + 1, machine, _, [] => { machine with status := 0 }
  | bound + 1, machine, subject, (words, body) :: rest =>
    let (machine, found) := anyFits bound machine subject words
    if found then runCommand bound machine body else choose bound machine subject rest

/-- The machine after looking for a pattern that fits a subject, and whether there is one. -/
def anyFits : Nat → Machine → List Char → List Word → Machine × Bool
  -- Patterns are expanded one after another.
  | 0, machine, _, _ => (machine, false)
  | _ + 1, machine, _, [] => (machine, false)
  | bound + 1, machine, subject, word :: rest =>
    let (machine, fragments) := expandWord bound machine word
    if fits (fragmentPattern fragments) subject then (machine, true)
    else anyFits bound machine subject rest

/-- The machine and the output of a pipeline's stages, given the input of the first one. -/
def runStages : Nat → Machine → List Char → List Command → Machine × List Piece
  -- What the first stage did not read is left for others.
  | 0, machine, _, _ => (machine, [])
  | _ + 1, machine, _, [] => (machine, [])
  | bound + 1, machine, input, stage :: rest =>
    let child := runCommand bound (machine.child input) stage
    let machine := { machine.absorb child with input := child.input }
    match rest with
    | [] => (machine, child.written)
    | _ =>
      let (after, pieces) := runStages bound machine (writtenText child.written) rest
      ({ after with input := machine.input }, pieces)

/-- The machine after a body was run once for each word. -/
def runEach : Nat → Machine → List Char → List (List Char) → Command → Machine
  -- An end of the script ends the loop.
  | 0, machine, _, _, _ => machine
  | _ + 1, machine, _, [], _ => machine
  | bound + 1, machine, name, word :: rest, body =>
    if machine.stopped then machine
    else
      let (after, continues) := (runCommand bound (machine.assign name word) body).endTurn
      if continues then runEach bound after name rest body else after

/-- The machine after a test, whose failure is expected. -/
def runTest : Nat → Machine → Command → Machine
  -- Strictness comes back behind the test.
  | 0, machine, _ => machine
  | bound + 1, machine, test =>
    { runCommand bound { machine with strict := false } test with strict := machine.strict }

/-- The machine after a loop. -/
def runLoop : Nat → Machine → Bool → Command → Command → Machine
  -- The loop ends when its test does not end as wanted.
  | 0, machine, _, _, _ => machine
  | bound + 1, machine, wanted, test, body =>
    let tested := runTest bound machine test
    if tested.ending.isSome then tested
    else if tested.leaving.isSome then tested.endTurn.1
    else if (tested.status == 0) == wanted then
      let (after, continues) := (runCommand bound tested body).endTurn
      if after.ending.isSome || !continues then after
      else runLoop bound after wanted test body
    else { tested with status := 0 }

/-- The machine after a command word with its arguments. -/
def runWords : Nat → Machine → List Char → List (List Char) → Machine
  -- Commands that the script defines come first.
  | 0, machine, _, _ => machine
  | bound + 1, machine, name, arguments =>
    match machine.functions.lookup name, String.ofList name with
    | some body, _ =>
      let after := runCommand bound { machine with arguments, loops := 0 } body
      { after with
        arguments := machine.arguments
        loops := machine.loops
        leaving := none }
    | none, "eval" => runAll bound machine (script ([' '].intercalate arguments)).1
    | none, "exec" =>
      match arguments with
      | [] => machine
      | name :: arguments =>
        let after := runNamed machine name arguments
        { after with ending := some (after.ending.getD (.exit after.status)) }
    | none, _ => runNamed machine name arguments

/-- The machine after a command. -/
def runCommand : Nat → Machine → Command → Machine
  -- Nothing runs behind the end of a script.
  | 0, machine, _ => machine
  | bound + 1, machine, command =>
    if machine.stopped then machine
    else match command with
    | .simple assignments words redirections =>
      let (before, fields) := expandWords bound machine words
      let machine := assignAll bound
        (if fields.isEmpty then { before with status := 0 } else before) assignments
      let (machine, routing) := route bound machine {} redirections
      match routing with
      | none => { machine with status := 2 }
      | some routing =>
        let start := { machine with input := routing.input.getD machine.input, written := [] }
        let after := match fields with
          | [] => start
          | name :: arguments =>
            if machine.stopped then start
            else (runWords bound start name arguments).restore before (assignments.map Prod.fst)
        routing.finish machine after
    | .pipeline negated stages =>
      let (after, pieces) := runStages bound machine machine.input stages
      let status := if negated then (if after.status = 0 then 1 else 0) else after.status
      { after with written := pieces ++ machine.written, status }
    | .andThen first second =>
      let after := runTest bound machine first
      if after.stopped || after.status ≠ 0 then after else runCommand bound after second
    | .orElse first second =>
      let after := runTest bound machine first
      if after.stopped || after.status = 0 then after else runCommand bound after second
    | .sequence commands => runAll bound machine commands
    | .choice subject arms =>
      let (machine, fragments) := expandWord bound machine subject
      choose bound machine (fragmentText fragments) arms
    | .conditional test body otherwise =>
      let tested := runTest bound machine test
      if tested.stopped then tested
      else if tested.status = 0 then runCommand bound tested body
      else runCommand bound { tested with status := 0 } otherwise
    | .loop wanted test body =>
      let after := runLoop bound { machine with loops := machine.loops + 1 } wanted test body
      { after with loops := machine.loops }
    | .each name words body =>
      let (machine, fields) := expandWords bound machine words
      let after := runEach bound { machine with loops := machine.loops + 1 } name fields body
      { after with loops := machine.loops }
    | .define name body =>
      { machine with functions := (name, body) :: machine.functions, status := 0 }
    | .group isolated body redirections =>
      let (machine, routing) := route bound machine {} redirections
      match routing with
      | none => { machine with status := 2 }
      | some routing =>
        let input := routing.input.getD machine.input
        if isolated then
          let child := runCommand bound (machine.child input) body
          routing.finish machine
            { machine.absorb child with input := child.input, written := child.written }
        else routing.finish machine (runCommand bound { machine with input, written := [] } body)

/-- The machine after commands in order. -/
def runAll : Nat → Machine → List Command → Machine
  -- An end of the script ends the list.
  | 0, machine, _ => machine
  | _ + 1, machine, [] => machine
  | bound + 1, machine, command :: rest =>
    if machine.stopped then machine
    else
      let after := runCommand bound machine command
      let failed := after.strict && after.status ≠ 0 && !after.stopped && command.isDecisive
      if failed then { after with ending := some (.exit after.status) }
      else runAll bound after rest

end

/-- The depth and the number of turns up to which scripts are run. -/
def runBound : Nat := 100000

/-- What a finished process has written and how it ended. -/
structure Outcome where
  pieces : List Piece
  ending : Ending
  unread : List Char
  deriving DecidableEq, Repr

/-- The outcome of a machine that has run. -/
def Machine.outcome (machine : Machine) : Outcome :=
  -- A script that runs to its end gives the status of its last command.
  ⟨machine.written.reverse, machine.ending.getD (.exit machine.status), machine.input⟩

/-- The outcome of a script under a name, with arguments and input. -/
def runScript (tree : FileTree) (name : List Char) (arguments : List (List Char))
    (source input : List Char) : Outcome :=
  -- A script that cannot be read to its end stops where reading fails.
  let (commands, complete) := script source
  let machine := runAll runBound { tree, name, arguments, input } commands
  (if complete || machine.ending.isSome then machine else { machine with status := 2 }).outcome

end LanguageServer.Shell
