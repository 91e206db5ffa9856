import LanguageServer.Process.Shell.Lexeme

/-! Shell commands from the words and operators of a script. -/

namespace LanguageServer.Shell

/-- A command and the lexemes behind it, or nothing where no command can be read. -/
abbrev Parse (α : Type) := List Lexeme → Option (α × List Lexeme)

/-- The lexemes behind line ends. -/
def skipLines (lexemes : List Lexeme) : List Lexeme :=
  -- Empty lines mean nothing between commands.
  lexemes.dropWhile (· == .operator "\n")

/-- The text of a reserved or other plain word at the start of lexemes. -/
def plainWord? : List Lexeme → Option (String × List Lexeme)
  -- Quoted words are never reserved.
  | .word word :: rest => word.plain?.map fun text => (String.ofList text, rest)
  | _ => none

/-- The lexemes behind a reserved word that must come next. -/
def expectWord (wanted : String) (lexemes : List Lexeme) : Option (List Lexeme) :=
  -- Line ends before it are skipped.
  match plainWord? (skipLines lexemes) with
  | some (found, rest) => if found = wanted then some rest else none
  | none => none

/-- The words that end a list of commands. -/
def closingWords : List String :=
  -- They close what other reserved words opened.
  ["then", "elif", "else", "fi", "do", "done", "esac", "\x7d"]

/-- Whether a list of commands ends before lexemes. -/
def atListEnd : List Lexeme → Bool
  -- An arm of a choice ends with two semicolons.
  | [] => true
  | .operator text :: _ => text == ")" || text == ";;"
  | lexemes =>
    match plainWord? lexemes with
    | some (word, _) => closingWords.contains word
    | none => false

/-- The variable and the value of a word that is an assignment. -/
def assignment? (word : Word) : Option (List Char × Word) :=
  -- The name and the equals sign are not quoted.
  let plain := word.takeWhile fun part => match part with
    | .literal [character] false => isNamePart character
    | _ => false
  let name := plain.flatMap fun part => match part with
    | .literal text _ => text
    | _ => []
  match word.drop plain.length with
  | .literal ['='] false :: value =>
    match name with
    | first :: _ => if first.isDigit then none else some (name, value)
    | [] => none
  | _ => none

/-- The redirections at the start of lexemes. -/
def redirections : Nat → Parse (List Redirection)
  -- Each one is followed by its target.
  | bound + 1, .redirect descriptor direction :: .word target :: rest => do
    let (more, rest) ← redirections bound rest
    return (⟨descriptor, direction, target⟩ :: more, rest)
  | _, .redirect _ _ :: _ => none
  | _, lexemes => some ([], lexemes)

/-- A simple command, given what was read of it in reverse. -/
def simpleCommand (assignments : List (List Char × Word)) (words : List Word)
    (found : List Redirection) : Nat → Parse Command
  -- Assignments stand in front of the command word.
  | bound + 1, .redirect descriptor direction :: .word target :: rest =>
    simpleCommand assignments words (⟨descriptor, direction, target⟩ :: found) bound rest
  | _, .redirect _ _ :: _ => none
  | bound + 1, .word word :: rest =>
    match words, assignment? word with
    | [], some assignment => simpleCommand (assignment :: assignments) words found bound rest
    | _, _ => simpleCommand assignments (word :: words) found bound rest
  | _, lexemes =>
    if assignments.isEmpty && words.isEmpty && found.isEmpty then none
    else some (.simple assignments.reverse words.reverse found.reverse, lexemes)

/-- The words up to the end of a line or a semicolon, in reverse. -/
def wordList (words : List Word) : List Lexeme → List Word × List Lexeme
  -- Operators end the list.
  | .word word :: rest => wordList (word :: words) rest
  | lexemes => (words, lexemes)

/-- The patterns of one arm of a choice. -/
def patterns : Nat → Parse (List Word)
  -- Patterns are divided by bars and closed by a parenthesis.
  | bound + 1, .word pattern :: .operator "|" :: rest => do
    let (more, rest) ← patterns bound rest
    return (pattern :: more, rest)
  | _, .word pattern :: .operator ")" :: rest => some ([pattern], rest)
  | _, _ => none

mutual

/-- A list of commands up to a word or operator that ends it. -/
def commandList : Nat → Parse Command
  -- The bound is above the depth of nesting and the number of commands.
  | 0, _ => none
  | bound + 1, lexemes => do
    let (commands, rest) ← commandsFrom bound [] lexemes
    return (.sequence commands, rest)

/-- The commands of a list, behind those already read. -/
def commandsFrom : Nat → List Command → Parse (List Command)
  -- Semicolons, ampersands and line ends divide commands.
  | 0, _, _ => none
  | bound + 1, read, lexemes =>
    let lexemes := skipLines lexemes
    if atListEnd lexemes then some (read.reverse, lexemes)
    else do
      let (command, rest) ← chain bound lexemes
      match rest with
      | .operator ";" :: rest | .operator "&" :: rest | .operator "\n" :: rest =>
        commandsFrom bound (command :: read) rest
      | rest => if atListEnd rest then some ((command :: read).reverse, rest) else none

/-- Pipelines joined by the two conditional operators. -/
def chain : Nat → Parse Command
  -- Both operators bind to the left.
  | 0, _ => none
  | bound + 1, lexemes => do
    let (first, rest) ← pipeline bound lexemes
    chainFrom bound first rest

/-- The rest of a chain behind its first part. -/
def chainFrom : Nat → Command → Parse Command
  -- A line may be broken behind an operator.
  | 0, _, _ => none
  | bound + 1, first, .operator "&&" :: rest => do
    let (second, rest) ← pipeline bound (skipLines rest)
    chainFrom bound (.andThen first second) rest
  | bound + 1, first, .operator "||" :: rest => do
    let (second, rest) ← pipeline bound (skipLines rest)
    chainFrom bound (.orElse first second) rest
  | _ + 1, first, lexemes => some (first, lexemes)

/-- Commands joined by bars, with an optional negation in front. -/
def pipeline : Nat → Parse Command
  -- A single command is its own pipeline.
  | 0, _ => none
  | bound + 1, lexemes => do
    let (negated, lexemes) := match plainWord? lexemes with
      | some ("!", rest) => (true, rest)
      | _ => (false, lexemes)
    let (stages, rest) ← stagesFrom bound lexemes
    match negated, stages with
    | false, [stage] => return (stage, rest)
    | _, _ => return (.pipeline negated stages, rest)

/-- The stages of a pipeline. -/
def stagesFrom : Nat → Parse (List Command)
  -- A line may be broken behind a bar.
  | 0, _ => none
  | bound + 1, lexemes => do
    let (stage, rest) ← command bound lexemes
    match rest with
    | .operator "|" :: rest =>
      let (stages, rest) ← stagesFrom bound (skipLines rest)
      return (stage :: stages, rest)
    | rest => return ([stage], rest)

/-- A single command, compound or simple. -/
def command : Nat → Parse Command
  -- Reserved words count only at the start of a command.
  | 0, _ => none
  | bound + 1, lexemes =>
    match lexemes with
    | .operator "(" :: rest => do
      let (body, rest) ← commandList bound rest
      match rest with
      | .operator ")" :: rest =>
        let (found, rest) ← redirections rest.length rest
        return (.group true body found, rest)
      | _ => none
    | .word name :: .operator "(" :: .operator ")" :: rest => do
      let name ← name.plain?
      let (body, rest) ← command bound (skipLines rest)
      return (.define name body, rest)
    | _ =>
      match plainWord? lexemes with
      | some ("\x7b", rest) => do
        let (body, rest) ← commandList bound rest
        let rest ← expectWord "\x7d" rest
        let (found, rest) ← redirections rest.length rest
        return (.group false body found, rest)
      | some ("if", rest) => do
        let (body, rest) ← conditional bound rest
        let (found, rest) ← redirections rest.length rest
        return (if found.isEmpty then body else .group false body found, rest)
      | some ("case", .word subject :: rest) => do
        let rest ← expectWord "in" rest
        let (arms, rest) ← armsFrom bound [] rest
        let (found, rest) ← redirections rest.length rest
        let choice := Command.choice subject arms
        return (if found.isEmpty then choice else .group false choice found, rest)
      | some ("while", rest) => loop bound true rest
      | some ("until", rest) => loop bound false rest
      | some ("for", .word name :: rest) => do
        let name ← name.plain?
        let (words, rest) ← match plainWord? (skipLines rest) with
          | some ("in", rest) => some (wordList [] rest)
          | _ => some ([[.parameter ['@'] true]], rest)
        let rest := match rest with
          | .operator ";" :: rest => rest
          | rest => rest
        let (body, rest) ← doBody bound rest
        return (.each name words.reverse body, rest)
      | some (word, _) =>
        if closingWords.contains word then none
        else simpleCommand [] [] [] lexemes.length lexemes
      | none => simpleCommand [] [] [] lexemes.length lexemes

/-- The test and the branches of a conditional, behind its first word. -/
def conditional : Nat → Parse Command
  -- A missing branch does nothing.
  | 0, _ => none
  | bound + 1, lexemes => do
    let (test, rest) ← commandList bound lexemes
    let rest ← expectWord "then" rest
    let (body, rest) ← commandList bound rest
    match plainWord? (skipLines rest) with
    | some ("fi", rest) => return (.conditional test body (.sequence []), rest)
    | some ("else", rest) =>
      let (otherwise, rest) ← commandList bound rest
      let rest ← expectWord "fi" rest
      return (.conditional test body otherwise, rest)
    | some ("elif", rest) =>
      let (otherwise, rest) ← conditional bound rest
      return (.conditional test body otherwise, rest)
    | _ => none

/-- A loop, behind its first word. -/
def loop : Nat → Bool → Parse Command
  -- The test is a list of commands too.
  | 0, _, _ => none
  | bound + 1, wanted, lexemes => do
    let (test, rest) ← commandList bound lexemes
    let (body, rest) ← doBody bound rest
    return (.loop wanted test body, rest)

/-- The body of a loop. -/
def doBody : Nat → Parse Command
  -- The body stands between two reserved words.
  | 0, _ => none
  | bound + 1, lexemes => do
    let rest ← expectWord "do" lexemes
    let (body, rest) ← commandList bound rest
    let rest ← expectWord "done" rest
    return (body, rest)

/-- The arms of a choice, behind those already read. -/
def armsFrom : Nat → List (List Word × Command) → Parse (List (List Word × Command))
  -- The last arm need not be closed.
  | 0, _, _ => none
  | bound + 1, read, lexemes =>
    let lexemes := skipLines lexemes
    match plainWord? lexemes with
    | some ("esac", rest) => some (read.reverse, rest)
    | _ => do
      let lexemes := match lexemes with
        | .operator "(" :: rest => rest
        | _ => lexemes
      let (found, rest) ← patterns lexemes.length lexemes
      let (body, rest) ← commandList bound rest
      match skipLines rest with
      | .operator ";;" :: rest => armsFrom bound ((found, body) :: read) rest
      | rest =>
        let rest ← expectWord "esac" rest
        return (((found, body) :: read).reverse, rest)

end

/-- The commands of one line, behind those already read, and the lexemes behind the line. -/
def lineFrom (read : List Command) : Nat → Parse (List Command)
  -- A command may go on over several lines.
  | 0, _ => none
  | bound + 1, lexemes => do
    let (command, rest) ← chain (12 * lexemes.length + 12) lexemes
    let read := command :: read
    match rest with
    | [] | [.operator ";"] | [.operator "&"] => return (read.reverse, [])
    | .operator "\n" :: rest | .operator ";" :: .operator "\n" :: rest
    | .operator "&" :: .operator "\n" :: rest => return (read.reverse, rest)
    | .operator ";" :: rest | .operator "&" :: rest => lineFrom read bound rest
    | _ => none

/-- The commands of a script up to the first line that cannot be read, and whether all were read. -/
def scriptFrom (read : List Command) : Nat → List Lexeme → List Command × Bool
  -- Lines are read one after another, as they are run.
  | 0, _ => (read, false)
  | bound + 1, lexemes =>
    match skipLines lexemes with
    | [] => (read, true)
    | lexemes =>
      match lineFrom [] (lexemes.length + 1) lexemes with
      | none => (read, false)
      | some (commands, rest) => scriptFrom (read ++ commands) bound rest

/-- The commands of a script, and whether all of it could be read. -/
def script (text : List Char) : List Command × Bool :=
  -- Every line takes at least one lexeme.
  let lexemes := lexemes text
  scriptFrom [] (lexemes.length + 1) lexemes

end LanguageServer.Shell
