import LanguageServer.Process.Shell.Command

/-! Shell scripts as words and operators. -/

namespace LanguageServer.Shell

/-- A word or an operator of a script. -/
inductive Lexeme where
  | word (word : Word)
  /-- A control operator or the end of a line. -/
  | operator (text : String)
  | redirect (descriptor : Nat) (direction : Direction)
  /-- A word with something in it that was opened and never closed. -/
  | unclosed
  deriving DecidableEq, Repr

/-- The characters that end a word without being quoted. -/
def isWordEnd (character : Char) : Bool :=
  -- Blanks, line ends and operator characters.
  [' ', '\t', '\n', ';', '&', '|', '(', ')', '<', '>'].contains character

/-- The characters of variable names. -/
def isNamePart (character : Char) : Bool :=
  -- Names are made of ASCII characters.
  character.isAlphanum || character == '_'

/-- The special parameters of one character. -/
def isSpecial (character : Char) : Bool :=
  -- Digits are positional parameters.
  character.isDigit || ['#', '?', '$', '*', '@', '!', '-'].contains character

/-- How characters are quoted inside a script that is searched for its end. -/
inductive Quoting where
  | none
  | single
  | double
  deriving DecidableEq, Repr

/-- The characters up to the mark that closes an open one, and those behind it. -/
def takeNested (opening closing : Char) (taken : List Char) (depth : Nat) (quoting : Quoting) :
    List Char → Option (List Char × List Char)
  -- Quoted marks do not count.
  | [] => none
  | '\\' :: character :: rest =>
    if quoting = .single then
      takeNested opening closing (character :: '\\' :: taken) depth
        (if character = '\'' then .none else quoting) rest
    else takeNested opening closing (character :: '\\' :: taken) depth quoting rest
  | character :: rest =>
    let next := match quoting, character with
      | .none, '\'' => .single
      | .none, '"' => .double
      | .single, '\'' => .none
      | .double, '"' => .none
      | _, _ => quoting
    if quoting = .none && character = closing && depth = 0 then some (taken.reverse, rest)
    else
      let depth := if quoting ≠ .none then depth
        else if character = opening then depth + 1
        else if character = closing then depth - 1
        else depth
      takeNested opening closing (character :: taken) depth next rest

/-- The characters up to a mark, and those behind it. -/
def takeUntil (mark : Char) (text : List Char) : Option (List Char × List Char) :=
  -- The mark must come.
  match text.dropWhile (· ≠ mark) with
  | _ :: rest => some (text.takeWhile (· ≠ mark), rest)
  | [] => none

/-- The operator at the start of a text, and its operand. -/
def valueOperator? : List Char → Option (ValueOperator × List Char)
  -- A colon makes empty values count as missing, and a doubled mark takes as much as fits.
  | ':' :: '-' :: operand => some (.otherwise true, operand)
  | '-' :: operand => some (.otherwise false, operand)
  | ':' :: '+' :: operand => some (.instead true, operand)
  | '+' :: operand => some (.instead false, operand)
  | '#' :: '#' :: operand => some (.trim false true, operand)
  | '#' :: operand => some (.trim false false, operand)
  | '%' :: '%' :: operand => some (.trim true true, operand)
  | '%' :: operand => some (.trim true false, operand)
  | _ => none

/-- The part written between braces behind a dollar sign. -/
def bracedPart (body : List Char) (quoted : Bool) : Part :=
  -- The name is as long as it can be.
  match body with
  | ['#'] => .parameter ['#'] quoted
  | '#' :: name => .size name
  | _ =>
    let name := match body with
      | first :: _ =>
        if first.isAlpha || first = '_' then body.takeWhile isNamePart
        else if first.isDigit then body.takeWhile Char.isDigit
        else [first]
      | [] => []
    match body.drop name.length, valueOperator? (body.drop name.length) with
    | [], _ => .parameter name quoted
    | _, some (operator, operand) => .operated name operator operand quoted
    | _, none => .unclosed

/-- The part that a dollar sign starts, and the characters behind it. -/
def dollarPart (quoted : Bool) : List Char → Part × List Char
  -- A dollar sign before anything else stands for itself.
  | '(' :: rest =>
    match takeNested '(' ')' [] 0 .none rest with
    | none => (.unclosed, [])
    | some (script, rest) =>
      match script, script.getLast? with
      | '(' :: expression, some ')' => (.arithmetic expression.dropLast, rest)
      | _, _ => (.output script quoted, rest)
  | '\x7b' :: rest =>
    match takeNested '\x7b' '\x7d' [] 0 .none rest with
    | none => (.unclosed, [])
    | some (body, rest) => (bracedPart body quoted, rest)
  | character :: rest =>
    if character.isAlpha || character = '_' then
      let name := character :: rest.takeWhile isNamePart
      (.parameter name quoted, rest.dropWhile isNamePart)
    else if isSpecial character then (.parameter [character] quoted, rest)
    else (.literal ['$'] quoted, character :: rest)
  | [] => (.literal ['$'] quoted, [])

/-- The parts up to a closing double quote in reverse, or of a text that none closes. -/
def doubleQuoted (closes : Bool) (parts : List Part) : Nat → List Char → List Part × List Char
  -- A backslash keeps its meaning only before the characters that are special there.
  | 0, text => (parts, text)
  | _ + 1, [] => (if closes then .unclosed :: parts else parts, [])
  | bound + 1, '"' :: rest =>
    if closes then (parts, rest) else doubleQuoted closes (.literal ['"'] true :: parts) bound rest
  | bound + 1, '$' :: rest =>
    let (part, rest) := dollarPart true rest
    doubleQuoted closes (part :: parts) bound rest
  | bound + 1, '\x60' :: rest =>
    match takeUntil '\x60' rest with
    | some (script, rest) => doubleQuoted closes (.output script true :: parts) bound rest
    | none => (.unclosed :: parts, [])
  | bound + 1, '\\' :: character :: rest =>
    let meant := if ['$', '\x60', '\\'].contains character || (closes && character = '"') then
        [character]
      else if character = '\n' then []
      else ['\\', character]
    doubleQuoted closes (.literal meant true :: parts) bound rest
  | bound + 1, character :: rest =>
    doubleQuoted closes (.literal [character] true :: parts) bound rest

/-- The parts of a word in reverse, and the characters behind the word. -/
def wordParts (isEnd : Char → Bool) (parts : List Part) : Nat → List Char → List Part × List Char
  -- The bound is the number of characters, each of which is read once.
  | 0, text => (parts, text)
  | _ + 1, [] => (parts, [])
  | bound + 1, '\'' :: rest =>
    match takeUntil '\'' rest with
    | some (text, rest) => wordParts isEnd (.literal text true :: parts) bound rest
    | none => (.unclosed :: parts, [])
  | bound + 1, '"' :: rest =>
    let (parts, rest) := doubleQuoted true (.literal [] true :: parts) (rest.length + 1) rest
    wordParts isEnd parts bound rest
  | bound + 1, '$' :: rest =>
    let (part, rest) := dollarPart false rest
    wordParts isEnd (part :: parts) bound rest
  | bound + 1, '\x60' :: rest =>
    match takeUntil '\x60' rest with
    | some (script, rest) => wordParts isEnd (.output script false :: parts) bound rest
    | none => (.unclosed :: parts, [])
  | bound + 1, '\\' :: character :: rest =>
    if character = '\n' then wordParts isEnd parts bound rest
    else wordParts isEnd (.literal [character] true :: parts) bound rest
  | bound + 1, character :: rest =>
    if isEnd character then (parts, character :: rest)
    else wordParts isEnd (.literal [character] false :: parts) bound rest

/-- The word that a whole text writes, blanks included. -/
def wordOf (text : List Char) : Word :=
  -- Nothing ends the word before the text does.
  (wordParts (fun _ => false) [] (text.length + 1) text).1.reverse

/-- The word of an input that is written in a script and expanded there. -/
def hereWord (text : List Char) : Word :=
  -- Double quotes are plain characters in it.
  (doubleQuoted false [] (text.length + 1) text).1.reverse

/-- The lines up to one that holds nothing but a delimiter, and the text behind it. -/
def takeLines (delimiter : List Char) (strip : Bool) (taken : List Char) :
    Nat → List Char → List Char × List Char
  -- The end of the script ends the lines too, and tabs in front may be left out.
  | 0, text => (taken, text)
  | _ + 1, [] => (taken, [])
  | bound + 1, text =>
    let line := text.takeWhile (· ≠ '\n')
    let rest := text.drop (line.length + 1)
    let line := if strip then line.dropWhile (· = '\t') else line
    if line = delimiter then (taken, rest)
    else takeLines delimiter strip (taken ++ line ++ ['\n']) bound rest

/-- The input that a script writes for a command, and the script without it. -/
def hereInput (text : List Char) : Word × List Char :=
  -- A quoted delimiter leaves the input as it stands.
  let (strip, text) := match text with
    | '-' :: rest => (true, rest)
    | _ => (false, text)
  let (parts, rest) := wordParts isWordEnd [] (text.length + 1) (text.dropWhile (· = ' '))
  let quoted := parts.any fun part => match part with
    | .literal _ quoted => quoted
    | _ => false
  let delimiter := parts.reverse.flatMap fun part => match part with
    | .literal characters _ => characters
    | _ => []
  let line := rest.takeWhile (· ≠ '\n')
  let (body, behind) := takeLines delimiter strip [] (rest.length + 1) (rest.drop (line.length + 1))
  (if quoted then [.literal body true] else hereWord body, line ++ '\n' :: behind)

/-- The redirection that starts at a text, for a descriptor or the usual one. -/
def redirection? (descriptor : Option Nat) : List Char → Option (Lexeme × List Char)
  -- Reading starts from the first descriptor, writing from the second.
  | '>' :: '>' :: rest => some (.redirect (descriptor.getD 1) .append, rest)
  | '>' :: '&' :: rest => some (.redirect (descriptor.getD 1) .duplicate, rest)
  | '>' :: '|' :: rest => some (.redirect (descriptor.getD 1) .write, rest)
  | '>' :: rest => some (.redirect (descriptor.getD 1) .write, rest)
  | '<' :: '&' :: rest => some (.redirect (descriptor.getD 0) .duplicate, rest)
  | '<' :: rest => some (.redirect (descriptor.getD 0) .read, rest)
  | _ => none

/-- The operator that starts at a text. -/
def operator? : List Char → Option (String × List Char)
  -- The longest operator is taken.
  | '\n' :: rest => some ("\n", rest)
  | ';' :: ';' :: rest => some (";;", rest)
  | ';' :: rest => some (";", rest)
  | '&' :: '&' :: rest => some ("&&", rest)
  | '&' :: rest => some ("&", rest)
  | '|' :: '|' :: rest => some ("||", rest)
  | '|' :: rest => some ("|", rest)
  | '(' :: rest => some ("(", rest)
  | ')' :: rest => some (")", rest)
  | _ => none

/-- The lexeme at the start of a text, if blanks and comments are not. -/
def firstLexeme (text : List Char) : Lexeme × List Char :=
  -- A digit just before a redirection names its descriptor.
  let numbered := match text with
    | digit :: rest =>
      if digit.isDigit then redirection? (some (digit.toNat - '0'.toNat)) rest else none
    | [] => none
  match numbered.orElse fun _ => redirection? none text with
  | some found => found
  | none =>
    match operator? text with
    | some (operator, rest) => (.operator operator, rest)
    | none =>
      let (parts, rest) := wordParts isWordEnd [] (text.length + 1) text
      (if parts.contains .unclosed then .unclosed else .word parts.reverse, rest)

/-- The lexemes of a text, in reverse, in front of those already read. -/
def lexemesFrom (read : List Lexeme) : Nat → List Char → List Lexeme
  -- The bound is the number of characters, of which every lexeme takes at least one.
  | 0, _ => read
  | _ + 1, [] => read
  | bound + 1, ' ' :: rest | bound + 1, '\t' :: rest => lexemesFrom read bound rest
  | bound + 1, '\\' :: '\n' :: rest => lexemesFrom read bound rest
  | bound + 1, '#' :: rest => lexemesFrom read bound (rest.dropWhile (· ≠ '\n'))
  | bound + 1, '<' :: '<' :: rest =>
    let (input, rest) := hereInput rest
    lexemesFrom (.word input :: .redirect 0 .here :: read) bound rest
  | bound + 1, text =>
    let (lexeme, rest) := firstLexeme text
    lexemesFrom (lexeme :: read) bound rest

/-- The lexemes of a script. -/
def lexemes (script : List Char) : List Lexeme :=
  -- They were collected in reverse.
  (lexemesFrom [] (script.length + 1) script).reverse

end LanguageServer.Shell
