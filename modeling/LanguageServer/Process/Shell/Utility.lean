import LanguageServer.Process.Files
import LanguageServer.Process.Shell.Printing
import LanguageServer.Text.Utf8

/-! The small programs that scripts use, from what they read to what they write. -/

namespace LanguageServer.Shell

/-- Bytes as characters, one for each. -/
def ofBytes (bytes : List UInt8) : List Char :=
  -- The first 256 code points stand for the bytes.
  bytes.map fun byte => Char.ofNat byte.toNat

/-- Characters as bytes. -/
def toBytes (text : List Char) : List UInt8 :=
  -- Every character stands for one byte.
  text.map fun character => UInt8.ofNat character.toNat

/-- The path that characters for bytes write. -/
def toPath (text : List Char) : String :=
  -- File names are texts.
  String.ofList (decodeLossy (toBytes text))

/-- What a program does with its input. -/
structure Effect where
  written : List Char := []
  /-- The input that was not read. -/
  unread : List Char
  status : Nat := 0
  deriving DecidableEq, Repr

/-- Whether an argument is an option. -/
def isOption : List Char → Bool
  -- A dash alone stands for the input.
  | '-' :: _ :: _ => true
  | _ => false

/-- The concatenation of the input or of files. -/
def concatenate (tree : FileTree) (arguments : List (List Char)) (input : List Char) : Effect :=
  -- A file that cannot be read is left out.
  if arguments.any fun argument => isOption argument && argument ≠ ['-', 'u'] then
    { unread := input, status := 1 }
  else
    let files := arguments.filter fun argument => !isOption argument
    if files.isEmpty then { written := input, unread := [] }
    else files.foldl (fun effect file =>
      if file = ['-'] then
        { effect with written := effect.written ++ effect.unread, unread := [] }
      else match tree.read (toPath file) with
        | .ok bytes => { effect with written := effect.written ++ ofBytes bytes }
        | .error _ => { effect with status := 1 }) { unread := input }

/-- The first lines of a text. -/
def firstLines (read : List Char) : Nat → List Char → List Char × List Char
  -- A line ends with its line feed.
  | 0, text => (read.reverse, text)
  | _ + 1, [] => (read.reverse, [])
  | count + 1, character :: rest =>
    firstLines (character :: read) (if character = '\n' then count else count + 1) rest
termination_by _ text => text.length

/-- How much of its input a program is asked to show. -/
structure Portion where
  bytes : Bool
  count : Nat
  deriving DecidableEq, Repr

/-- The portion that options ask for, and the files behind them, none if it cannot be understood. -/
def portion? (portion : Portion) : List (List Char) → Option (Portion × List (List Char))
  -- The last option decides.
  | ['-', 'c'] :: digits :: rest => chosen true digits rest
  | ('-' :: 'c' :: digits) :: rest => chosen true digits rest
  | ['-', 'n'] :: digits :: rest => chosen false digits rest
  | ('-' :: 'n' :: digits) :: rest => chosen false digits rest
  | ('-' :: digit :: digits) :: rest => chosen false (digit :: digits) rest
  | files => some (portion, files)
where
  /-- The rest of the arguments once a count was chosen. -/
  chosen (bytes : Bool) (digits : List Char) (rest : List (List Char)) :=
    if digits.isEmpty || !digits.all Char.isDigit then none
    else portion? ⟨bytes, decimal digits⟩ rest

/-- The number of bytes that a program takes from its input at once. -/
def blockSize : Nat := 8192

/-- The smallest number of whole blocks that hold so many bytes, in bytes. -/
def wholeBlocks (count : Nat) : Nat :=
  -- Nothing needs no block.
  (count + blockSize - 1) / blockSize * blockSize

/-- The beginning of a text, by bytes or by lines, and what is left of the text. -/
def Portion.split (portion : Portion) (text : List Char) : List Char × List Char :=
  -- Lines are looked for in whole blocks, so that more is taken than is shown.
  if portion.bytes then (text.take portion.count, text.drop portion.count)
  else
    let shown := (firstLines [] portion.count text).1
    (shown, text.drop (wholeBlocks shown.length))

/-- The beginning of the input or of a file, by bytes or by lines. -/
def beginning (tree : FileTree) (arguments : List (List Char)) (input : List Char) : Effect :=
  -- Ten lines are shown unless something else is asked for.
  match portion? ⟨false, 10⟩ arguments with
  | none => { unread := input, status := 1 }
  | some (portion, []) | some (portion, [['-']]) =>
    let (written, unread) := portion.split input
    { written, unread }
  | some (portion, file :: _) =>
    match tree.look (toPath file) with
    | .ok .zeros =>
      { written := List.replicate (if portion.bytes then portion.count else 0) '\x00'
        unread := input }
    | _ =>
      match tree.read (toPath file) with
      | .ok bytes => { written := (portion.split (ofBytes bytes)).1, unread := input }
      | .error _ => { unread := input, status := 1 }

/-- The number of words in a text. -/
def wordCount (text : List Char) : Nat :=
  -- A word starts where a blank or nothing stands before another character.
  (text.foldl (fun (count, inside) character =>
    if character.isWhitespace || character = '\x0b' || character = '\x0c' then (count, false)
    else (if inside then count else count + 1, true)) (0, false)).1

/-- The counts of a text that letters ask for. -/
def countsOf (letters : List Char) (text : List Char) : List Nat :=
  -- Lines come first, then words, then bytes, in whatever order they are asked for.
  let letters := if letters.isEmpty then ['l', 'w', 'c'] else letters
  let count (letter : Char) (value : Nat) := if letters.contains letter then [value] else []
  count 'l' (text.count '\n') ++ count 'w' (wordCount text) ++ count 'm' text.length ++
    count 'c' text.length

/-- Counts in one line, each filled to a width if there are several. -/
def countLine (width : Nat) : List Nat → List Char
  -- A single count stands alone.
  | [value] => (toString value).toList
  | values => [' '].intercalate (values.map fun value => pad width true ' ' (toString value).toList)

/-- The counts of lines, words and bytes of the input or of a file. -/
def counts (tree : FileTree) (arguments : List (List Char)) (input : List Char) : Effect :=
  -- The width is that of a file's size where the size is known.
  let letters := (arguments.takeWhile isOption).flatMap fun argument => argument.drop 1
  match arguments.dropWhile isOption with
  | [] => { written := countLine 7 (countsOf letters input) ++ ['\n'], unread := [] }
  | file :: _ =>
    match tree.look (toPath file), tree.read (toPath file) with
    | .ok node, .ok bytes =>
      let width := match node with
        | .file _ _ => (toString bytes.length).length
        | _ => 7
      { written := countLine width (countsOf letters (ofBytes bytes)) ++ ' ' :: file ++ ['\n']
        unread := input }
    | _, _ => { unread := input, status := 1 }

/-- The characters of a named class. -/
def characterClass? (name : String) : Option (List Char) :=
  -- Classes are listed in the order of their bytes.
  let ascii := (List.range 128).map Char.ofNat
  match name with
  | "lower" => some (ascii.filter Char.isLower)
  | "upper" => some (ascii.filter Char.isUpper)
  | "alpha" => some (ascii.filter Char.isAlpha)
  | "digit" => some (ascii.filter Char.isDigit)
  | "alnum" => some (ascii.filter Char.isAlphanum)
  | "blank" => some ['\t', ' ']
  | "space" => some ['\t', '\n', '\x0b', '\x0c', '\r', ' ']
  | "punct" => some (ascii.filter fun character =>
      33 ≤ character.toNat && character.toNat < 127 && !character.isAlphanum)
  | _ => none

/-- The characters that a set of tr lists. -/
def characterSet : Nat → List Char → List Char
  -- A dash between two characters makes a range.
  | 0, _ => []
  | _ + 1, [] => []
  | bound + 1, '[' :: ':' :: rest =>
    let name := rest.takeWhile (· ≠ ':')
    match characterClass? (String.ofList name), rest.drop name.length with
    | some members, ':' :: ']' :: rest => members ++ characterSet bound rest
    | _, _ => '[' :: characterSet bound (':' :: rest)
  | bound + 1, '\\' :: character :: rest =>
    if isOctal character then
      let (meant, rest) := octal 3 (character :: rest)
      meant :: characterSet bound rest
    else (letterEscape? character).getD character :: characterSet bound rest
  | bound + 1, low :: '-' :: high :: rest =>
    (List.range (high.toNat + 1 - low.toNat)).map (fun step => Char.ofNat (low.toNat + step)) ++
      characterSet bound rest
  | bound + 1, character :: rest => character :: characterSet bound rest

/-- A text with runs of a repeated character from a set shortened to one. -/
def squeeze (squeezed : Char → Bool) (text : List Char) : List Char :=
  -- Other characters stay as often as they are.
  (text.foldl (fun written character =>
    if squeezed character && written.head? = some character then written
    else character :: written) []).reverse

/-- The replacement of a character by the one at its place in another set. -/
def replaceBy (source target : List Char) (character : Char) : Char :=
  -- The last character of a shorter set is repeated.
  match source.idxOf? character with
  | none => character
  | some index => (target[index]?).getD (target.getLastD character)

/-- Whether a set lists a range whose ends are in the wrong order. -/
def hasReversedRange : List Char → Bool
  -- Classes and escapes have no such ranges.
  | low :: '-' :: high :: rest =>
    (high < low && low ≠ '\\' && low ≠ ':') || hasReversedRange ('-' :: high :: rest)
  | _ :: rest => hasReversedRange rest
  | [] => false

/-- What replacement, deletion and squeezing do with characters. -/
structure Transliteration where
  deletes : Bool
  squeezes : Bool
  complements : Bool
  first : List Char
  second : Option (List Char)
  deriving DecidableEq, Repr

namespace Transliteration

/-- Whether there are as many sets as the options need, and they can be used. -/
def isSound (task : Transliteration) : Bool :=
  -- Characters can be replaced only by characters.
  match task.second with
  | none => task.deletes || task.squeezes
  | some second => if task.deletes then task.squeezes else !second.isEmpty

/-- Whether a character is in the first set. -/
def chooses (task : Transliteration) (character : Char) : Bool :=
  -- The set may be turned around.
  task.first.contains character != task.complements

/-- A text after the task. -/
def run (task : Transliteration) (text : List Char) : List Char :=
  -- The last set given is the one whose characters are squeezed.
  let kept := if task.deletes then text.filter fun character => !task.chooses character
    else match task.second with
      | none => text
      | some second =>
        if task.complements then text.map fun character =>
          if task.chooses character then second.getLastD character else character
        else text.map (replaceBy task.first second)
  if task.squeezes then
    match task.second with
    | none => squeeze task.chooses kept
    | some second => squeeze second.contains kept
  else kept

end Transliteration

/-- Replacement, deletion and squeezing of characters. -/
def transliterate (arguments : List (List Char)) (input : List Char) : Effect :=
  -- Arguments that cannot be understood leave the input alone.
  let failure : Effect := { unread := input, status := 1 }
  let options := (arguments.takeWhile isOption).filter (· ≠ ['-', '-'])
  let letters := options.flatMap fun argument => argument.drop 1
  let sets := arguments.dropWhile isOption
  if !letters.all fun letter => ['d', 's', 'c', 'C'].contains letter then failure
  else if sets.any hasReversedRange then failure
  else
    let task (first : List Char) (second : Option (List Char)) : Effect :=
      let task : Transliteration := ⟨letters.contains 'd', letters.contains 's',
        letters.contains 'c' || letters.contains 'C', first, second⟩
      if task.isSound then { written := task.run input, unread := [] } else failure
    let members (text : List Char) := characterSet (text.length + 1) text
    match sets with
    | [first] => task (members first) none
    | [first, second] => task (members first) (some (members second))
    | _ => failure

/-- What one of the small programs does, if there is one of that name. -/
def utility? (tree : FileTree) (name : String) (arguments : List (List Char))
    (input : List Char) : Option Effect :=
  -- Programs that read nothing leave the input to others.
  match name with
  | "cat" => some (concatenate tree arguments input)
  | "echo" => some { written := echoText arguments, unread := input }
  | "printf" =>
    match if arguments.head? = some ['-', '-'] then arguments.drop 1 else arguments with
    | [] => some { unread := input, status := 2 }
    | format :: values => some { written := printText format values, unread := input }
  | "tr" => some (transliterate arguments input)
  | "wc" => some (counts tree arguments input)
  | "head" => some (beginning tree arguments input)
  | "true" | ":" | "export" | "umask" | "unset" => some { unread := input }
  | "false" => some { unread := input, status := 1 }
  | _ => none

end LanguageServer.Shell
