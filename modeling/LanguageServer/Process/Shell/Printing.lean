/-! Texts written by echo and printf, with their escapes and conversions. -/

namespace LanguageServer.Shell

/-- An octal digit. -/
def isOctal (character : Char) : Bool :=
  -- There are eight of them.
  '0' ≤ character && character ≤ '7'

/-- The byte that octal digits write, and the text behind them. -/
def octal (most : Nat) (text : List Char) : Char × List Char :=
  -- Only so many digits are read, and only the low byte is kept.
  let digits := (text.take most).takeWhile isOctal
  let value := digits.foldl (fun value digit => 8 * value + (digit.toNat - '0'.toNat)) 0
  (Char.ofNat (value % 256), text.drop digits.length)

/-- The character that a one-letter escape stands for. -/
def letterEscape? : Char → Option Char
  -- These are the escapes common to both commands.
  | 'a' => some '\x07'
  | 'b' => some '\x08'
  | 'f' => some '\x0c'
  | 'n' => some '\n'
  | 'r' => some '\r'
  | 't' => some '\t'
  | 'v' => some '\x0b'
  | '\\' => some '\\'
  | _ => none

/-- The character that a one-letter escape stands for in what is printed. -/
def printedEscape? (character : Char) : Option Char :=
  -- Printing knows one letter more.
  if character = 'e' then some '\x1b' else letterEscape? character

/-- A text with its escapes replaced in reverse, and whether one of them ended all output. -/
def unescapeFrom (written : List Char) : Nat → List Char → List Char × Bool
  -- Octal escapes may start with an extra zero here.
  | 0, _ => (written, false)
  | _ + 1, [] => (written, false)
  | _ + 1, '\\' :: 'c' :: _ => (written, true)
  | bound + 1, '\\' :: '0' :: rest =>
    let (character, rest) := octal 3 rest
    unescapeFrom (character :: written) bound rest
  | bound + 1, '\\' :: character :: rest =>
    if isOctal character then
      let (meant, rest) := octal 3 (character :: rest)
      unescapeFrom (meant :: written) bound rest
    else match printedEscape? character with
    | some meant => unescapeFrom (meant :: written) bound rest
    | none => unescapeFrom (character :: '\\' :: written) bound rest
  | bound + 1, character :: rest => unescapeFrom (character :: written) bound rest

/-- A text with its escapes replaced, and whether one of them ended all output. -/
def unescape (text : List Char) : List Char × Bool :=
  -- The text was collected in reverse.
  let (written, ended) := unescapeFrom [] (text.length + 1) text
  (written.reverse, ended)

/-- What echo writes for its arguments. -/
def echoText (arguments : List (List Char)) : List Char :=
  -- A first argument can leave out the line end.
  let (shown, ending) := match arguments with
    | ['-', 'n'] :: rest => (rest, [])
    | _ => (arguments, ['\n'])
  let (text, ended) := unescape ([' '].intercalate shown)
  if ended then text else text ++ ending

/-- A text filled up to a width with a character, on the left or on the right. -/
def pad (width : Nat) (left : Bool) (filler : Char) (text : List Char) : List Char :=
  -- A longer text stays as it is.
  let filling := List.replicate (width - text.length) filler
  if left then filling ++ text else text ++ filling

/-- A conversion of a format, with its flags, width, precision and letter. -/
structure Conversion where
  leftAligned : Bool
  zeroPadded : Bool
  signed : Bool
  width : Nat
  precision : Option Nat
  letter : Char
  deriving DecidableEq, Repr

/-- The number that decimal digits write. -/
def decimal (digits : List Char) : Nat :=
  -- No digits write zero.
  digits.foldl (fun value digit => 10 * value + (digit.toNat - '0'.toNat)) 0

/-- The conversion that starts a text behind a percent sign, and the text behind it. -/
def conversion? (text : List Char) : Option (Conversion × List Char) :=
  -- Flags come first, then the width, then the precision.
  let flags := text.takeWhile fun character => ['-', '0', '+', ' ', '#'].contains character
  let text := text.drop flags.length
  let width := text.takeWhile Char.isDigit
  let text := text.drop width.length
  let (precision, text) := match text with
    | '.' :: rest =>
      let digits := rest.takeWhile Char.isDigit
      (some (decimal digits), rest.drop digits.length)
    | _ => (none, text)
  match text with
  | letter :: rest =>
    some (⟨flags.contains '-', flags.contains '0', flags.contains '+', decimal width, precision,
      letter⟩, rest)
  | [] => none

/-- The value of a digit in bases up to sixteen. -/
def digitValue (digit : Char) : Nat :=
  -- Other characters have no value.
  if digit.isDigit then digit.toNat - '0'.toNat
  else if 'a' ≤ digit && digit ≤ 'f' then digit.toNat - 'a'.toNat + 10
  else if 'A' ≤ digit && digit ≤ 'F' then digit.toNat - 'A'.toNat + 10
  else 16

/-- The number that the digits at the start of a text write in a base. -/
def numberIn (base : Nat) (text : List Char) : Nat :=
  -- The first character that is no digit ends the number.
  (text.takeWhile fun digit => digitValue digit < base).foldl
    (fun value digit => base * value + digitValue digit) 0

/-- The number at the start of a text, whose first characters tell the base. -/
def baseNumber : List Char → Nat
  -- A zero in front means octal, or hexadecimal with a letter behind it.
  | '0' :: 'x' :: rest | '0' :: 'X' :: rest => numberIn 16 rest
  | '0' :: rest => numberIn 8 rest
  | text => numberIn 10 text

/-- The integer that an argument of a conversion writes, zero if it writes none. -/
def argumentInteger (text : List Char) : Int :=
  -- A quote in front asks for the number of the character behind it.
  match text with
  | '-' :: rest => -(baseNumber rest : Int)
  | '+' :: rest => baseNumber rest
  | '\'' :: character :: _ | '"' :: character :: _ => character.toNat
  | _ => baseNumber text

/-- A text filled with zeros on the left up to a number of digits. -/
def withZeros (digits : Option Nat) (text : List Char) : List Char :=
  -- Without a number nothing is filled.
  pad (digits.getD 0) true '0' text

/-- What a conversion writes for an argument, none if there is no such conversion. -/
def Conversion.write? (conversion : Conversion) (argument : List Char) :
    Option (List Char × Bool) :=
  -- The flag says whether the text ends all output.
  let toLeft := conversion.leftAligned
  let number (sign digits : List Char) : List Char :=
    if conversion.zeroPadded && !toLeft && conversion.precision.isNone then
      sign ++ pad (conversion.width - sign.length) true '0' digits
    else pad conversion.width (!toLeft) ' ' (sign ++ withZeros conversion.precision digits)
  let text (text : List Char) : List Char :=
    pad conversion.width (!toLeft) ' ' (text.take (conversion.precision.getD text.length))
  let value := argumentInteger argument
  let unsigned := (value % 18446744073709551616).toNat
  match conversion.letter with
  | 's' => some (text argument, false)
  | 'b' =>
    let (unescaped, ended) := unescape argument
    some (text unescaped, ended)
  | 'c' => some (pad conversion.width (!toLeft) ' ' [argument.headD '\x00'], false)
  | 'd' | 'i' =>
    let sign := if value < 0 then ['-'] else if conversion.signed then ['+'] else []
    some (number sign (toString value.natAbs).toList, false)
  | 'u' => some (number [] (toString unsigned).toList, false)
  | 'x' => some (number [] (Nat.toDigits 16 unsigned), false)
  | 'X' => some (number [] ((Nat.toDigits 16 unsigned).map Char.toUpper), false)
  | 'o' => some (number [] (Nat.toDigits 8 unsigned), false)
  | _ => none

/-- What one pass over a format has written. -/
structure Printed where
  /-- The characters written, in reverse. -/
  written : List Char
  arguments : List (List Char)
  /-- Whether a conversion was met. -/
  converted : Bool
  ended : Bool
  deriving DecidableEq, Repr

/-- One pass over a format, where missing arguments are empty. -/
def printPass (printed : Printed) : Nat → List Char → Printed
  -- Octal escapes need no zero here.
  | 0, _ => printed
  | _ + 1, [] => printed
  | bound + 1, '%' :: '%' :: rest =>
    printPass { printed with written := '%' :: printed.written } bound rest
  | bound + 1, '%' :: rest =>
    let found := (conversion? rest).bind fun (conversion, rest) =>
      (conversion.write? (printed.arguments.headD [])).map fun written => (written, rest)
    match found with
    | none => { printed with ended := true }
    | some ((text, ended), rest) =>
      let after : Printed :=
        ⟨text.reverse ++ printed.written, printed.arguments.drop 1, true, ended⟩
      if ended then after else printPass after bound rest
  | bound + 1, '\\' :: character :: rest =>
    if isOctal character then
      let (meant, rest) := octal 3 (character :: rest)
      printPass { printed with written := meant :: printed.written } bound rest
    else
      let meant := match printedEscape? character with
        | some meant => [meant]
        | none => [character, '\\']
      printPass { printed with written := meant ++ printed.written } bound rest
  | bound + 1, character :: rest =>
    printPass { printed with written := character :: printed.written } bound rest

/-- Passes over a format until no argument is left. -/
def printPasses (format : List Char) (printed : Printed) : Nat → Printed
  -- A format without conversions is used once.
  | 0 => printed
  | bound + 1 =>
    let after := printPass { printed with converted := false } (format.length + 1) format
    if after.ended || !after.converted || after.arguments.isEmpty then after
    else printPasses format after bound

/-- What printf writes for a format and its arguments. -/
def printText (format : List Char) (arguments : List (List Char)) : List Char :=
  -- Every pass with a conversion takes at least one argument.
  (printPasses format ⟨[], arguments, false, false⟩ (arguments.length + 1)).written.reverse

end LanguageServer.Shell
