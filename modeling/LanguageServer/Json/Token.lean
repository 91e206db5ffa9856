import LanguageServer.Json.Value

/-! JSON texts as tokens, read by a machine that takes one character at a time. -/

namespace LanguageServer

/-- A token of a JSON text. -/
inductive Token where
  | openObject
  | closeObject
  | openArray
  | closeArray
  | colon
  | comma
  | null
  | bool (value : Bool)
  | number (value : Number)
  /-- A string, without a value when an escape in it names half a surrogate pair. -/
  | string (value : Option String)
  /-- The place where the text stops being made of tokens. -/
  | invalid
  deriving DecidableEq, Repr

/-- The part of a string read so far. -/
structure StringBody where
  /-- The characters in reverse. -/
  read : List Char := []
  /-- The first half of a surrogate pair whose second half must come next. -/
  half : Option Nat := none
  /-- Whether every surrogate half so far found its partner. -/
  paired : Bool := true
  deriving DecidableEq, Repr

namespace StringBody

/-- The body after a character that is no surrogate half. -/
def push (body : StringBody) (character : Char) : StringBody :=
  -- A first half that waits for its partner has lost it.
  ⟨character :: body.read, none, body.paired && body.half.isNone⟩

/-- The body after an escaped UTF-16 unit. -/
def pushUnit (body : StringBody) (unit : Nat) : StringBody :=
  -- Two halves in the right order make one character beyond the basic plane.
  if 0xD800 ≤ unit ∧ unit < 0xDC00 then
    ⟨body.read, some unit, body.paired && body.half.isNone⟩
  else if 0xDC00 ≤ unit ∧ unit < 0xE000 then
    match body.half with
    | some first =>
      ⟨Char.ofNat (0x10000 + 1024 * (first - 0xD800) + (unit - 0xDC00)) :: body.read, none,
        body.paired⟩
    | none => ⟨body.read, none, false⟩
  else body.push (Char.ofNat unit)

/-- The string that a finished body holds. -/
def value? (body : StringBody) : Option String :=
  -- No half may be left over.
  if body.paired && body.half.isNone then some (String.ofList body.read.reverse) else none

end StringBody

/-- What the machine is in the middle of. -/
inductive LexMode where
  /-- Between tokens. -/
  | between
  /-- Inside a word such as true, with its letters in reverse. -/
  | word (read : List Char)
  /-- Inside a number, with its characters in reverse. -/
  | number (read : List Char)
  /-- Inside a string. -/
  | string (body : StringBody)
  /-- Behind a backslash in a string. -/
  | escape (body : StringBody)
  /-- Inside an escaped unit, with its value so far and the digits still owed. -/
  | unit (body : StringBody) (value : Nat) (owed : Nat)
  /-- Behind the first error, where nothing is read any more. -/
  | stopped
  deriving DecidableEq, Repr

/-- Blanks between tokens are the space, the tab and the two line break characters. -/
def isJsonBlank (character : Char) : Bool :=
  -- No other blank character may stand between tokens.
  character == ' ' || character == '\t' || character == '\n' || character == '\r'

/-- The characters of which numbers are made. -/
def isNumberPart (character : Char) : Bool :=
  -- Whether they stand in a right order is checked once the number has ended.
  character.isDigit || character == '-' || character == '+' || character == '.' ||
    character == 'e' || character == 'E'

/-- The rest of a text behind one or more digits. -/
def skipDigits? (text : List Char) : Option (List Char) :=
  -- At least one digit must be there.
  match text with
  | character :: rest => if character.isDigit then some (rest.dropWhile Char.isDigit) else none
  | [] => none

/-- Whether a text is empty or an exponent. -/
def isExponent : List Char → Bool
  -- The sign of an exponent may be left out.
  | [] => true
  | mark :: rest =>
    let digits := match rest with
      | sign :: behind => if sign == '+' || sign == '-' then behind else rest
      | [] => rest
    (mark == 'e' || mark == 'E') && skipDigits? digits == some []

/-- Whether a text is an optional fraction and an optional exponent. -/
def isNumberTail : List Char → Bool
  -- A fraction has at least one digit.
  | '.' :: rest => match skipDigits? rest with
    | some behind => isExponent behind
    | none => false
  | text => isExponent text

/-- The rest of a text behind a whole number without a sign. -/
def skipWhole? : List Char → Option (List Char)
  -- A zero in front ends the number.
  | '0' :: rest => some rest
  | text => skipDigits? text

/-- The number that a text writes, if it writes one. -/
def Number.ofLexeme? (lexeme : List Char) : Option Number :=
  -- Negative zero is no whole number, nor is one that needs more than 64 bits.
  let unsigned := match lexeme with
    | '-' :: rest => rest
    | _ => lexeme
  match skipWhole? unsigned with
  | none => none
  | some [] =>
    let value := unsigned.foldl (fun total digit => 10 * total + (digit.toNat - '0'.toNat)) 0
    let negative := unsigned.length < lexeme.length
    let fits := if negative then 0 < value && value ≤ 9223372036854775808
      else value < 18446744073709551616
    if fits then some (.whole (if negative then -(value : Int) else value))
    else some (.other (String.ofList (lexeme ++ ['.', '0'])))
  | some tail => if isNumberTail tail then some (.other (String.ofList lexeme)) else none

/-- The token that a number's characters make. -/
def numberToken (read : List Char) : Token :=
  -- The characters were collected in reverse.
  match Number.ofLexeme? read.reverse with
  | some number => .number number
  | none => .invalid

/-- The token that a word makes. -/
def wordToken (read : List Char) : Token :=
  -- Only three words mean something.
  if read.reverse = "null".toList then .null
  else if read.reverse = "true".toList then .bool true
  else if read.reverse = "false".toList then .bool false
  else .invalid

/-- The mode behind a token, which is the last one if the token is invalid. -/
def modeBehind (token : Token) (mode : LexMode) : LexMode :=
  -- The first error ends the reading.
  if token = .invalid then .stopped else mode

/-- The mode after a character between tokens, with the token it makes on its own. -/
def lexBetween (character : Char) : LexMode × Option Token :=
  -- Words, numbers and strings go on behind their first character.
  if isJsonBlank character then (.between, none)
  else if character = '"' then (.string ⟨[], none, true⟩, none)
  else if character.isDigit || character = '-' then (.number [character], none)
  else if character.isAlpha then (.word [character], none)
  else match character with
    | '\x7b' => (.between, some .openObject)
    | '\x7d' => (.between, some .closeObject)
    | '[' => (.between, some .openArray)
    | ']' => (.between, some .closeArray)
    | ':' => (.between, some .colon)
    | ',' => (.between, some .comma)
    | _ => (.stopped, some .invalid)

/-- The character that a one-letter escape stands for. -/
def escaped? : Char → Option Char
  -- The slash may be escaped but need not be.
  | '"' => some '"'
  | '\\' => some '\\'
  | '/' => some '/'
  | 'b' => some '\x08'
  | 'f' => some '\x0c'
  | 'n' => some '\n'
  | 'r' => some '\r'
  | 't' => some '\t'
  | _ => none

/-- The value of a hexadecimal digit of either case. -/
def hexDigit? (character : Char) : Option Nat :=
  -- Letters stand for ten to fifteen.
  if '0' ≤ character ∧ character ≤ '9' then some (character.toNat - '0'.toNat)
  else if 'a' ≤ character ∧ character ≤ 'f' then some (character.toNat - 'a'.toNat + 10)
  else if 'A' ≤ character ∧ character ≤ 'F' then some (character.toNat - 'A'.toNat + 10)
  else none

/-- Where the machine stands, with the tokens so far in reverse. -/
structure Lexer where
  mode : LexMode := .between
  tokens : List Token := []
  deriving Repr

namespace Lexer

/-- The machine after a token, in the given mode. -/
def emit (lexer : Lexer) (token : Token) (mode : LexMode) : Lexer :=
  -- An invalid token is the last one.
  ⟨modeBehind token mode, token :: lexer.tokens⟩

/-- The machine after a character between tokens. -/
def between (lexer : Lexer) (character : Char) : Lexer :=
  -- The character may be a token of its own.
  match lexBetween character with
  | (mode, none) => { lexer with mode }
  | (mode, some token) => lexer.emit token mode

/-- The machine after a character that ends a word or number without belonging to it. -/
def endWith (lexer : Lexer) (token : Token) (character : Char) : Lexer :=
  -- Nothing is read behind an invalid token.
  let ended := lexer.emit token .between
  if token = .invalid then ended else ended.between character

/-- The machine after one more character. -/
def step (lexer : Lexer) (character : Char) : Lexer :=
  -- Control characters may not stand in a string as they are.
  match lexer.mode with
  | .between => lexer.between character
  | .word read =>
    if character.isAlphanum then { lexer with mode := .word (character :: read) }
    else lexer.endWith (wordToken read) character
  | .number read =>
    if isNumberPart character then { lexer with mode := .number (character :: read) }
    else lexer.endWith (numberToken read) character
  | .string body =>
    if character = '"' then lexer.emit (.string body.value?) .between
    else if character = '\\' then { lexer with mode := .escape body }
    else if character.toNat < 0x20 then lexer.emit .invalid .stopped
    else { lexer with mode := .string (body.push character) }
  | .escape body =>
    if character = 'u' then { lexer with mode := .unit body 0 4 }
    else match escaped? character with
      | some meant => { lexer with mode := .string (body.push meant) }
      | none => lexer.emit .invalid .stopped
  | .unit body value owed =>
    match hexDigit? character with
    | none => lexer.emit .invalid .stopped
    | some digit =>
      let value := 16 * value + digit
      if owed ≤ 1 then { lexer with mode := .string (body.pushUnit value) }
      else { lexer with mode := .unit body value (owed - 1) }
  | .stopped => lexer

/-- The tokens read once the text has ended. -/
def finish (lexer : Lexer) : List Token :=
  -- A string that is never closed is an error.
  match lexer.mode with
  | .between | .stopped => lexer.tokens.reverse
  | .word read => (wordToken read :: lexer.tokens).reverse
  | .number read => (numberToken read :: lexer.tokens).reverse
  | .string _ | .escape _ | .unit _ _ _ => (Token.invalid :: lexer.tokens).reverse

end Lexer

/-- The tokens of a text, up to and including the first place that is invalid. -/
def tokens (text : List Char) : List Token :=
  -- The machine walks over the text once.
  (text.foldl Lexer.step {}).finish

end LanguageServer
