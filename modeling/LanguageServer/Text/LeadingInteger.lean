import LanguageServer.Text.Blank

/-! The integer at the start of a text: blanks, an optional sign, then decimal digits. -/

namespace LanguageServer

/-- The largest digit run value that is accepted, the largest signed 64-bit integer. -/
def maxDigitRun : Nat := 9223372036854775807

/-- A decimal digit is one of the ten ASCII digits. -/
def isDecimalDigit (character : Char) : Bool :=
  -- Digits of other scripts do not count.
  '0' ≤ character && character ≤ '9'

/-- The number that a run of decimal digits writes. -/
def digitRunValue (digits : List Char) : Nat :=
  -- The most significant digit stands first.
  digits.foldl (fun value digit => 10 * value + (digit.toNat - '0'.toNat)) 0

/-- The factor that an optional sign stands for, and the text behind it. -/
def splitSign : List Char → Int × List Char
  -- At most one sign is read.
  | '-' :: rest => (-1, rest)
  | '+' :: rest => (1, rest)
  | text => (1, text)

/-- The integer that a text starts with, whatever follows its digits. -/
def leadingInteger? (text : List Char) : Option Int :=
  -- The bound holds for the digits alone, so the lowest signed integer is not accepted.
  let (factor, unsigned) := splitSign (trimLeft text)
  let digits := unsigned.takeWhile isDecimalDigit
  let value := digitRunValue digits
  if digits.isEmpty || maxDigitRun < value then none else some (factor * value)

end LanguageServer
