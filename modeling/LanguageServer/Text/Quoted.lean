/-! Paths in messages stand in quotes, with every character that shows nothing escaped. -/

namespace LanguageServer

/-- The first and last code point of each run of characters that show nothing of their own. -/
def hiddenRuns : List (Nat × Nat) :=
  -- Controls, blanks other than the space, format characters, combining marks and private use.
  [(0x0000, 0x001F), (0x007F, 0x00A0), (0x00AD, 0x00AD), (0x0300, 0x036F), (0x0483, 0x0489),
    (0x0591, 0x05BD), (0x0600, 0x0605), (0x0610, 0x061A), (0x061C, 0x061C), (0x064B, 0x065F),
    (0x06DD, 0x06DD), (0x070F, 0x070F), (0x1680, 0x1680), (0x180B, 0x180F), (0x1AB0, 0x1ACE),
    (0x1DC0, 0x1DFF), (0x2000, 0x200F), (0x2028, 0x202F), (0x205F, 0x206F), (0x20D0, 0x20F0),
    (0x302A, 0x302F), (0x3000, 0x3000), (0x3099, 0x309A), (0xE000, 0xF8FF), (0xFE00, 0xFE0F),
    (0xFE20, 0xFE2F), (0xFEFF, 0xFEFF), (0xFFF0, 0xFFFB), (0xFFFE, 0xFFFF),
    (0xE0000, 0xE0FFF), (0xF0000, 0x10FFFF)]

/-- A character is hidden when one of the runs holds its code point. -/
def isHidden (character : Char) : Bool :=
  -- Both ends of a run belong to it.
  hiddenRuns.any fun run => run.1 ≤ character.toNat && character.toNat ≤ run.2

/-- A number in lower-case hexadecimal digits without padding. -/
def hexadecimal (value : Nat) : String :=
  -- The base has digits up to f.
  String.ofList (Nat.toDigits 16 value)

/-- The written form of one character inside quotes. -/
def quotedCharacter (character : Char) : String :=
  -- A hidden character without a short form is written by its code point.
  if character = '"' then "\\\""
  else if character = '\\' then "\\\\"
  else if character = '\n' then "\\n"
  else if character = '\r' then "\\r"
  else if character = '\t' then "\\t"
  else if character = '\x00' then "\\0"
  else if isHidden character then "\\u\x7b" ++ hexadecimal character.toNat ++ "\x7d"
  else String.singleton character

/-- A text in quotes, on one line and with nothing hidden in it. -/
def quoted (text : String) : String :=
  -- Every character is written on its own.
  "\"" ++ String.join (text.toList.map quotedCharacter) ++ "\""

end LanguageServer
