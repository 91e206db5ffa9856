/-! Blank characters are the twenty-five of the Unicode property White_Space. -/

namespace LanguageServer

/-- The first and last code point of each run of blank characters. -/
def blankRuns : List (Nat × Nat) :=
  -- Format characters such as U+200B and U+FEFF are not blank.
  [(0x0009, 0x000D), (0x0020, 0x0020), (0x0085, 0x0085), (0x00A0, 0x00A0), (0x1680, 0x1680),
    (0x2000, 0x200A), (0x2028, 0x2029), (0x202F, 0x202F), (0x205F, 0x205F), (0x3000, 0x3000)]

/-- A character is blank when one of the runs holds its code point. -/
def isBlank (character : Char) : Bool :=
  -- Both ends of a run belong to it.
  blankRuns.any fun run => run.1 ≤ character.toNat && character.toNat ≤ run.2

/-- A text without the blank characters at its start. -/
def trimLeft (text : List Char) : List Char :=
  -- Blank characters behind the first other one stay.
  text.dropWhile isBlank

/-- A text without the blank characters at its two ends. -/
def trim (text : List Char) : List Char :=
  -- The end is the start of the reversed text.
  (trimLeft (trimLeft text).reverse).reverse

end LanguageServer
