/-! Positions count lines and UTF-16 units, while texts are cut at byte offsets. -/

namespace LanguageServer

/-- A place in a text, as its line and the UTF-16 units before it on that line. -/
structure Position where
  line : Nat
  character : Nat
  deriving DecidableEq, Repr

/-- A stretch of text between two positions. -/
structure Range where
  start : Position
  stop : Position
  deriving DecidableEq, Repr

/-- The number of UTF-16 units of a character. -/
def units (character : Char) : Nat :=
  -- Characters beyond the basic plane are written as a surrogate pair.
  if character.toNat < 0x10000 then 1 else 2

/-- The number of bytes of a text in UTF-8. -/
def byteCount (text : List Char) : Nat :=
  -- Characters are counted one after another.
  text.foldl (fun count character => count + character.utf8Size) 0

/-- A line's content ends before its first line break character of either kind. -/
def isLineBreak (character : Char) : Bool :=
  -- A lone carriage return ends the content but starts no line.
  character == '\n' || character == '\r'

/-- The byte offset of a place that lies some lines and units ahead of an offset. -/
def offsetFrom (offset : Nat) : List Char → Nat → Nat → Nat
  -- A place behind the text or behind its line is moved back to the end of it.
  | [], _, _ => offset
  | character :: rest, 0, ahead =>
    if ahead = 0 || isLineBreak character then offset
    else offsetFrom (offset + character.utf8Size) rest 0 (ahead - units character)
  | character :: rest, lines + 1, ahead =>
    let lines := if character = '\n' then lines else lines + 1
    offsetFrom (offset + character.utf8Size) rest lines ahead

/-- The byte offset at which a position cuts a text. -/
def offsetOf (text : List Char) (position : Position) : Nat :=
  -- A position inside a surrogate pair is moved behind the character.
  offsetFrom 0 text position.line position.character

/-- The position one character further on. -/
def Position.advance (position : Position) (character : Char) : Position :=
  -- Only a line feed starts a new line.
  if character = '\n' then ⟨position.line + 1, 0⟩
  else ⟨position.line, position.character + units character⟩

/-- The position just behind the last character of a text. -/
def positionAfter (text : List Char) : Position :=
  -- The text is walked from its first character.
  text.foldl Position.advance ⟨0, 0⟩

/-- The parts of a text before and behind a byte offset, given the characters already passed. -/
def cutFrom (passed : List Char) : List Char → Nat → Option (List Char × List Char)
  -- An offset inside a character or behind the text cuts nothing.
  | rest, 0 => some (passed.reverse, rest)
  | [], _ + 1 => none
  | character :: rest, offset =>
    if character.utf8Size ≤ offset then
      cutFrom (character :: passed) rest (offset - character.utf8Size)
    else none

/-- The parts of a text before and behind a byte offset. -/
def cut? (text : List Char) (offset : Nat) : Option (List Char × List Char) :=
  -- Nothing has been passed at the start.
  cutFrom [] text offset

/-- A text with the bytes between two offsets replaced. -/
def splice? (text : List Char) (start stop : Nat) (inserted : List Char) : Option (List Char) := do
  -- Both offsets must fall between characters and stand in order.
  guard (start ≤ stop)
  let (before, rest) ← cut? text start
  let (_, behind) ← cut? rest (stop - start)
  return before ++ inserted ++ behind

end LanguageServer
