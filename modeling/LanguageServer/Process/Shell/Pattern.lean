/-! Shell patterns with stars, question marks and character sets. -/

namespace LanguageServer.Shell

/-- One item of a pattern. -/
inductive PatternItem where
  | exactly (character : Char)
  /-- Any one character. -/
  | one
  /-- Any characters, also none. -/
  | many
  /-- A character inside or outside of ranges. -/
  | set (inside : Bool) (ranges : List (Char × Char))
  deriving DecidableEq, Repr

/-- The ranges that the inside of a set writes. -/
def setRanges : List Char → List (Char × Char)
  -- A dash between two characters makes a range.
  | low :: '-' :: high :: rest => (low, high) :: setRanges rest
  | character :: rest => (character, character) :: setRanges rest
  | [] => []

/-- The set that starts a text behind its opening bracket, and the text behind the closing one. -/
def patternSet? (text : List Char) : Option (PatternItem × List Char) :=
  -- A mark in front turns the set around, and a closing bracket in front is part of the set.
  let (inside, body) := match text with
    | '!' :: rest | '^' :: rest => (false, rest)
    | _ => (true, text)
  let (first, rest) := match body with
    | ']' :: rest => ([']'], rest)
    | _ => ([], body)
  let more := rest.takeWhile (· ≠ ']')
  match rest.drop more.length with
  | _ :: behind => some (.set inside (setRanges (first ++ more)), behind)
  | [] => none

/-- The pattern that unquoted characters write. -/
def patternItems : Nat → List Char → List PatternItem
  -- An opening bracket without a closing one stands for itself.
  | 0, _ => []
  | _ + 1, [] => []
  | bound + 1, '*' :: rest => .many :: patternItems bound rest
  | bound + 1, '?' :: rest => .one :: patternItems bound rest
  | bound + 1, '[' :: rest =>
    match patternSet? rest with
    | some (item, rest) => item :: patternItems bound rest
    | none => .exactly '[' :: patternItems bound rest
  | bound + 1, character :: rest => .exactly character :: patternItems bound rest

/-- Whether a pattern item fits a character. -/
def PatternItem.fits (item : PatternItem) (character : Char) : Bool :=
  -- A star is not about a single character.
  match item with
  | .exactly wanted => character = wanted
  | .one => true
  | .many => false
  | .set inside ranges =>
    inside == ranges.any fun range => range.1 ≤ character && character ≤ range.2

/-- Whether a pattern fits a whole text. -/
def fits : List PatternItem → List Char → Bool
  -- A star takes nothing or one more character.
  | [], text => text.isEmpty
  | .many :: rest, [] => fits rest []
  | .many :: rest, character :: text => fits rest (character :: text) || fits (.many :: rest) text
  | _ :: _, [] => false
  | item :: rest, character :: text => item.fits character && fits rest text
termination_by pattern text => (text.length, pattern.length)

/-- A text without the part at its start or its end that a pattern fits. -/
def trimmed (pattern : List PatternItem) (atEnd longest : Bool) (text : List Char) : List Char :=
  -- A pattern without stars fits only parts of its own length.
  let lengths := if pattern.contains .many then List.range (text.length + 1)
    else [pattern.length]
  let part (length : Nat) := if atEnd then text.drop (text.length - length) else text.take length
  let found := (if longest then lengths.reverse else lengths).find? fun length =>
    length ≤ text.length && fits pattern (part length)
  match found with
  | some length => if atEnd then text.take (text.length - length) else text.drop length
  | none => text

end LanguageServer.Shell
