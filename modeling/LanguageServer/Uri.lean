/-! Document addresses, compared and ordered by their text. -/

namespace LanguageServer

/-- The address of a document. -/
structure Uri where
  text : String
  deriving DecidableEq, Repr

namespace Uri

/-- The characters of a scheme behind its first letter. -/
def isSchemePart (character : Char) : Bool :=
  -- Schemes are made of ASCII characters.
  character.isAlphanum || character == '+' || character == '-' || character == '.'

/-- The address that a text writes, if the text starts with a scheme and a colon. -/
def ofString? (text : String) : Option Uri :=
  -- A scheme starts with a letter.
  match text.toList with
  | [] => none
  | first :: rest =>
    match rest.dropWhile isSchemePart with
    | ':' :: _ => if first.isAlpha then some ⟨text⟩ else none
    | _ => none

end Uri

end LanguageServer
