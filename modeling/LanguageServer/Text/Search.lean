/-! Finding a word in a text, from the front and from the back. -/

namespace LanguageServer

/-- The text before and after the first place where a word stands, given what was passed over. -/
def splitFrom (word : List Char) (passed : List Char) : List Char → Option (List Char × List Char)
  -- An empty rest still holds the empty word.
  | [] => if word.isEmpty then some (passed.reverse, []) else none
  | character :: rest =>
    match word.isPrefixOf? (character :: rest) with
    | some after => some (passed.reverse, after)
    | none => splitFrom word (character :: passed) rest

/-- The text before and after the first place where a word stands. -/
def splitFirst? (word text : List Char) : Option (List Char × List Char) :=
  -- Nothing has been passed over at the start.
  splitFrom word [] text

/-- The text before and after the last place where a word stands. -/
def splitLast? (word text : List Char) : Option (List Char × List Char) :=
  -- The last place is the first one when both are read backwards.
  (splitFirst? word.reverse text.reverse).map fun parts => (parts.2.reverse, parts.1.reverse)

end LanguageServer
