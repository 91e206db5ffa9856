import LanguageServer.Json.Value

/-! JSON values as compact texts. -/

namespace LanguageServer

/-- A hexadecimal digit of a value below sixteen. -/
def hexCharacter (value : Nat) : Char :=
  -- Letters are lower case.
  if value < 10 then Char.ofNat ('0'.toNat + value) else Char.ofNat ('a'.toNat + (value - 10))

/-- The written form of one character of a string. -/
def writeCharacter (character : Char) : String :=
  -- Control characters without a short form are written by their unit.
  if character = '"' then "\\\""
  else if character = '\\' then "\\\\"
  else if character = '\n' then "\\n"
  else if character = '\r' then "\\r"
  else if character = '\t' then "\\t"
  else if character = '\x08' then "\\b"
  else if character = '\x0c' then "\\f"
  else if character.toNat < 0x20 then
    "\\u00" ++ String.ofList
      [hexCharacter (character.toNat / 16), hexCharacter (character.toNat % 16)]
  else String.singleton character

/-- A string in quotes. -/
def writeString (text : String) : String :=
  -- Every character is written on its own.
  "\"" ++ String.join (text.toList.map writeCharacter) ++ "\""

/-- A number, as it was written. -/
def writeNumber : Number → String
  -- Whole numbers have one written form.
  | .whole value => toString value
  | .other lexeme => lexeme

mutual

/-- The compact text of a value, with the members of objects in their order. -/
def Json.write : Json → String
  -- No blanks are written.
  | .null => "null"
  | .bool true => "true"
  | .bool false => "false"
  | .number value => writeNumber value
  | .string value => writeString value
  | .array items => "[" ++ writeItems items ++ "]"
  | .object members => "\x7b" ++ writeMembers members ++ "\x7d"

/-- The texts of an array's items, divided by commas. -/
def writeItems : List Json → String
  -- The last item has no comma behind it.
  | [] => ""
  | [item] => item.write
  | item :: rest => item.write ++ "," ++ writeItems rest

/-- The texts of an object's members, divided by commas. -/
def writeMembers : List (String × Json) → String
  -- The last member has no comma behind it.
  | [] => ""
  | [(name, value)] => writeString name ++ ":" ++ value.write
  | (name, value) :: rest => writeString name ++ ":" ++ value.write ++ "," ++ writeMembers rest

end

end LanguageServer
