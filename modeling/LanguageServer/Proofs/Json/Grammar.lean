/-! The texts of JSON values, said by the rules of the format and not by a reader of them. -/

namespace LanguageServer

/-- Blanks between the parts of a value. -/
def Blanks (text : List Char) : Prop :=
  -- No other blank characters may stand there.
  ∀ character ∈ text, character ∈ [' ', '\t', '\n', '\r']

instance (text : List Char) : Decidable (Blanks text) :=
  List.decidableBAll (· ∈ [' ', '\t', '\n', '\r']) text

/-- The UTF-16 units of a character. -/
def utf16 (character : Char) : List Nat :=
  -- Twenty bits of a code point beyond the basic plane are divided between two surrogates.
  if character.toNat < 0x10000 then [character.toNat]
  else [0xD800 + (character.toNat - 0x10000) / 1024, 0xDC00 + (character.toNat - 0x10000) % 1024]

/-- The letters that may stand behind a backslash, with the characters that are meant. -/
def shortEscapes : List (Char × Char) :=
  -- Controls without a letter of their own are written by their unit.
  [('"', '"'), ('\\', '\\'), ('/', '/'), ('b', '\x08'), ('f', '\x0c'), ('n', '\n'), ('r', '\r'),
    ('t', '\t')]

/-- Whether a character is the hexadecimal digit of a value, in either case. -/
def IsHexDigit (value : Nat) (digit : Char) : Prop :=
  -- There are sixteen values.
  value < 16 ∧ (digit = Nat.digitChar value ∨ digit = (Nat.digitChar value).toUpper)

instance (value : Nat) (digit : Char) : Decidable (IsHexDigit value digit) :=
  inferInstanceAs (Decidable (value < 16 ∧
    (digit = Nat.digitChar value ∨ digit = (Nat.digitChar value).toUpper)))

/-- What stands between the quotes of a string, with the UTF-16 units that it spells. -/
inductive Spelled : List Nat → List Char → Prop where
  | nil : Spelled [] []
  | plain {character : Char} {units : List Nat} {text : List Char} :
    character ≠ '"' → character ≠ '\\' → 0x20 ≤ character.toNat → Spelled units text →
    Spelled (utf16 character ++ units) (character :: text)
  | short {letter meant : Char} {units : List Nat} {text : List Char} :
    (letter, meant) ∈ shortEscapes → Spelled units text →
    Spelled (meant.toNat :: units) ('\\' :: letter :: text)
  | unit {first second third fourth : Nat} {a b c d : Char} {units : List Nat}
    {text : List Char} :
    IsHexDigit first a → IsHexDigit second b → IsHexDigit third c → IsHexDigit fourth d →
    Spelled units text →
    Spelled ((4096 * first + 256 * second + 16 * third + fourth) :: units)
      ('\\' :: 'u' :: a :: b :: c :: d :: text)

/-- A string in its quotes, with the text that is meant if its units are those of a text. -/
def StringText (meant : Option String) (text : List Char) : Prop :=
  -- The units of half a surrogate pair are those of no text.
  ∃ units spelled, Spelled units spelled ∧ text = '"' :: spelled ++ ['"'] ∧
    ∀ value : String, meant = some value ↔ units = value.toList.flatMap utf16

/-- One or more decimal digits. -/
def Digits (text : List Char) : Prop :=
  -- Digits of other scripts do not count.
  text ≠ [] ∧ ∀ character ∈ text, character.isDigit

/-- The digits before the fraction of a number. -/
def WholeText (text : List Char) : Prop :=
  -- A zero in front is the only one of them.
  text = ['0'] ∨ Digits text ∧ text.head? ≠ some '0'

/-- The fraction of a number, which may be left out. -/
def FractionText (text : List Char) : Prop :=
  -- Zeros behind it count as digits like others.
  text = [] ∨ ∃ digits, text = '.' :: digits ∧ Digits digits

/-- The exponent of a number, which may be left out. -/
def ExponentText (text : List Char) : Prop :=
  -- There is no bound on it.
  text = [] ∨ ∃ mark sign digits, text = mark :: (sign ++ digits) ∧ (mark = 'e' ∨ mark = 'E') ∧
    (sign = [] ∨ sign = ['+'] ∨ sign = ['-']) ∧ Digits digits

/-- The text of a number. -/
inductive NumberText : List Char → Prop where
  | positive {whole fraction exponent : List Char} : WholeText whole → FractionText fraction →
    ExponentText exponent → NumberText (whole ++ (fraction ++ exponent))
  | negative {whole fraction exponent : List Char} : WholeText whole → FractionText fraction →
    ExponentText exponent → NumberText ('-' :: (whole ++ (fraction ++ exponent)))

/-- A text between blanks. -/
structure Item where
  before : List Char
  value : List Char
  behind : List Char
  deriving DecidableEq, Repr

/-- An item as it is written. -/
def Item.text (item : Item) : List Char :=
  -- The blanks belong to it.
  item.before ++ (item.value ++ item.behind)

/-- Whether an item stands between blanks. -/
def Item.Spaced (item : Item) : Prop :=
  -- Either side may be empty.
  Blanks item.before ∧ Blanks item.behind

/-- A member of an object, with what its name means. -/
structure Member where
  key : Option String
  name : Item
  value : Item
  deriving DecidableEq, Repr

/-- A member as it is written. -/
def Member.text (member : Member) : List Char :=
  -- Blanks may stand on both sides of the colon.
  member.name.text ++ ':' :: member.value.text

/-- Whether a member has a name that is a string and stands between blanks. -/
structure Member.WellFormed (member : Member) : Prop where
  name : StringText member.key member.name.value
  nameSpaced : member.name.Spaced
  valueSpaced : member.value.Spaced

/-- An array of items. -/
def arrayText (blanks : List Char) (items : List Item) : List Char :=
  -- The blanks are all that stands in an empty array.
  '[' :: (blanks ++ ([','].intercalate (items.map Item.text) ++ [']']))

/-- An object of members. -/
def objectText (blanks : List Char) (members : List Member) : List Char :=
  -- The blanks are all that stands in an empty object.
  '\x7b' :: (blanks ++ ([','].intercalate (members.map Member.text) ++ ['\x7d']))

/-- The text of a value. -/
inductive JsonText : List Char → Prop where
  | null : JsonText "null".toList
  | truth : JsonText "true".toList
  | falsehood : JsonText "false".toList
  | number {text : List Char} : NumberText text → JsonText text
  | string {meant : Option String} {text : List Char} : StringText meant text → JsonText text
  | array {blanks : List Char} {items : List Item} : Blanks blanks →
    (∀ item ∈ items, item.Spaced) → (∀ item ∈ items, JsonText item.value) →
    JsonText (arrayText blanks items)
  | object {blanks : List Char} {members : List Member} : Blanks blanks →
    (∀ member ∈ members, member.WellFormed) →
    (∀ member ∈ members, JsonText member.value.value) → JsonText (objectText blanks members)

end LanguageServer
