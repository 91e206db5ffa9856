/-! JSON values, with whole numbers kept apart from all other numbers. -/

namespace LanguageServer

/-- A JSON number is a whole number of at most 64 bits or any other number. -/
inductive Number where
  /-- A number written with digits only. -/
  | whole (value : Int)
  /-- Any other number, by a written form with a fraction or an exponent. -/
  | other (lexeme : String)
  deriving DecidableEq, Repr

/-- A JSON value, whose objects keep their members in the order of writing. -/
inductive Json where
  | null
  | bool (value : Bool)
  | number (value : Number)
  | string (value : String)
  | array (items : List Json)
  | object (members : List (String × Json))
  deriving Repr

instance : Inhabited Json := ⟨.null⟩

namespace Json

/-- A whole number as a value. -/
def int (value : Int) : Json :=
  -- The written form has digits only.
  .number (.whole value)

/-- A natural number as a value. -/
def nat (value : Nat) : Json :=
  -- Natural numbers are whole.
  int value

/-- The value of an object's last member of a name. -/
def lookup (name : String) (members : List (String × Json)) : Option Json :=
  -- A later member replaces an earlier one of the same name.
  (members.reverse.find? fun member => member.1 == name).map Prod.snd

/-- The value of a member, absent also where the value is no object. -/
def member? (value : Json) (name : String) : Option Json :=
  -- Only objects have members.
  match value with
  | .object members => lookup name members
  | _ => none

end Json

end LanguageServer
