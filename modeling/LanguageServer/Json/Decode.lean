import LanguageServer.Json.Value
import LanguageServer.Uri

/-! Reading typed data from JSON values, where every mismatch is a refusal. -/

namespace LanguageServer.Json

/-- The text of a string. -/
def asString? : Json → Option String
  -- Nothing else is a text.
  | .string value => some value
  | _ => none

/-- The value of a truth value. -/
def asBool? : Json → Option Bool
  -- Nothing else is a truth value.
  | .bool value => some value
  | _ => none

/-- The items of an array. -/
def asArray? : Json → Option (List Json)
  -- Nothing else has items.
  | .array items => some items
  | _ => none

/-- The value of a whole number between two bounds, the upper one excluded. -/
def asIntBetween? (low high : Int) : Json → Option Int
  -- A number with a fraction or an exponent is not whole, even if its value is.
  | .number (.whole value) => if low ≤ value ∧ value < high then some value else none
  | _ => none

/-- A signed 32-bit integer. -/
def asInt32? (value : Json) : Option Int :=
  -- One bit is the sign.
  value.asIntBetween? (-2147483648) 2147483648

/-- An unsigned 32-bit integer. -/
def asNat32? (value : Json) : Option Nat :=
  -- All bits count.
  (value.asIntBetween? 0 4294967296).map Int.toNat

/-- An unsigned 64-bit integer. -/
def asNat64? (value : Json) : Option Nat :=
  -- All bits count.
  (value.asIntBetween? 0 18446744073709551616).map Int.toNat

/-- A document address. -/
def asUri? (value : Json) : Option Uri :=
  -- Addresses are written as strings.
  value.asString?.bind Uri.ofString?

/-- The items of an array, each read in the same way. -/
def asListOf? {α : Type} (read : Json → Option α) (value : Json) : Option (List α) :=
  -- One item that cannot be read spoils the array.
  value.asArray?.bind fun items => items.mapM read

/-- A value that may be absent or null, and must be readable otherwise. -/
def optional? {α : Type} (read : Json → Option α) : Option Json → Option (Option α)
  -- Null says the same as nothing.
  | none | some .null => some none
  | some value => (read value).map some

/-- A value that must be there. -/
def required? {α : Type} (read : Json → Option α) (value : Option Json) : Option α :=
  -- Null must be readable to count.
  value.bind read

/-- The fields of a record by name, from an object or from an array that gives all in order. -/
def record? (names : List String) : Json → Option (String → Option Json)
  -- Unknown members of an object are ignored.
  | .object members => some fun name => lookup name members
  | .array items =>
    if items.length = names.length then some fun name => (names.zip items).lookup name else none
  | _ => none

/-- The members of an object by name. -/
def members? : Json → Option (String → Option Json)
  -- Unlike records, some structures are never written as arrays.
  | .object members => some fun name => lookup name members
  | _ => none

end LanguageServer.Json
