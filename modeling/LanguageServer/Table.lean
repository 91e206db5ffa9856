import LanguageServer.Uri

/-! Tables from addresses to values, listed in the order of the addresses. -/

namespace LanguageServer

/-- A table holds at most one value for each address. -/
structure Table (α : Type) where
  entries : List (Uri × α) := []
  deriving Repr

namespace Table

variable {α β : Type}

/-- The value that an entry list holds for an address. -/
def findIn (uri : Uri) : List (Uri × α) → Option α
  -- The first entry of the address counts.
  | [] => none
  | (key, value) :: rest => if key = uri then some value else findIn uri rest

/-- The entries with one of them set, at its place in the order of addresses. -/
def insertIn (uri : Uri) (value : α) : List (Uri × α) → List (Uri × α)
  -- An entry of the same address is replaced.
  | [] => [(uri, value)]
  | (key, held) :: rest =>
    if key = uri then (uri, value) :: rest
    else if uri.text < key.text then (uri, value) :: (key, held) :: rest
    else (key, held) :: insertIn uri value rest

/-- The value that a table holds for an address. -/
def find? (table : Table α) (uri : Uri) : Option α :=
  -- Entries are searched in order.
  findIn uri table.entries

/-- Whether a table holds a value for an address. -/
def contains (table : Table α) (uri : Uri) : Bool :=
  -- Any value will do.
  (table.find? uri).isSome

/-- A table with the value of one address set. -/
def insert (table : Table α) (uri : Uri) (value : α) : Table α :=
  -- Other addresses keep their values.
  ⟨insertIn uri value table.entries⟩

/-- A table without a value for one address. -/
def erase (table : Table α) (uri : Uri) : Table α :=
  -- Other addresses keep their values.
  ⟨table.entries.filter fun entry => entry.1 ≠ uri⟩

/-- A table with every value changed. -/
def map (change : α → β) (table : Table α) : Table β :=
  -- Addresses stay as they are.
  ⟨table.entries.map fun entry => (entry.1, change entry.2)⟩

/-- The number of addresses that have a value. -/
def size (table : Table α) : Nat :=
  -- There is one entry for each of them.
  table.entries.length

/-- The addresses that have a value, in order. -/
def keys (table : Table α) : List Uri :=
  -- Entries are kept in order.
  table.entries.map Prod.fst

/-- The values, in the order of their addresses. -/
def values (table : Table α) : List α :=
  -- Entries are kept in order.
  table.entries.map Prod.snd

end Table

end LanguageServer
