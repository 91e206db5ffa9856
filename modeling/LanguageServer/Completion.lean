import LanguageServer.Json.Value

/-! The words that the server offers for completion. -/

namespace LanguageServer

/-- The words offered, in this order, in every document and at every place. -/
def keywords : List String :=
  -- Two statements and three operators.
  ["if", "while", "not", "and", "or"]

/-- A word offered for completion, with its number counted from one. -/
structure CompletionItem where
  label : String
  number : Nat
  deriving DecidableEq, Repr

/-- All words offered for completion. -/
def keywordItems : List CompletionItem :=
  -- Numbers follow the order of the words.
  keywords.zipIdx.map fun (label, index) => ⟨label, index + 1⟩

/-- A completion item as it is sent. -/
def CompletionItem.toJson (item : CompletionItem) : Json :=
  -- Kind one is plain text.
  .object [("label", .string item.label), ("kind", .nat 1), ("data", .nat item.number)]

end LanguageServer
