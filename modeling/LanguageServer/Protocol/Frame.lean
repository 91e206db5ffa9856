import LanguageServer.Text.Utf8

/-! Messages on a stream of bytes: header lines, an empty line, and as many bytes as they say. -/

namespace LanguageServer

/-- A message as it is written to a stream. -/
def frame (text : String) : List UInt8 :=
  -- The length counts bytes.
  let body := encode text.toList
  encode ("Content-Length: " ++ toString body.length ++ "\r\n\r\n").toList ++ body

/-- A stream part way through a message. -/
inductive FrameReader where
  /-- In a header line, of which the last byte comes first, with the length if it was told. -/
  | header (line : List UInt8) (length : Option Nat)
  /-- In a message, of which the last byte comes first, with the number of bytes still missing. -/
  | body (read : List UInt8) (missing : Nat)
  deriving DecidableEq, Repr

namespace FrameReader

/-- A stream between two messages. -/
def fresh : FrameReader := .header [] none

/-- The length that a header line tells. -/
def lengthOf? (line : List UInt8) : Option Nat := do
  -- Other headers say nothing about it.
  let text ← decode? line
  match (String.ofList text).splitOn ":" with
  | [name, value] =>
    if name.toLower = "content-length" then value.trimAscii.toString.toNat? else none
  | _ => none

/-- The stream after the end of a header line. -/
def endLine (line : List UInt8) (length : Option Nat) : FrameReader × Option (List UInt8) :=
  -- An empty line ends the header.
  match line, length with
  | [], some 0 => (fresh, some [])
  | [], some missing => (.body [] missing, none)
  | [], none => (fresh, none)
  | line, length => (.header [] ((lengthOf? line).or length), none)

/-- The stream after one more byte, with the message that it completes. -/
def step : FrameReader → UInt8 → FrameReader × Option (List UInt8)
  -- A line ends with a line feed, and a carriage return before it does not count.
  | .header line length, byte =>
    if byte = 10 then
      endLine (match line with
        | 13 :: rest => rest.reverse
        | line => line.reverse) length
    else (.header (byte :: line) length, none)
  | .body read missing, byte =>
    if missing ≤ 1 then (fresh, some (byte :: read).reverse)
    else (.body (byte :: read) (missing - 1), none)

/-- The stream after bytes in order, with the messages that they complete. -/
def feed (reader : FrameReader) : List UInt8 → FrameReader × List (List UInt8)
  -- A message may be spread over any number of pieces.
  | [] => (reader, [])
  | byte :: rest =>
    let (reader, first) := reader.step byte
    let (reader, others) := reader.feed rest
    (reader, first.toList ++ others)

end FrameReader

end LanguageServer
