/-! UTF-8 byte sequences, read strictly or with a replacement for each invalid part. -/

namespace LanguageServer

/-- The character that stands for an invalid part of a byte sequence. -/
def replacement : Char := '\uFFFD'

/-- A character part way through: the bits read, the bytes still owed and the next byte's range. -/
structure Unfinished where
  bits : Nat
  owed : Nat
  low : Nat
  high : Nat
  deriving DecidableEq, Repr

/-- What the first byte of a character says about the rest of it. -/
inductive Lead where
  /-- The byte is a whole character. -/
  | whole (character : Char)
  /-- More bytes belong to the character. -/
  | begun (unfinished : Unfinished)
  /-- No character starts with the byte. -/
  | none
  deriving DecidableEq, Repr

/-- The character, or the start of one, that a byte begins. -/
def Lead.ofByte (byte : Nat) : Lead :=
  -- The second byte's range excludes overlong forms, surrogates and code points that do not exist.
  if byte < 0x80 then .whole (Char.ofNat byte)
  else if byte < 0xC2 then .none
  else if byte < 0xE0 then .begun ⟨byte - 0xC0, 1, 0x80, 0xBF⟩
  else if byte = 0xE0 then .begun ⟨0, 2, 0xA0, 0xBF⟩
  else if byte = 0xED then .begun ⟨0xD, 2, 0x80, 0x9F⟩
  else if byte < 0xF0 then .begun ⟨byte - 0xE0, 2, 0x80, 0xBF⟩
  else if byte = 0xF0 then .begun ⟨0, 3, 0x90, 0xBF⟩
  else if byte < 0xF4 then .begun ⟨byte - 0xF0, 3, 0x80, 0xBF⟩
  else if byte = 0xF4 then .begun ⟨4, 3, 0x80, 0x8F⟩
  else .none

/-- Where a decoder stands between two bytes, with the characters read so far in reverse. -/
structure Decoder where
  read : List Char := []
  unfinished : Option Unfinished := none
  deriving DecidableEq, Repr

/-- The decoder after a byte that starts a new character. -/
def Decoder.start (read : List Char) (byte : Nat) : Decoder :=
  -- A byte that starts nothing is an invalid part of its own.
  match Lead.ofByte byte with
  | .whole character => ⟨character :: read, none⟩
  | .begun unfinished => ⟨read, some unfinished⟩
  | .none => ⟨replacement :: read, none⟩

/-- The decoder after one more byte. -/
def Decoder.step (decoder : Decoder) (byte : UInt8) : Decoder :=
  -- A byte that cannot continue a character ends an invalid part and starts anew.
  match decoder.unfinished with
  | none => Decoder.start decoder.read byte.toNat
  | some unfinished =>
    if unfinished.low ≤ byte.toNat ∧ byte.toNat ≤ unfinished.high then
      let bits := 64 * unfinished.bits + (byte.toNat - 0x80)
      if unfinished.owed ≤ 1 then ⟨Char.ofNat bits :: decoder.read, none⟩
      else ⟨decoder.read, some ⟨bits, unfinished.owed - 1, 0x80, 0xBF⟩⟩
    else Decoder.start (replacement :: decoder.read) byte.toNat

/-- The characters read, with a character that was never finished replaced. -/
def Decoder.finish (decoder : Decoder) : List Char :=
  -- The characters were collected in reverse.
  match decoder.unfinished with
  | none => decoder.read.reverse
  | some _ => (replacement :: decoder.read).reverse

/-- The text of a byte sequence, with one replacement for each maximal invalid part. -/
def decodeLossy (bytes : List UInt8) : List Char :=
  -- Decoding is a walk over the bytes.
  (bytes.foldl Decoder.step {}).finish

/-- The bytes of a text. -/
def encode (text : List Char) : List UInt8 :=
  -- Every character is encoded on its own.
  text.flatMap String.utf8EncodeChar

/-- The text of a byte sequence that is entirely valid. -/
def decode? (bytes : List UInt8) : Option (List Char) :=
  -- Only a valid sequence is the encoding of its decoded text.
  let text := decodeLossy bytes
  if encode text = bytes then some text else none

end LanguageServer
