import LanguageServer.Configuration.Basic
import LanguageServer.Text.Utf8

/-! What is taken of a compiler program's output, however its bytes arrive. -/

namespace LanguageServer

/-- The most bytes that a single read brings. -/
def firstReadLimit : Nat := 65536

/-- The text taken of output that arrives in the given reads. -/
def Capture.take (capture : Capture) (reads : List (List UInt8)) : List Char :=
  -- Bytes are decoded once they are all there, so that no read can divide a character.
  match capture with
  | .full => decodeLossy reads.flatten
  | .firstChunk => decodeLossy ((reads.headD []).take firstReadLimit)

end LanguageServer
