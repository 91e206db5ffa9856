import LanguageServer.Compiler.Error

/-! Programs that run as processes of their own, as seen by whoever starts them. -/

namespace LanguageServer

/-- How a process ends. -/
inductive Ending where
  | exit (status : Nat)
  | killed (signal : Nat)
  deriving DecidableEq, Repr

/-- What becomes of the input that a process is given. -/
inductive Delivery where
  /-- All of it could be written. -/
  | written
  /-- The process stopped reading before its end. -/
  | refused
  /-- It could not be written for another reason. -/
  | failed (reason : String)
  deriving DecidableEq, Repr

/-- What comes of a process that was started. -/
structure Process where
  input : Delivery
  /-- Its output, in the reads that bring it. -/
  reads : List (List UInt8)
  /-- Why the output broke off behind these reads, if it did. -/
  brokenOff : Option String := none
  /-- How it ends, or why nobody could wait for that. -/
  ending : Except String Ending
  deriving Repr

/--
A way to start programs by name or path, with arguments and input.

The operating system is free to refuse any program and to let any process fail.
-/
abbrev Runner := String → List String → List UInt8 → Except OsError Process

end LanguageServer
