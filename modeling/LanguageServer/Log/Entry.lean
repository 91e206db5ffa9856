import LanguageServer.Identity
import LanguageServer.Json.Value
import LanguageServer.Notice

/-! Notices as entries of the log file. -/

namespace LanguageServer.Notice

/-- The version that a notice tells beside its words. -/
def version? : Notice → Option String
  -- The first entry of a run says which server writes.
  | .loggingTo _ => some serverVersion
  | _ => none

/-- The fields of a notice's entry, for some wording of it. -/
def fields (notice : Notice) (wording : String) : Json :=
  -- The words come first.
  .object (("message", .string wording) ::
    notice.version?.toList.map fun version => ("version", .string version))

/-- The entry of a notice, for some wording of it. -/
def entry (notice : Notice) (wording : String) : Json :=
  -- An entry tells how much it matters and where it comes from.
  .object [("level", .string notice.level.name), ("fields", notice.fields wording),
    ("target", .string notice.origin.target)]

end LanguageServer.Notice
